import OsmoSysmon.SimpleCtrl.Session

/-! # The calls that a run makes

Every run leaves a trace, one that stops as well as one that returns.  A property of the
calls of a run and of its end that `Composes` can be shown statement by statement: `Makes`
is kept by `>>=` and by the receive loop, so that `Call.run_makes` has it of a whole call of
`simple_ctrl_get` or `simple_ctrl_set` once it is known of `read` and `write`.
-/

namespace OsmoSysmon

open CText Loop

/-- The calls made by the end of a run, newest first. -/
def traceOf {α : Type} : Except Stop (α × World) → List Event
  | .ok (_, w) => w.trace
  | .error stop => stop.trace

/-- How a run ends that does not return. -/
def faultOf {α : Type} : Except Stop (α × World) → Option Fault
  | .ok _ => none
  | .error stop => some stop.fault

/-- `P` holds of the end of a run and of the calls that it has made since `before`. -/
def Adds {α : Type} (P : Option Fault → List Event → Prop) (before : List Event)
    (result : Except Stop (α × World)) : Prop :=
  ∃ new, traceOf result = new ++ before ∧ P (faultOf result) new

def Makes {α : Type} (P : Option Fault → List Event → Prop) (m : Sys α) : Prop :=
  ∀ w, Adds P w.trace (m w)

/-- The calls that are made on the socket. -/
def Event.onSocket : Event → Bool
  | .select _ | .read _ _ | .write _ => true
  | .msgbAlloc _ | .msgbFree _ | .strAlloc _ | .strFree _ => false

/-- The property holds of a run if it holds of its parts, and the memory may be used. -/
structure Composes (P : Option Fault → List Event → Prop) : Prop where
  nothing : P none []
  fails {fault : Fault} : fault ≠ .blocked → P (some fault) []
  memory {e : Event} : e.onSocket = false → P none [e]
  after {fault : Option Fault} {new old : List Event} :
    P none old → P fault new → P fault (new ++ old)

/-! ## The two reads of a message -/

/-- `simple_ipa_receive` up to the `read` of the payload: the buffer with the header in it,
    and the length that the header announces. -/
def ipaHeader (sch : SimpleCtrlHandle) : Sys (Option (Msgb × Nat)) := do
  match ← readTimeout ipaccessHeadSize sch.toutMsec with
  | some [hi, lo, proto] =>
    let len := ntohs hi lo
    let resp ← msgbAlloc (len + ipaccessHeadSize + 1).toUInt16
    let (l1h, resp) ← msgbPut resp ipaccessHeadSize
    let resp := resp.setL1h l1h
    let resp ← msgbStore resp resp.l1h [hi, lo, proto]
    return some (resp.setL2h resp.tail, len)
  | some _ => return none
  | none => return none

/-- `simple_ipa_receive` from the `read` of the payload on. -/
def ipaPayload (resp : Msgb) (len : Nat) : Sys (Option Msgb) := do
  match ← sysRead len with
  | some payload =>
    let resp ← msgbStore resp resp.l2h payload
    if payload.length < len then
      msgbFree resp
      return none
    else
      let (_, resp) ← msgbPut resp payload.length
      return some resp
  | none =>
    msgbFree resp
    return none

theorem simpleIpaReceive_eq (sch : SimpleCtrlHandle) :
    simpleIpaReceive sch = do
      match ← ipaHeader sch with
      | some (resp, len) => ipaPayload resp len
      | none => return none := by
  rw [simpleIpaReceive, ipaHeader, bind_assoc]
  refine bind_congr fun header => ?_
  rcases header with _ | (_ | ⟨hi, _ | ⟨lo, _ | ⟨proto, _ | ⟨_, _⟩⟩⟩⟩)
  case some.cons.cons.cons.nil =>
    simp only [bind_assoc, pure_bind]
    rfl
  all_goals simp only [pure_bind]

/-! ## System calls -/

theorem waitReadable_ready {tout : UInt32} {rx rx' : List RxEvent}
    (waited : waitReadable tout rx = .ok (.ready, rx')) : readable rx' = true := by
  induction rx with
  | nil =>
    rw [waitReadable] at waited
    split at waited <;> cases waited
  | cons event rx ih =>
    cases event with
    | silence =>
      rw [waitReadable] at waited
      split at waited
      · exact ih waited
      · cases waited
    | error => cases waited
    | eof =>
      cases waited
      rfl
    | data bs =>
      cases bs with
      | nil => exact ih waited
      | cons b bs =>
        cases waited
        rfl

/-- Only a timeout of 0 waits for ever. -/
theorem waitReadable_error {tout : UInt32} {rx : List RxEvent} {fault : Fault}
    (waits : waitReadable tout rx = .error fault) : tout = 0 := by
  induction rx with
  | nil =>
    rw [waitReadable] at waits
    split at waits
    · assumption
    · cases waits
  | cons event rx ih =>
    cases event with
    | silence =>
      rw [waitReadable] at waits
      split at waits
      · assumption
      · cases waits
    | error | eof => cases waits
    | data bs =>
      cases bs with
      | nil => exact ih waits
      | cons b bs => cases waits

theorem readable_of_pull_error {count : Nat} {rx : List RxEvent} {fault : Fault}
    (waits : pull count rx = .error fault) : readable rx = false := by
  rw [pull] at waits
  split at waits
  · cases waits
  · induction rx with
    | nil => rfl
    | cons event rx ih =>
      cases event with
      | silence => rfl
      | error | eof => cases waits
      | data bs =>
        cases bs with
        | nil => exact ih waits
        | cons b bs => cases waits

section

variable {P : Option Fault → List Event → Prop} {count : Nat} {tout : UInt32}

theorem sysRead_makes (returns : ∀ ready, P none [.read count ready])
    (waits : P (some .blocked) [.read count false]) : Makes P (sysRead count) := by
  intro w
  refine ⟨[.read count (readable w.rx)], ?_⟩
  cases pulled : pull count w.rx with
  | error fault =>
    rw [sysRead_error pulled, readable_of_pull_error pulled]
    exact ⟨rfl, pull_fault pulled ▸ waits⟩
  | ok found =>
    obtain ⟨t, run⟩ := sysRead_ok pulled
    rw [run]
    exact ⟨sysRead_trace run, returns _⟩

theorem readTimeout_makes (returns : P none [.read count true, .select true])
    (timeout : P none [.select false]) (waits : tout = 0 → P (some .blocked) [.select false]) :
    Makes P (readTimeout count tout) := by
  intro w
  rw [readTimeout, bind_ok (get_ok w)]
  cases waited : waitReadable tout w.rx with
  | error fault =>
    exact ⟨[.select false], rfl, waitReadable_fault waited ▸ waits (waitReadable_error waited)⟩
  | ok found =>
    obtain ⟨readiness, rx⟩ := found
    cases readiness with
    | ready =>
      have ready := waitReadable_ready waited
      cases pulled : pull count rx with
      | error fault =>
        rw [readable_of_pull_error pulled] at ready
        cases ready
      | ok result =>
        let selected : World := { w with rx, trace := .select true :: w.trace }
        obtain ⟨t, run⟩ := @sysRead_ok count selected _ _ pulled
        have isTrace := sysRead_trace run
        rw [show readable selected.rx = true from ready] at isTrace
        show Adds P w.trace (sysRead count selected)
        rw [run]
        exact ⟨[.read count true, .select true], isTrace, returns⟩
    | timeout | failed => exact ⟨[.select false], rfl, timeout⟩

theorem writeTimeout_makes {bytes : List UInt8}
    (returns : ∀ taken, P none [.write taken, .select true]) (timeout : P none [.select false]) :
    Makes P (writeTimeout bytes tout) := by
  intro w
  rw [writeTimeout, bind_ok (get_ok w)]
  cases pushed : push tout bytes.length w.tx with
  | mk taken tx =>
    cases taken with
    | none => exact ⟨[.select false], rfl, timeout⟩
    | some n => exact ⟨[.write (bytes.take n), .select true], rfl, returns _⟩

end

/-! ## Statements -/

section

variable {P : Option Fault → List Event → Prop} (composes : Composes P)

include composes

theorem Makes.pure {α : Type} (a : α) : Makes P (pure a : Sys α) :=
  fun _ => ⟨[], rfl, composes.nothing⟩

/-- The calls made up to `v` come before those of the rest. -/
theorem Adds.trans {α β : Type} {a : α} {v : World} {before : List Event}
    {result : Except Stop (β × World)}
    (first : Adds P before (.ok (a, v))) (rest : Adds P v.trace result) :
    Adds P before result := by
  obtain ⟨old, isOld, here⟩ := first
  obtain ⟨new, isNew, later⟩ := rest
  refine ⟨new ++ old, ?_, composes.after here later⟩
  rw [isNew, List.append_assoc, ← isOld]
  rfl

theorem Adds.bind {α β : Type} {m : Sys α} {k : α → Sys β} {before : List Event} {w : World}
    (first : Adds P before (m w)) (rest : ∀ a v, m w = .ok (a, v) → Adds P v.trace (k a v)) :
    Adds P before ((m >>= k) w) := by
  cases run : m w with
  | error stop =>
    rw [run] at first
    rw [bind_error run]
    exact first
  | ok result =>
    rw [run] at first
    rw [bind_ok run]
    exact first.trans composes (rest _ _ run)

theorem Makes.bind {α β : Type} {m : Sys α} {k : α → Sys β} (first : Makes P m)
    (rest : ∀ a, Makes P (k a)) : Makes P (m >>= k) :=
  fun w => (first w).bind composes fun a v _ => rest a v

theorem Makes.stopWith {α : Type} {fault : Fault} (returns : fault ≠ .blocked) :
    Makes P (stopWith fault : Sys α) := fun _ => ⟨[], rfl, composes.fails returns⟩

theorem Makes.log {event : Event} (memory : event.onSocket = false) : Makes P (log event) :=
  fun _ => ⟨[event], rfl, composes.memory memory⟩

/-- A check of the buffer's bounds. -/
theorem Makes.checked {α : Type} {room : Prop} [Decidable room] {a : room → α} {fault : Fault}
    (returns : fault ≠ .blocked) :
    Makes P (if fits : room then Pure.pure (a fits) else OsmoSysmon.stopWith fault : Sys α) := by
  split
  · exact .pure composes _
  · exact .stopWith composes returns

/-- One turn of a loop, and what comes after it if it goes round. -/
theorem Adds.turn {α : Type} {stuck : Stop} {measure : World → Nat} {body : Sys (Option α)}
    (decreases : Decreases measure body) {before : List Event} {w : World}
    (first : Adds P before (body w))
    (rest : ∀ v, body w = .ok (none, v) → Adds P v.trace (whileTrue stuck measure body v)) :
    Adds P before (whileTrue stuck measure body w) := by
  cases run : body w with
  | error stop =>
    rw [run] at first
    rw [whileTrue_fail run]
    exact first
  | ok result =>
    obtain ⟨done, v⟩ := result
    rw [run] at first
    cases done with
    | some a =>
      rw [whileTrue_leave run]
      exact first
    | none =>
      rw [whileTrue_round decreases run]
      exact first.trans composes (rest v run)

theorem Makes.whileTrue {α : Type} {measure : World → Nat} {body : Sys (Option α)}
    (decreases : Decreases measure body) (turn : Makes P body) (stuck : Stop) :
    Makes P (whileTrue stuck measure body) := by
  intro w
  induction size : measure w using Nat.strongRecOn generalizing w with
  | ind n ih =>
    apply (turn w).turn composes decreases
    intro v round
    exact ih _ (size ▸ decreases w v round) v rfl

/-! ### Memory -/

theorem msgbAlloc_makes (size : UInt16) : Makes P (msgbAlloc size) :=
  fun w => ⟨[.msgbAlloc w.trace.length], rfl, composes.memory rfl⟩

theorem msgbFree_makes (m : Msgb) : Makes P (msgbFree m) := .log composes rfl

theorem msgbPut_makes (m : Msgb) (n : Nat) : Makes P (msgbPut m n) := by
  rw [msgbPut]
  exact .checked composes (by simp)

theorem msgbStore_makes (m : Msgb) (off : Nat) (bytes : List UInt8) :
    Makes P (msgbStore m off bytes) := by
  rw [msgbStore]
  exact .checked composes (by simp)

theorem msgbByte_makes (m : Msgb) (off : Nat) : Makes P (msgbByte m off) := by
  rw [msgbByte]
  split
  · exact .pure composes _
  · exact .stopWith composes (by simp)

theorem msgbL2Text_makes (m : Msgb) : Makes P (msgbL2Text m) := by
  rw [msgbL2Text]
  split
  · exact .pure composes _
  · exact .stopWith composes (by simp)

theorem msgbAllocHeadroom_makes (size headroom : UInt16) :
    Makes P (msgbAllocHeadroom size headroom) := by
  apply (msgbAlloc_makes composes size).bind composes
  intro m
  rw [msgbReserve]
  exact .checked composes (by simp)

theorem msgbPrintf_makes (m : Msgb) (text : CStr) : Makes P (msgbPrintf m text) := by
  rw [msgbPrintf]
  split
  · apply (msgbStore_makes composes _ _ _).bind composes
    intro m
    exact (msgbPut_makes composes _ _).bind composes fun _ => .pure composes _
  · exact .pure composes none

theorem msgbPush_makes (m : Msgb) (bytes : List UInt8) : Makes P (msgbPush m bytes) := by
  rw [msgbPush]
  split
  · exact msgbStore_makes composes _ _ _
  · exact .stopWith composes (by simp)

theorem strAlloc_makes (text : CStr) : Makes P (strAlloc text) :=
  fun w => ⟨[.strAlloc w.trace.length], rfl, composes.memory rfl⟩

theorem strFree_makes (s : HeapStr) : Makes P (strFree s) := .log composes rfl

/-! ### Replies -/

theorem scanReply_makes (verb text : CStr) : Makes P (scanReply verb text) := by
  rw [scanReply]
  split
  · exact .pure composes none
  · exact (strAlloc_makes composes _).bind composes fun _ => .pure composes _
  · apply (strAlloc_makes composes _).bind composes
    intro rxVar
    exact (strAlloc_makes composes _).bind composes fun _ => .pure composes _

theorem getReplied_makes (var : CStr) (sch : SimpleCtrlHandle) (text : CStr) :
    Makes P (getReplied var sch text) := by
  have judged (n : Nat) (rxVar rxVal : HeapStr) :
      Makes P (if idMatches sch n ∧ var = rxVar.text then do
          strFree rxVar
          pure (some rxVal)
        else do
          strFree rxVar
          strFree rxVal
          pure none : Sys (Option HeapStr)) := by
    split
    · exact (strFree_makes composes _).bind composes fun _ => .pure composes _
    · apply (strFree_makes composes _).bind composes
      intro freed
      exact (strFree_makes composes _).bind composes fun _ => .pure composes none
  rw [getReplied]
  apply (scanReply_makes composes _ _).bind composes
  rintro (_ | ⟨n, rxVar, _ | rxVal⟩)
  · exact .pure composes none
  · exact (strAlloc_makes composes []).bind composes fun rxVal => judged n rxVar rxVal
  · exact judged n rxVar rxVal

theorem setReplied_makes (var val : CStr) (sch : SimpleCtrlHandle) (text : CStr) :
    Makes P (setReplied var val sch text) := by
  rw [setReplied]
  apply (scanReply_makes composes _ _).bind composes
  intro scanned
  split
  · apply (strFree_makes composes _).bind composes
    intro freed
    exact (strFree_makes composes _).bind composes fun _ => .pure composes _
  · exact .pure composes false
  · exact .pure composes false

/-! ### Requests and messages -/

theorem sendRequest_makes {sch : SimpleCtrlHandle}
    (write : ∀ bytes, Makes P (writeTimeout bytes sch.toutMsec)) (request : UInt32 → CStr) :
    Makes P (sendRequest sch request) := by
  rw [sendRequest]
  apply (msgbAllocHeadroom_makes composes _ _).bind composes
  intro msg
  apply (msgbPrintf_makes composes _ _).bind composes
  intro printed
  cases printed with
  | none => exact (msgbFree_makes composes _).bind composes fun _ => .pure composes false
  | some msg =>
    simp only [simpleCtrlSend, ipaPrependHeaderExt, ipaPrependHeader]
    apply (msgbPush_makes composes _ _).bind composes
    intro ext
    apply (msgbPush_makes composes _ _).bind composes
    intro whole
    apply (write _).bind composes
    intro taken
    cases taken with
    | none => exact .pure composes false
    | some rc => exact (msgbFree_makes composes _).bind composes fun _ => .pure composes _

theorem ipaHeader_makes {sch : SimpleCtrlHandle}
    (read : Makes P (readTimeout ipaccessHeadSize sch.toutMsec)) : Makes P (ipaHeader sch) := by
  rw [ipaHeader]
  apply read.bind composes
  intro header
  split
  · apply (msgbAlloc_makes composes _).bind composes
    intro resp
    apply (msgbPut_makes composes _ _).bind composes
    intro put
    exact (msgbStore_makes composes _ _ _).bind composes fun _ => .pure composes _
  · exact .pure composes none
  · exact .pure composes none

/-! After their reads the functions make no call on the socket. -/

theorem ipaPayload_adds {resp : Msgb} {len : Nat} {before : List Event} {w : World}
    (read : Adds P before (sysRead len w)) : Adds P before (ipaPayload resp len w) := by
  rw [ipaPayload]
  apply read.bind composes
  intro payload v _
  cases payload with
  | none => exact (msgbFree_makes composes resp).bind composes (fun _ => .pure composes none) v
  | some payload =>
    apply (msgbStore_makes composes _ _ _).bind composes
    intro resp
    split
    · exact (msgbFree_makes composes resp).bind composes fun _ => .pure composes none
    · exact (msgbPut_makes composes _ _).bind composes fun _ => .pure composes _

theorem receiveTurn_adds {sch : SimpleCtrlHandle} {before : List Event} {w : World}
    (receive : Adds P before (simpleIpaReceive sch w)) : Adds P before (receiveTurn sch w) := by
  rw [receiveTurn]
  apply receive.bind composes
  intro resp v _
  cases resp with
  | none => exact Makes.pure composes _ v
  | some resp =>
    apply (msgbByte_makes composes _ _).bind composes
    intro ihProto
    split
    · apply (msgbByte_makes composes _ _).bind composes
      intro iheProto
      split
      · apply (msgbPut_makes composes _ _).bind composes
        intro put
        exact (msgbStore_makes composes _ _ _).bind composes fun _ => .pure composes _
      · exact (msgbFree_makes composes _).bind composes fun _ => .pure composes none
    · exact (msgbFree_makes composes _).bind composes fun _ => .pure composes none

theorem simpleCtrlExchange_adds {α : Type} {sch : SimpleCtrlHandle} {request : UInt32 → CStr}
    {failed : α} {replied : SimpleCtrlHandle → CStr → Sys α} {before : List Event} {w : World}
    (requested : Adds P before (simpleCtrlRequest sch request w))
    (replies : ∀ sch text, Makes P (replied sch text)) :
    Adds P before (simpleCtrlExchange sch request failed replied w) := by
  rw [simpleCtrlExchange]
  apply requested.bind composes
  rintro ⟨_ | resp, after⟩ v -
  · exact Makes.pure composes _ v
  · apply (msgbL2Text_makes composes resp).bind composes
    intro text
    apply (replies after text).bind composes
    intro result
    exact (msgbFree_makes composes resp).bind composes fun _ => .pure composes _

theorem Call.run_adds {sch : SimpleCtrlHandle} {c : Call} {before : List Event} {w : World}
    (requested : Adds P before (simpleCtrlRequest sch (c.request ·) w)) :
    Adds P before (c.run sch w) := by
  cases c with
  | get var =>
    have exchanged := @simpleCtrlExchange_adds P composes _ sch _ none _ before w requested
      (getReplied_makes composes var)
    exact exchanged.bind composes fun _ v _ => Makes.pure composes _ v
  | set var val =>
    have exchanged := @simpleCtrlExchange_adds P composes _ sch _ false _ before w requested
      (setReplied_makes composes var val)
    exact exchanged.bind composes fun _ v _ => Makes.pure composes _ v

section

variable {sch : SimpleCtrlHandle} (header : Makes P (readTimeout ipaccessHeadSize sch.toutMsec))
  (payload : ∀ len, Makes P (sysRead len))

include header payload

theorem simpleCtrlReceive_makes : Makes P (simpleCtrlReceive sch) := by
  have receive : Makes P (simpleIpaReceive sch) := by
    rw [simpleIpaReceive_eq]
    apply (ipaHeader_makes composes header).bind composes
    rintro (_ | ⟨resp, len⟩)
    · exact .pure composes none
    · exact fun w => ipaPayload_adds composes (payload len w)
  exact .whileTrue composes (receiveTurn_decreases sch)
    (fun w => receiveTurn_adds composes (receive w)) ⟨.blocked, []⟩

/-- The property holds of every call if it holds of `select`, `read` and `write`. -/
theorem Call.run_makes (write : ∀ bytes, Makes P (writeTimeout bytes sch.toutMsec)) (c : Call) :
    Makes P (c.run sch) := by
  intro w
  apply Call.run_adds composes
  rw [simpleCtrlRequest_eq]
  apply (sendRequest_makes composes write _ w).bind composes
  intro sent v _
  cases sent with
  | true =>
    have received : Makes P (simpleCtrlReceive sch.next) :=
      simpleCtrlReceive_makes composes header payload
    exact received.bind composes (fun _ => .pure composes _) v
  | false => exact (Makes.pure composes none).bind composes (fun _ => .pure composes _) v

end

end

end OsmoSysmon
