import OsmoSysmon.SimpleCtrl.Calls

/-! # When reads are made

`guarded` says of the calls of a run that every `read` among them comes behind a `select`
that has found the socket readable.  The header of a message is read so, its payload is
not: `call_guarded_iff`.
-/

namespace OsmoSysmon

open CText Loop

/-- Whether a `select` has reported the socket ready since the last transfer.  The `write`
    behind a `select` for writing tells it from one for reading. -/
def armed : List Event → Bool
  | [] => false
  | .select ready :: _ => ready
  | .read _ _ :: _ => false
  | .write _ :: _ => false
  | _ :: older => armed older

/-- Every `read` could return at once, and a `select` has said so since the transfer before
    it. -/
def guarded : List Event → Bool
  | [] => true
  | .read _ ready :: older => ready && armed older && guarded older
  | _ :: older => guarded older

theorem armed_append {new : List Event} (ready : armed new = true) (old : List Event) :
    armed (new ++ old) = true := by
  induction new with
  | nil => cases ready
  | cons e new ih =>
    cases e with
    | select seen => exact ready
    | read _ _ | write _ => cases ready
    | msgbAlloc _ | msgbFree _ | strAlloc _ | strFree _ => exact ih ready

theorem guarded_append {new old : List Event} (later : guarded new = true)
    (before : guarded old = true) : guarded (new ++ old) = true := by
  induction new with
  | nil => exact before
  | cons e new ih =>
    cases e with
    | read count ready =>
      simp only [guarded, Bool.and_eq_true] at later
      obtain ⟨⟨ready, isArmed⟩, later⟩ := later
      simp [guarded, ready, armed_append isArmed, ih later]
    | select _ | write _ | msgbAlloc _ | msgbFree _ | strAlloc _ | strFree _ => exact ih later

theorem guarded_of_append {new old : List Event} (all : guarded (new ++ old) = true) :
    guarded old = true := by
  induction new with
  | nil => exact all
  | cons e new ih =>
    cases e with
    | read count ready =>
      simp only [List.cons_append, guarded, Bool.and_eq_true] at all
      exact ih all.2
    | select _ | write _ | msgbAlloc _ | msgbFree _ | strAlloc _ | strFree _ => exact ih all

theorem guarded_composes : Composes fun _ new => guarded new = true where
  nothing := rfl
  fails _ := rfl
  memory {e} memory := by cases e <;> first | rfl | cases memory
  after before later := guarded_append later before

/-- A run that never returns waits in its last call: in a `read` with nothing to read, or,
    if there is no timeout, in a `select`. -/
def WaitsInside (tout : UInt32) (fault : Option Fault) (new : List Event) : Prop :=
  fault = some .blocked →
    (∃ count older, new = .read count false :: older) ∨
      tout = 0 ∧ ∃ older, new = .select false :: older

theorem waitsInside_composes (tout : UInt32) : Composes (WaitsInside tout) where
  nothing := nofun
  fails returns blocked := absurd (Option.some.inj blocked) returns
  memory _ := nofun
  after _ later blocked := by
    rcases later blocked with ⟨count, older, rfl⟩ | ⟨forever, older, rfl⟩
    · exact .inl ⟨count, _, rfl⟩
    · exact .inr ⟨forever, _, rfl⟩

theorem call_waitsInside (sch : SimpleCtrlHandle) (c : Call) :
    Makes (WaitsInside sch.toutMsec) (c.run sch) := by
  apply Call.run_makes (waitsInside_composes sch.toutMsec)
  · exact readTimeout_makes nofun nofun fun forever _ => .inr ⟨forever, [], rfl⟩
  · exact fun len => sysRead_makes (fun _ => nofun) fun _ => .inl ⟨len, [], rfl⟩
  · exact fun bytes => writeTimeout_makes (fun _ => nofun) nofun

/-- With a timeout, a call whose reads are guarded returns or breaks down. -/
theorem not_blocked_of_guarded {sch : SimpleCtrlHandle} (bounded : sch.toutMsec ≠ 0) {c : Call}
    {w : World} {new : List Event} (isTrace : traceOf (c.run sch w) = new ++ w.trace)
    (isGuarded : guarded new = true) : faultOf (c.run sch w) ≠ some .blocked := by
  intro blocked
  obtain ⟨new', isTrace', waits⟩ := call_waitsInside sch c w
  obtain rfl := List.append_cancel_right (isTrace.symm.trans isTrace')
  rcases waits blocked with ⟨count, older, rfl⟩ | ⟨forever, -⟩
  · simp [guarded] at isGuarded
  · exact bounded forever

/-! ## The header -/

theorem readTimeout_trace {count : Nat} {tout : UInt32} {w w' : World} {bytes : List UInt8}
    (run : readTimeout count tout w = .ok (some bytes, w')) :
    w'.trace = .read count true :: .select true :: w.trace := by
  rw [readTimeout, bind_ok (get_ok w)] at run
  cases waited : waitReadable tout w.rx with
  | error fault =>
    rw [waited] at run
    cases run
  | ok found =>
    obtain ⟨readiness, rx⟩ := found
    rw [waited] at run
    cases readiness with
    | ready =>
      have isTrace := @sysRead_trace count { w with rx, trace := .select true :: w.trace } _ _ run
      rw [isTrace, waitReadable_ready waited]
    | timeout | failed => cases run

/-- The buffer has no room for the header if its size, reduced to a `uint16_t`, is less
    than 3. -/
theorem ipaHeader_ok {sch : SimpleCtrlHandle} {w : World} {n : Nat}
    (length : headerLength sch.toutMsec w.rx = some n) (room : ¬ (maxPayload < n ∧ n < 65535)) :
    ∃ resp w', ipaHeader sch w = .ok (some (resp, n), w') := by
  rw [headerLength] at length
  split at length
  · next hi lo proto rx pulled =>
    cases length
    have small := ntohs_lt hi lo
    obtain ⟨t, read⟩ := readTimeout_ok pulled
    rw [ipaHeader]
    rw [bind_ok read]
    obtain ⟨m, t', alloc, tail, size⟩ : ∃ m t',
        msgbAlloc (ntohs hi lo + ipaccessHeadSize + 1).toUInt16 { w with rx, trace := t } =
          .ok (m, { w with rx, trace := t' }) ∧ m.tail = 0 ∧
        m.buf.length = (ntohs hi lo + ipaccessHeadSize + 1).toUInt16.toNat :=
      ⟨_, _, rfl, rfl, List.length_replicate⟩
    have fits : ipaccessHeadSize ≤ m.buf.length := by
      simp only [size, Nat.toUInt16_eq, UInt16.toNat_ofNat', ipaccessHeadSize, maxPayload] at room ⊢
      omega
    have put : m.tail + ipaccessHeadSize ≤ m.buf.length := by
      rw [tail, Nat.zero_add]
      exact fits
    have store := @msgbStore_ok ((m.put ipaccessHeadSize put).setL1h m.tail) m.tail [hi, lo, proto]
      put { w with rx, trace := t' }
    simp only
    rw [bind_ok alloc, bind_ok (msgbPut_ok put _)]
    exact ⟨_, _, (bind_ok store _).trans rfl⟩
  · cases length

theorem ipaHeader_inv {sch : SimpleCtrlHandle} {w w' : World} {resp : Msgb} {n : Nat}
    (run : ipaHeader sch w = .ok (some (resp, n), w')) :
    headerLength sch.toutMsec w.rx = some n ∧ ¬ (maxPayload < n ∧ n < 65535) ∧ ∃ id,
      w'.trace = .msgbAlloc id :: .read ipaccessHeadSize true :: .select true :: w.trace := by
  rw [ipaHeader] at run
  obtain ⟨header, w₁, read, run⟩ := bind_inv run
  split at run
  · next hi lo proto =>
    have length : headerLength sch.toutMsec w.rx = some (ntohs hi lo) := by
      simp only [headerLength, readTimeout_inv read]
    obtain ⟨m₁, w₂, alloc, run⟩ := bind_inv run
    obtain ⟨⟨l1h, m₂⟩, w₃, put, run⟩ := bind_inv run
    obtain ⟨m₃, w₄, store, run⟩ := bind_inv run
    cases run
    obtain ⟨same₃, -, room, -⟩ := msgbPut_inv put
    obtain ⟨same₄, -⟩ := msgbStore_inv store
    rw [msgbAlloc_ok] at alloc
    cases alloc
    refine ⟨length, ?_, w₁.trace.length, ?_⟩
    · have small := ntohs_lt hi lo
      simp only [Msgb.zeroed, List.length_replicate, Nat.toUInt16_eq, UInt16.toNat_ofNat',
        ipaccessHeadSize, maxPayload] at room ⊢
      omega
    · rw [same₄, same₃, ← readTimeout_trace read]
  · cases run
  · cases run

/-! ## Guarded calls -/

section

variable {sch : SimpleCtrlHandle} {c : Call} {w u : World}

theorem anything_composes : Composes fun _ _ => True where
  nothing := trivial
  fails _ := trivial
  memory _ := trivial
  after _ _ := trivial

/-- A request that is sent is followed by a turn of the receive loop. -/
theorem Call.run_adds_of_turn {P : Option Fault → List Event → Prop} (composes : Composes P)
    {before : List Event} (send : sendRequest sch (c.request ·) w = .ok (true, u))
    (first : Adds P before (receiveTurn sch.next u))
    (rest : ∀ v, receiveTurn sch.next u = .ok (none, v) →
      Adds P v.trace (simpleCtrlReceive sch.next v)) : Adds P before (c.run sch w) := by
  apply Call.run_adds composes
  rw [simpleCtrlRequest_eq, bind_ok send]
  have receive : Adds P before (simpleCtrlReceive sch.next u) :=
    first.turn composes (receiveTurn_decreases sch.next) rest
  exact receive.bind composes fun _ v _ => Makes.pure composes _ v

/-- Behind a header comes the `read` of its payload. -/
theorem run_of_header {resp : Msgb} {n : Nat} {v : World}
    (send : sendRequest sch (c.request ·) w = .ok (true, u))
    (header : ipaHeader sch.next u = .ok (some (resp, n), v)) :
    ∃ later, traceOf (c.run sch w) = later ++ .read n (readable v.rx) :: v.trace := by
  have composes := anything_composes
  have read : Adds (fun _ _ => True) (.read n (readable v.rx) :: v.trace) (sysRead n v) := by
    refine ⟨[], ?_, trivial⟩
    cases run : sysRead n v with
    | ok result => exact sysRead_trace run
    | error stop =>
      cases pulled : pull n v.rx with
      | ok found =>
        obtain ⟨t, returns⟩ := sysRead_ok pulled
        cases run.symm.trans returns
      | error fault =>
        cases run.symm.trans (sysRead_error pulled)
        rfl
  have receive : Adds (fun _ _ => True) (.read n (readable v.rx) :: v.trace)
      (simpleIpaReceive sch.next u) := by
    rw [simpleIpaReceive_eq, bind_ok header]
    exact ipaPayload_adds composes read
  have turn := receiveTurn_adds composes receive
  have others : Makes (fun _ _ => True) (simpleCtrlReceive sch.next) :=
    simpleCtrlReceive_makes composes (readTimeout_makes trivial trivial fun _ => trivial)
      fun _ => sysRead_makes (fun _ => trivial) trivial
  obtain ⟨later, isTrace, -⟩ := Call.run_adds_of_turn composes send turn fun v _ => others v
  exact ⟨later, isTrace⟩

/-- A turn without a header makes the calls of `read_timeout` and ends the loop. -/
theorem turn_without_header {v : World}
    (noHeader : ∀ resp n v', ipaHeader sch v ≠ .ok (some (resp, n), v')) :
    Adds (fun _ new => guarded new = true) v.trace (receiveTurn sch v) ∧
      ∀ v', receiveTurn sch v ≠ .ok (none, v') := by
  constructor
  · apply receiveTurn_adds guarded_composes
    rw [simpleIpaReceive_eq]
    have header : Makes (fun _ new => guarded new = true) (ipaHeader sch) :=
      ipaHeader_makes guarded_composes (readTimeout_makes rfl rfl fun _ => rfl)
    apply (header v).bind guarded_composes
    rintro (_ | ⟨resp, n⟩) v' run
    · exact Makes.pure guarded_composes none v'
    · exact absurd run (noHeader resp n v')
  · intro v' round
    rw [receiveTurn] at round
    obtain ⟨received, u, run, round⟩ := bind_inv round
    cases received with
    | none => cases round
    | some m =>
      rw [simpleIpaReceive_eq] at run
      obtain ⟨header, u', isHeader, run⟩ := bind_inv run
      cases header with
      | none => cases run
      | some found => exact noHeader found.1 found.2 u' isHeader

end

/-- **Every read of a call is guarded, and with a timeout the call does not wait for ever, if
    and only if the call makes no read for a payload:** its request is not sent, or no whole
    header arrives first, or the header announces a length for which there is no buffer. -/
theorem call_guarded_iff (sch : SimpleCtrlHandle) (c : Call) (w : World) :
    ((∃ new, traceOf (c.run sch w) = new ++ w.trace ∧ guarded new = true) ∧
      (sch.toutMsec ≠ 0 → faultOf (c.run sch w) ≠ some .blocked)) ↔
      ¬ (Sent sch (c.request sch.nextId) w ∧
        ∃ n, headerLength sch.toutMsec w.rx = some n ∧ ¬ (maxPayload < n ∧ n < 65535)) := by
  obtain ⟨sent, tx, t, send, isSent, -⟩ := sendRequest_ok sch (c.request ·) w
  have writes : Makes (fun _ new => guarded new = true) (sendRequest sch (c.request ·)) :=
    sendRequest_makes guarded_composes (fun _ => writeTimeout_makes (fun _ => rfl) rfl) _
  have before := writes w
  rw [send] at before
  constructor
  · rintro ⟨⟨new, isTrace, isGuarded⟩, -⟩ ⟨holds, n, length, room⟩
    rw [isSent.mpr holds] at send
    obtain ⟨resp, v, header⟩ := @ipaHeader_ok sch.next { w with tx, trace := t } n length room
    obtain ⟨-, -, id, isHeader⟩ := ipaHeader_inv header
    obtain ⟨later, isTrace'⟩ := run_of_header send header
    obtain ⟨request, isRequest, -⟩ := before
    -- the `read` of the header comes between it and the last `select`
    have calls : new = later ++ (.read n (readable v.rx) :: .msgbAlloc id ::
        .read ipaccessHeadSize true :: .select true :: request) := by
      rw [← List.append_left_inj w.trace, ← isTrace, isTrace', isHeader,
        show t = request ++ w.trace from isRequest]
      simp
    rw [calls] at isGuarded
    have bare := guarded_of_append isGuarded
    simp [guarded, armed] at bare
  · intro unsent
    have isGuarded : Adds (fun _ new => guarded new = true) w.trace (c.run sch w) := by
      cases sent with
      | false =>
        apply Call.run_adds guarded_composes
        rw [simpleCtrlRequest_eq, bind_ok send]
        exact before
      | true =>
        have noHeader (resp : Msgb) (n : Nat) (v' : World) :
            ipaHeader sch.next { w with tx, trace := t } ≠ .ok (some (resp, n), v') := by
          intro header
          obtain ⟨length, room, -⟩ := ipaHeader_inv header
          exact unsent ⟨isSent.mp rfl, n, length, room⟩
        obtain ⟨reads, ends⟩ := turn_without_header noHeader
        apply Call.run_adds_of_turn guarded_composes send
        · exact before.trans guarded_composes reads
        · exact fun v round => absurd round (ends v)
    obtain ⟨new, isTrace, holds⟩ := isGuarded
    exact ⟨⟨new, isTrace, holds⟩, fun bounded => not_blocked_of_guarded bounded isTrace holds⟩

set_option maxRecDepth 4000 in
/-- A peer that sends a header and then nothing holds up the call for ever, in a read that
    no `select` has cleared. -/
theorem call_stalls :
    freshHandle.toutMsec ≠ 0 ∧ ∃ older,
      (Call.get (ascii "rf")).run freshHandle ⟨[.data [0, 5, 0xee]], [], []⟩ =
        .error ⟨.blocked, .read 5 false :: older⟩ ∧
      guarded (.read 5 false :: older) = false :=
  ⟨by decide, _, rfl, rfl⟩

end OsmoSysmon
