import OsmoSysmon.Lib.Ledger
import OsmoSysmon.SimpleCtrl.Arrival
import OsmoSysmon.SimpleCtrl.Session

/-! # Who frees what

The message buffers and strings that a request allocates, and which of them are freed by
the time it returns.  `Trades` says what a run takes over and what it leaves; each function
has one lemma about it.
-/

namespace OsmoSysmon

open CText Loop Ledger

inductive Res where
  | msgb (id : Nat)
  | str (id : Nat)
deriving DecidableEq, Repr

def Event.move? : Event → Option (Move Res)
  | .msgbAlloc id => some (.acquire (.msgb id))
  | .msgbFree id => some (.release (.msgb id))
  | .strAlloc id => some (.acquire (.str id))
  | .strFree id => some (.release (.str id))
  | _ => none

/-- The allocations and frees among the calls. -/
def moves (trace : List Event) : List (Move Res) := trace.filterMap Event.move?

def Event.allocated? : Event → Option Nat
  | .msgbAlloc id => some id
  | .strAlloc id => some id
  | _ => none

/-- Every allocation has the number of calls made before it. -/
def NumberedFrom (base : Nat) : List Event → Prop
  | [] => True
  | e :: older =>
    (∀ id, e.allocated? = some id → id = base + older.length) ∧ NumberedFrom base older

/-- The run takes over what is in `pre` and leaves what is in `post`. -/
def Trades (w w' : World) (pre post : Multiset Res) : Prop :=
  ∃ new, w'.trace = new ++ w.trace ∧ NumberedFrom w.trace.length new ∧
    settle pre (moves new) = some post

theorem numberedFrom_append {base : Nat} {new old : List Event} :
    NumberedFrom base (new ++ old) ↔
      NumberedFrom (base + old.length) new ∧ NumberedFrom base old := by
  induction new with
  | nil => simp [NumberedFrom]
  | cons e new ih =>
    simp only [List.cons_append, NumberedFrom, ih, List.length_append, and_assoc]
    rw [Nat.add_comm new.length, Nat.add_assoc]

theorem moves_append (new old : List Event) : moves (new ++ old) = moves new ++ moves old :=
  List.filterMap_append

def Res.id : Res → Nat
  | .msgb id => id
  | .str id => id

theorem allocated?_of_move? {e : Event} {r : Res} (isMove : e.move? = some (.acquire r)) :
    e.allocated? = some r.id := by
  cases e <;> cases isMove <;> rfl

/-- Numbered allocations are all different. -/
theorem NumberedFrom.once {base : Nat} {trace : List Event} (numbered : NumberedFrom base trace)
    (r : Res) : (moves trace).count (.acquire r) ≤ 1 ∧
      (.acquire r ∈ moves trace → r.id < base + trace.length) := by
  induction trace with
  | nil => simp [moves]
  | cons e older ih =>
    obtain ⟨here, before⟩ := numbered
    obtain ⟨once, below⟩ := ih before
    rw [List.length_cons]
    by_cases isMove : e.move? = some (.acquire r)
    · have isNext := here r.id (allocated?_of_move? isMove)
      have unused : (moves older).count (.acquire r) = 0 := by
        rw [List.count_eq_zero]
        intro mem
        have := below mem
        omega
      have isMoves : moves (e :: older) = .acquire r :: moves older := by
        rw [moves, List.filterMap_cons_some isMove]
        rfl
      rw [isMoves, List.count_cons_self, unused]
      exact ⟨Nat.le_refl 1, fun _ => by omega⟩
    · have sameCount :
          (moves (e :: older)).count (.acquire r) = (moves older).count (.acquire r) := by
        cases move : e.move? with
        | none => rw [moves, List.filterMap_cons_none move]; rfl
        | some m =>
          have other : m ≠ .acquire r := fun same => isMove (move.trans (congrArg some same))
          rw [moves, List.filterMap_cons_some move, List.count_cons_of_ne other]
          rfl
      rw [sameCount]
      refine ⟨once, fun mem => ?_⟩
      have positive := List.count_pos_iff.mpr mem
      rw [sameCount] at positive
      have := below (List.count_pos_iff.mp positive)
      omega

namespace Trades

variable {w u v : World} {pre mid post : Multiset Res}

theorem same (world : v = w) : Trades w v pre pre :=
  ⟨[], congrArg World.trace world, trivial, rfl⟩

theorem trans (first : Trades w u pre mid) (second : Trades u v mid post) :
    Trades w v pre post := by
  obtain ⟨old, isOld, numbered, settled⟩ := first
  obtain ⟨new, isNew, numbered', settled'⟩ := second
  refine ⟨new ++ old, by rw [isNew, isOld, List.append_assoc], ?_, ?_⟩
  · rw [isOld, List.length_append, Nat.add_comm] at numbered'
    exact numberedFrom_append.mpr ⟨numbered', numbered⟩
  · rw [moves_append, settle_append, settled]
    exact settled'

theorem frame (trades : Trades w v pre post) (kept : Multiset Res) :
    Trades w v (pre + kept) (post + kept) := by
  obtain ⟨new, isNew, numbered, settled⟩ := trades
  exact ⟨new, isNew, numbered, settle_frame settled kept⟩

/-- What a run acquires by itself it acquires beside what there is. -/
theorem beside (trades : Trades w v 0 post) (kept : Multiset Res) :
    Trades w v kept (post + kept) := by
  simpa using trades.frame kept

/-- A call that is no allocation. -/
theorem call {e : Event} (trace : v.trace = e :: w.trace) (noAlloc : e.allocated? = none)
    (noMove : e.move? = none) : Trades w v pre pre :=
  ⟨[e], trace, by simp [NumberedFrom, noAlloc], by simp [moves, noMove, settle]⟩

end Trades

/-! ## System calls and allocators -/

section

variable {w w' : World}

theorem sysRead_trades {count : Nat} {result : Option (List UInt8)}
    (run : sysRead count w = .ok (result, w')) (pre : Multiset Res) : Trades w w' pre pre :=
  .call (sysRead_trace run) rfl rfl

theorem readTimeout_trades {count : Nat} {tout : UInt32} {result : Option (List UInt8)}
    (run : readTimeout count tout w = .ok (result, w')) (pre : Multiset Res) :
    Trades w w' pre pre := by
  rw [readTimeout, bind_ok (get_ok w)] at run
  cases waited : waitReadable tout w.rx with
  | error fault =>
    simp only [waited] at run
    cases run
  | ok found =>
    obtain ⟨readiness, rx⟩ := found
    simp only [waited] at run
    obtain ⟨_, w₁, isSet, run⟩ := bind_inv run
    obtain ⟨_, w₂, logged, run⟩ := bind_inv run
    cases isSet
    cases logged
    have selected :
        Trades w { w with rx, trace := .select (readiness == .ready) :: w.trace } pre pre :=
      .call rfl rfl rfl
    split at run
    · exact selected.trans (sysRead_trades run pre)
    · cases run
      exact selected

theorem writeTimeout_trades {bytes : List UInt8} {tout : UInt32} {result : Option Nat}
    (run : writeTimeout bytes tout w = .ok (result, w')) (pre : Multiset Res) :
    Trades w w' pre pre ∧ result = (push tout bytes.length w.tx).1 := by
  rw [writeTimeout, bind_ok (get_ok w)] at run
  cases pushed : push tout bytes.length w.tx with
  | mk taken tx =>
    simp only [pushed] at run
    cases taken with
    | none =>
      cases run
      exact ⟨.call rfl rfl rfl, rfl⟩
    | some n =>
      cases run
      have selected : Trades w { w with tx, trace := .select true :: w.trace } pre pre :=
        .call rfl rfl rfl
      exact ⟨selected.trans (.call rfl rfl rfl), rfl⟩

theorem msgbAlloc_trades {size : UInt16} {m : Msgb} (run : msgbAlloc size w = .ok (m, w')) :
    Trades w w' 0 {.msgb m.id} := by
  rw [msgbAlloc_ok] at run
  cases run
  exact ⟨[.msgbAlloc w.trace.length], rfl, by simp [NumberedFrom, Event.allocated?], rfl⟩

theorem msgbAllocHeadroom_trades {size headroom : UInt16} {m : Msgb}
    (run : msgbAllocHeadroom size headroom w = .ok (m, w')) : Trades w w' 0 {.msgb m.id} := by
  rw [msgbAllocHeadroom] at run
  obtain ⟨m₀, w₁, alloc, run⟩ := bind_inv run
  rw [msgbReserve] at run
  have held := msgbAlloc_trades alloc
  split at run
  · cases run
    exact held
  · cases run

theorem msgbFree_trades {m : Msgb} {u : Unit} (run : msgbFree m w = .ok (u, w')) :
    Trades w w' {.msgb m.id} 0 := by
  rw [msgbFree_ok] at run
  cases run
  refine ⟨[.msgbFree m.id], rfl, by simp [NumberedFrom, Event.allocated?], ?_⟩
  exact settle_release rfl

theorem strAlloc_trades {text : CStr} {s : HeapStr} (run : strAlloc text w = .ok (s, w')) :
    Trades w w' 0 {.str s.id} ∧ s.text = text := by
  cases run
  exact ⟨⟨[.strAlloc w.trace.length], rfl, by simp [NumberedFrom, Event.allocated?], rfl⟩, rfl⟩

theorem strFree_trades {s : HeapStr} {u : Unit} (run : strFree s w = .ok (u, w')) :
    Trades w w' {.str s.id} 0 := by
  cases run
  refine ⟨[.strFree s.id], rfl, by simp [NumberedFrom, Event.allocated?], ?_⟩
  exact settle_release rfl

/-! ## Receiving -/

/-- A message that is returned belongs to the caller. -/
def Res.ofMsgb : Option Msgb → Multiset Res
  | none => 0
  | some m => {.msgb m.id}

theorem simpleIpaReceive_trades {sch : SimpleCtrlHandle} {result : Option Msgb}
    (run : simpleIpaReceive sch w = .ok (result, w')) : Trades w w' 0 (Res.ofMsgb result) := by
  rw [simpleIpaReceive] at run
  obtain ⟨header, w₁, read, run⟩ := bind_inv run
  have selected := readTimeout_trades read 0
  rcases header with _ | (_ | ⟨hi, _ | ⟨lo, _ | ⟨proto, _ | ⟨_, _⟩⟩⟩⟩)
  case some.cons.cons.cons.nil =>
    obtain ⟨m₁, w₂, alloc, run⟩ := bind_inv run
    obtain ⟨⟨l1h, m₂⟩, w₃, put, run⟩ := bind_inv run
    obtain ⟨m₃, w₄, store, run⟩ := bind_inv run
    obtain ⟨payload, w₅, read', run⟩ := bind_inv run
    obtain ⟨same₃, id₂, -⟩ := msgbPut_inv put
    obtain ⟨same₄, id₃, -⟩ := msgbStore_inv store
    have id : m₃.id = m₁.id := id₃.trans id₂
    -- the buffer is there from now on
    have held := (selected.trans (msgbAlloc_trades alloc)).trans
      ((Trades.same (same₄.trans same₃)).trans (sysRead_trades read' _))
    rw [← id] at held
    cases payload with
    | none =>
      obtain ⟨_, w₆, free, run⟩ := bind_inv run
      cases run
      exact held.trans (msgbFree_trades free)
    | some payload =>
      obtain ⟨m₄, w₆, store', run⟩ := bind_inv run
      obtain ⟨same₆, id₄, -⟩ := msgbStore_inv store'
      have id₄ : m₄.id = m₃.id := id₄
      rw [← id₄] at held
      have held := held.trans (.same same₆)
      split at run
      · obtain ⟨_, w₇, free, run⟩ := bind_inv run
        cases run
        exact held.trans (msgbFree_trades free)
      · obtain ⟨⟨_, m₅⟩, w₇, put', run⟩ := bind_inv run
        obtain ⟨same₇, id₅, -⟩ := msgbPut_inv put'
        cases run
        rw [← id₅] at held
        exact held.trans (.same same₇)
  -- without a whole header nothing has been allocated
  all_goals
    cases run
    exact selected

theorem receiveTurn_trades {sch : SimpleCtrlHandle} {result : Option (Option Msgb)}
    (turn : receiveTurn sch w = .ok (result, w')) :
    Trades w w' 0 (Res.ofMsgb (result.getD none)) := by
  rw [receiveTurn] at turn
  obtain ⟨received, w₁, run, turn⟩ := bind_inv turn
  have held := simpleIpaReceive_trades run
  cases received with
  | none =>
    cases turn
    exact held
  | some m =>
    obtain ⟨ihProto, w₂, byte, turn⟩ := bind_inv turn
    have held := held.trans (.same (msgbByte_world byte))
    by_cases osmo : ihProto = ipacProtoOsmo
    · simp only [osmo, if_true] at turn
      obtain ⟨iheProto, w₃, byte', turn⟩ := bind_inv turn
      have held := held.trans (.same (msgbByte_world byte'))
      split at turn
      · obtain ⟨⟨tmp, m₁⟩, w₄, put, turn⟩ := bind_inv turn
        obtain ⟨m₂, w₅, store, turn⟩ := bind_inv turn
        obtain ⟨same₄, id₁, -⟩ := msgbPut_inv put
        obtain ⟨same₅, id₂, -⟩ := msgbStore_inv store
        cases turn
        have id : m₂.id = m.id := id₂.trans id₁
        show Trades w _ 0 {.msgb m₂.id}
        rw [id]
        exact held.trans (.same (same₅.trans same₄))
      · obtain ⟨_, w₄, free, turn⟩ := bind_inv turn
        cases turn
        exact held.trans (msgbFree_trades free)
    · simp only [osmo, if_false] at turn
      obtain ⟨_, w₃, free, turn⟩ := bind_inv turn
      cases turn
      exact held.trans (msgbFree_trades free)

/-- The messages that the loop skips are freed. -/
theorem turn_trades {sch : SimpleCtrlHandle} (reached : Turn (receiveTurn sch) w w') :
    Trades w w' 0 0 := by
  induction reached with
  | first => exact .same rfl
  | next _ round ih => exact ih.trans (receiveTurn_trades round)

theorem simpleCtrlReceive_trades {sch : SimpleCtrlHandle} {result : Option Msgb}
    (run : simpleCtrlReceive sch w = .ok (result, w')) : Trades w w' 0 (Res.ofMsgb result) := by
  obtain ⟨v, reached, ending⟩ := whileTrue_ends ⟨.blocked, []⟩ (receiveTurn_decreases sch) w
  rw [simpleCtrlReceive] at run
  rcases ending with ⟨a, v', turn, ended⟩ | ⟨fault, -, failed⟩
  · rw [ended] at run
    cases run
    exact (turn_trades reached).trans (receiveTurn_trades turn)
  · rw [failed] at run
    cases run

/-! ## Sending -/

/-- The request is written, and `write_timeout` fails. -/
def WriteFails (sch : SimpleCtrlHandle) (text : CStr) (w : World) : Prop :=
  text.length < 512 ∧ (push sch.toutMsec (text.length + 4) w.tx).1 = none

/-- A message is freed unless the write fails. -/
theorem simpleCtrlSend_trades {sch : SimpleCtrlHandle} {m : Msgb} {sent : Bool}
    (headroom : 4 ≤ m.data) (run : simpleCtrlSend sch m w = .ok (sent, w')) :
    Trades w w' {.msgb m.id}
      (if (push sch.toutMsec (m.bytes.length + 4) w.tx).1 = none then {.msgb m.id} else 0) := by
  obtain ⟨m', id, send⟩ := @simpleCtrlSend_eq sch m headroom w
  rw [send] at run
  obtain ⟨taken, w₁, write, run⟩ := bind_inv run
  obtain ⟨written, isTaken⟩ := writeTimeout_trades write {.msgb m.id}
  rw [← length_requestBytes, ← isTaken]
  cases taken with
  | none =>
    cases run
    exact written
  | some rc =>
    obtain ⟨_, w₂, free, run⟩ := bind_inv run
    have freed := msgbFree_trades free
    rw [id] at freed
    cases run
    exact written.trans freed

/-- What a run leaves beside what it is to leave is nothing, unless it is lossy. -/
def Leaves (w w' : World) (kept : Multiset Res) (lossy : Prop) : Prop :=
  ∃ lost, Trades w w' 0 (kept + lost) ∧ (lost = 0 ↔ ¬ lossy)

/-- The request is freed unless the write fails. -/
theorem sendRequest_leaves {sch : SimpleCtrlHandle} {request : UInt32 → CStr} {sent : Bool}
    (run : sendRequest sch request w = .ok (sent, w')) :
    Leaves w w' 0 (WriteFails sch (request sch.nextId) w) := by
  obtain ⟨m, t, alloc, empty, data, room⟩ :=
    msgbAllocHeadroom_ok (show (8 : UInt16) ≤ 512 + 8 by decide) w
  have held := msgbAllocHeadroom_trades alloc
  rw [sendRequest, bind_ok alloc] at run
  by_cases fits : (request sch.nextId).length < 512
  · have tailroom : (request sch.nextId).length < m.tailroom := by
      rw [room]
      exact fits
    obtain ⟨m', printed, id, data', bytes⟩ := msgbPrintf_ok tailroom { w with trace := t }
    have headroom : 4 ≤ m'.data := by
      rw [data', data]
      decide
    rw [empty, List.nil_append] at bytes
    rw [bind_ok printed] at run
    have traded := simpleCtrlSend_trades headroom run
    rw [← id] at held
    have traded := held.trans traded
    rw [bytes, SimpleCtrlHandle.next_toutMsec] at traded
    refine ⟨_, by rwa [Multiset.zero_add], ?_⟩
    by_cases fails : (push sch.toutMsec ((request sch.nextId).length + 4) w.tx).1 = none
    · simp [WriteFails, fits, fails]
    · simp [WriteFails, fails]
  · have full : m.tailroom ≤ (request sch.nextId).length := by
      rw [room]
      exact Nat.not_lt.mp fits
    rw [bind_ok (msgbPrintf_full full _)] at run
    obtain ⟨_, w₁, free, run⟩ := bind_inv run
    cases run
    exact ⟨0, held.trans (msgbFree_trades free), by simp [WriteFails, fits]⟩

/-- The reply belongs to the caller. -/
theorem simpleCtrlRequest_leaves {sch sch' : SimpleCtrlHandle} {request : UInt32 → CStr}
    {resp : Option Msgb} (run : simpleCtrlRequest sch request w = .ok ((resp, sch'), w')) :
    Leaves w w' (Res.ofMsgb resp) (WriteFails sch (request sch.nextId) w) := by
  obtain ⟨sent, tx, t, send, isSent, -⟩ := sendRequest_ok sch request w
  have left := sendRequest_leaves send
  rw [simpleCtrlRequest_eq, bind_ok send] at run
  obtain ⟨received, v, receive, run⟩ := bind_inv run
  cases run
  cases sent with
  | false =>
    cases receive
    exact left
  | true =>
    -- a request that has been sent has not been lost
    have works : ¬ WriteFails sch (request sch.nextId) w := by simp [WriteFails, (isSent.mp rfl).2]
    obtain ⟨lost, traded, isLost⟩ := left
    obtain rfl := isLost.mpr works
    refine ⟨0, ?_, isLost⟩
    rw [Multiset.add_zero] at traded ⊢
    exact traded.trans (simpleCtrlReceive_trades receive)

/-- A reply is the first CTRL message, after a request that has been sent; there is none
    only if the request has not been sent, or no CTRL message comes. -/
theorem simpleCtrlRequest_first {sch sch' : SimpleCtrlHandle} {request : UInt32 → CStr}
    {resp : Option Msgb} (run : simpleCtrlRequest sch request w = .ok ((resp, sch'), w')) :
    sch' = sch.next ∧ match resp with
      | none => ¬ (Sent sch (request sch.nextId) w ∧ ∃ text, FirstCtrl sch.toutMsec w.rx text)
      | some m => Sent sch (request sch.nextId) w ∧ ∀ u u' text,
        msgbL2Text m u = .ok (text, u') → FirstCtrl sch.toutMsec w.rx text := by
  by_cases sent : Sent sch (request sch.nextId) w
  · obtain ⟨t, requested⟩ := simpleCtrlRequest_of_sent sent
    rw [requested] at run
    obtain ⟨received, v, receive, run⟩ := bind_inv run
    cases run
    refine ⟨rfl, ?_⟩
    cases resp with
    | none =>
      rintro ⟨-, text, first⟩
      obtain ⟨m, rx, t', run, -⟩ := @simpleCtrlReceive_of_firstCtrl sch.next
        { w with tx := txAfter sch (request sch.nextId) w, trace := t } text first
      cases receive.symm.trans run
    | some m =>
      refine ⟨sent, fun u u' text read => ?_⟩
      have first := firstCtrl_of_simpleCtrlReceive receive read
      exact first
  · obtain ⟨tx, t, requested⟩ := simpleCtrlRequest_of_unsent sent
    cases requested.symm.trans run
    exact ⟨rfl, fun h => sent h.1⟩

/-! ## Replies -/

/-- The strings that a scan has allocated. -/
def Res.ofScan : Option (Nat × HeapStr × Option HeapStr) → Multiset Res
  | none => 0
  | some (_, rxVar, none) => {.str rxVar.id}
  | some (_, rxVar, some rxVal) => {.str rxVal.id, .str rxVar.id}

theorem scanReply_trades {verb text : CStr} {scanned : Option (Nat × HeapStr × Option HeapStr)}
    (run : scanReply verb text w = .ok (scanned, w')) :
    Trades w w' 0 (Res.ofScan scanned) ∧
      scanned.map (fun s => (s.1, s.2.1.text, s.2.2.map HeapStr.text)) = replyFields verb text := by
  obtain ⟨scanned', t, run', fields⟩ := scanReply_ok verb text w
  have isResult := run'.symm.trans run
  rw [Except.ok.injEq, Prod.mk.injEq] at isResult
  refine ⟨?_, isResult.1 ▸ fields⟩
  rw [scanReply] at run
  rcases isFields : replyFields verb text with _ | ⟨n, v, _ | x⟩ <;> simp only [isFields] at run
  · cases run
    exact .same rfl
  · obtain ⟨rxVar, w₁, alloc, run⟩ := bind_inv run
    cases run
    exact (strAlloc_trades alloc).1
  · obtain ⟨rxVar, w₁, alloc, run⟩ := bind_inv run
    obtain ⟨rxVal, w₂, alloc', run⟩ := bind_inv run
    cases run
    exact (strAlloc_trades alloc).1.trans ((strAlloc_trades alloc').1.beside _)

/-- The string that `simple_ctrl_get` returns belongs to the caller. -/
def Res.ofValue : Option HeapStr → Multiset Res
  | none => 0
  | some s => {.str s.id}

theorem getReplied_leaves {sch : SimpleCtrlHandle} {var text : CStr} {value : Option HeapStr}
    (run : getReplied var sch text w = .ok (value, w')) :
    Leaves w w' (Res.ofValue value) False := by
  refine ⟨0, ?_, by simp⟩
  rw [Multiset.add_zero]
  rw [getReplied] at run
  obtain ⟨scanned, w₁, scan, run⟩ := bind_inv run
  have held := (scanReply_trades scan).1
  rcases scanned with _ | ⟨n, rxVar, rxVal⟩
  · cases run
    exact held
  · have both : ∃ val w₂, Trades w w₂ 0 {.str val.id, .str rxVar.id} ∧
        (if idMatches sch n ∧ var = rxVar.text then do
          strFree rxVar
          pure (some val)
        else do
          strFree rxVar
          strFree val
          pure none : Sys (Option HeapStr)) w₂ = .ok (value, w') := by
      cases rxVal with
      | none =>
        obtain ⟨val, w₂, alloc, run⟩ := bind_inv run
        exact ⟨val, w₂, held.trans ((strAlloc_trades alloc).1.beside _), run⟩
      | some val => exact ⟨val, w₁, held, run⟩
    obtain ⟨val, w₂, both, run⟩ := both
    split at run
    · obtain ⟨_, w₃, free, run⟩ := bind_inv run
      cases run
      have freed := (strFree_trades free).frame {.str val.id}
      rw [Multiset.zero_add, Multiset.add_comm] at freed
      exact both.trans freed
    · obtain ⟨_, w₃, free, run⟩ := bind_inv run
      obtain ⟨_, w₄, free', run⟩ := bind_inv run
      cases run
      have freed := (strFree_trades free).frame {.str val.id}
      rw [Multiset.zero_add, Multiset.add_comm] at freed
      exact (both.trans freed).trans (strFree_trades free')

/-- A `SET_REPLY` with an id and a variable and nothing behind it. -/
def NameOnly (text : CStr) : Prop :=
  ∃ id var, replyFields (ascii "SET_REPLY") text = some (id, var, none)

theorem setReplied_leaves {sch : SimpleCtrlHandle} {var val text : CStr} {ok : Bool}
    (run : setReplied var val sch text w = .ok (ok, w')) : Leaves w w' 0 (NameOnly text) := by
  rw [setReplied] at run
  obtain ⟨scanned, w₁, scan, run⟩ := bind_inv run
  obtain ⟨held, fields⟩ := scanReply_trades scan
  rw [Leaves]
  simp only [Multiset.zero_add, NameOnly, ← fields]
  rcases scanned with _ | ⟨n, rxVar, _ | rxVal⟩
  · cases run
    exact ⟨0, held, by simp⟩
  · cases run
    exact ⟨_, held, by simp [Res.ofScan]⟩
  · obtain ⟨_, w₂, free, run⟩ := bind_inv run
    obtain ⟨_, w₃, free', run⟩ := bind_inv run
    cases run
    have freed := (strFree_trades free).frame {.str rxVar.id}
    rw [Multiset.zero_add] at freed
    exact ⟨0, (held.trans freed).trans (strFree_trades free'), by simp⟩

/-! ## Calls -/

/-- A call loses its request when the write fails, and what is lost of the reply. -/
theorem simpleCtrlExchange_leaves {α : Type} {sch sch' : SimpleCtrlHandle} {request : UInt32 → CStr}
    {failed a : α} {replied : SimpleCtrlHandle → CStr → Sys α} {kept : α → Multiset Res}
    {lossy : CStr → Prop} (nothing : kept failed = 0)
    (replies : ∀ text v v' b, replied sch.next text v = .ok (b, v') →
      Leaves v v' (kept b) (lossy text))
    (run : simpleCtrlExchange sch request failed replied w = .ok ((a, sch'), w')) :
    Leaves w w' (kept a) (WriteFails sch (request sch.nextId) w ∨
      Sent sch (request sch.nextId) w ∧ ∃ text, FirstCtrl sch.toutMsec w.rx text ∧ lossy text) := by
  rw [simpleCtrlExchange] at run
  obtain ⟨⟨resp, after⟩, v, requested, run⟩ := bind_inv run
  obtain ⟨lost, traded, isLost⟩ := simpleCtrlRequest_leaves requested
  obtain ⟨rfl, isFirst⟩ := simpleCtrlRequest_first requested
  cases resp with
  | none =>
    cases run
    rw [nothing]
    refine ⟨lost, traded, isLost.trans (not_congr ?_)⟩
    constructor
    · exact .inl
    · rintro (fails | ⟨sent, text, first, -⟩)
      · exact fails
      · exact absurd ⟨sent, text, first⟩ isFirst
  | some m =>
    obtain ⟨sent, first⟩ := isFirst
    have works : ¬ WriteFails sch (request sch.nextId) w := by simp [WriteFails, sent.2]
    obtain rfl : lost = 0 := isLost.mpr works
    obtain ⟨text, v₁, read, run⟩ := bind_inv run
    obtain ⟨b, v₂, judged, run⟩ := bind_inv run
    obtain ⟨_, v₃, free, run⟩ := bind_inv run
    cases run
    obtain ⟨lost, left, isLost⟩ := replies text v₁ v₂ a judged
    refine ⟨lost, ?_, isLost.trans (not_congr ?_)⟩
    -- what the reply has left is there beside the message, which is freed
    · have both := (traded.trans (.same (msgbL2Text_world read))).trans (left.beside _)
      have freed := (msgbFree_trades free).frame (kept a + lost)
      rw [Multiset.zero_add, Multiset.add_comm] at freed
      exact both.trans freed
    · have isText := first _ _ _ read
      constructor
      · exact fun lossy => .inr ⟨sent, text, isText, lossy⟩
      · rintro (fails | ⟨-, text', isText', lossy⟩)
        · exact absurd fails works
        · rwa [isText.unique isText']

end

/-- The string that a call returns belongs to the caller. -/
def Outcome.kept : Outcome → Multiset Res
  | .value s => Res.ofValue s
  | .status _ => 0

/-- The write fails, or the first CTRL message that comes after the request of a
    `simple_ctrl_set` is a `SET_REPLY` without a value. -/
def Call.Lossy (sch : SimpleCtrlHandle) (w : World) (c : Call) : Prop :=
  WriteFails sch (c.request sch.nextId) w ∨
    Sent sch (c.request sch.nextId) w ∧ ∃ text, FirstCtrl sch.toutMsec w.rx text ∧
      match c with
      | .get _ => False
      | .set _ _ => NameOnly text

theorem call_leaves {sch sch' : SimpleCtrlHandle} {w w' : World} {c : Call} {o : Outcome}
    (run : c.run sch w = .ok ((o, sch'), w')) : Leaves w w' o.kept (c.Lossy sch w) := by
  cases c with
  | get var =>
    obtain ⟨⟨value, after⟩, v, get, run⟩ := bind_inv run
    cases run
    exact @simpleCtrlExchange_leaves w w' _ _ _ _ _ _ _ Res.ofValue _ rfl
      (fun text v v' b => getReplied_leaves) get
  | set var val =>
    obtain ⟨⟨ok, after⟩, v, set, run⟩ := bind_inv run
    cases run
    exact @simpleCtrlExchange_leaves w w' _ _ _ _ _ _ _ (fun _ => 0) _ rfl
      (fun text v v' b => setReplied_leaves) set

/-- **A call that returns has freed once each message buffer and each string that it has
    allocated, except for the string that `simple_ctrl_get` returns, if and only if it is
    not lossy.** -/
theorem call_accounted_iff {sch sch' : SimpleCtrlHandle} {w w' : World} {c : Call} {o : Outcome}
    (run : c.run sch w = .ok ((o, sch'), w')) :
    (∃ calls, w'.trace = calls ++ w.trace ∧ Ledger.Accounted (moves calls) o.kept) ↔
      ¬ c.Lossy sch w := by
  obtain ⟨lost, ⟨new, isNew, numbered, settled⟩, isLost⟩ := call_leaves run
  have accounted := accounted_iff settled (fun r => (numbered.once r).1)
    (Multiset.le_add_right o.kept lost)
  rw [← isLost]
  constructor
  · rintro ⟨calls, isCalls, balanced⟩
    obtain rfl : calls = new := List.append_cancel_right (isCalls.symm.trans isNew)
    exact Multiset.add_right_inj.mp ((accounted.mp balanced).trans (Multiset.add_zero _).symm)
  · rintro rfl
    exact ⟨new, isNew, accounted.mpr (Multiset.add_zero _)⟩

set_option maxRecDepth 4000 in
/-- A request that is read and not answered. -/
theorem call_accounted_hangup :
    ∃ o sch' w', (Call.get (ascii "rf")).run freshHandle ⟨[.eof], [], []⟩ = .ok ((o, sch'), w') ∧
      ∃ calls, w'.trace = calls ++ [] ∧ Ledger.Accounted (moves calls) o.kept := by
  have run : (Call.get (ascii "rf")).run freshHandle ⟨[.eof], [], []⟩ =
      .ok ((.value none, freshHandle.next), ⟨[.eof], [],
        [.read 3 true, .select true, .msgbFree 0,
          .write (requestBytes (getRequest 0 (ascii "rf"))), .select true, .msgbAlloc 0]⟩) := by
    rfl
  refine ⟨_, _, _, run, (call_accounted_iff run).mpr ?_⟩
  rintro (fails | ⟨_, _, _, impossible⟩)
  · cases fails.2
  · exact impossible

set_option maxRecDepth 4000 in
/-- A write that fails loses the request, and a `SET_REPLY` without a value loses the
    variable. -/
theorem call_loses :
    (∃ sch' w', (Call.get (ascii "rf")).run freshHandle ⟨[], [.error], []⟩ =
        .ok ((.value none, sch'), w') ∧ ¬ Ledger.Accounted (moves w'.trace) 0) ∧
    ∃ sch' w', (Call.set (ascii "rf") (ascii "1")).run freshHandle
        ⟨[.data (requestBytes (ascii "SET_REPLY 0 rf"))], [], []⟩ =
          .ok ((.status false, sch'), w') ∧ ¬ Ledger.Accounted (moves w'.trace) 0 := by
  constructor
  · refine ⟨_, _, rfl, fun accounted => ?_⟩
    have freed := accounted (.msgb 0) (by decide)
    revert freed
    decide
  · refine ⟨_, _, rfl, fun accounted => ?_⟩
    have freed := accounted (.str 8) (by decide)
    revert freed
    decide

end OsmoSysmon
