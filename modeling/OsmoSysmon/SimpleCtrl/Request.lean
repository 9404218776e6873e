import OsmoSysmon.SimpleCtrl.Receive

/-! # Requests on the wire

A request is one IPA frame with the CTRL extension byte and the request text.
`simpleCtrlRequest_of_sent` and `simpleCtrlRequest_of_unsent` say what is left of
`simple_ctrl_get` and `simple_ctrl_set` once the request has been sent, or has not.
-/

namespace OsmoSysmon

open CText

/-- The bytes that `simple_ctrl_send` hands to `write` for a text. -/
def requestBytes (text : CStr) : List UInt8 :=
  htons (text.length + 1) ++ [ipacProtoOsmo] ++ ([ipacProtoExtCtrl] ++ text)

@[simp] theorem length_requestBytes (text : CStr) :
    (requestBytes text).length = text.length + 4 := by
  simp [requestBytes, htons]

/-- The handle after a request. -/
def SimpleCtrlHandle.next (sch : SimpleCtrlHandle) : SimpleCtrlHandle :=
  { sch with nextId := sch.nextId + 1 }

@[simp] theorem SimpleCtrlHandle.next_toutMsec (sch : SimpleCtrlHandle) :
    sch.next.toutMsec = sch.toutMsec := rfl

/-- What is left of the sending side after a request. -/
def txAfter (sch : SimpleCtrlHandle) (text : CStr) (w : World) : List TxEvent :=
  (push sch.toutMsec (text.length + 4) w.tx).2

/-- The request fits its buffer, and `write` takes all of it. -/
def Sent (sch : SimpleCtrlHandle) (text : CStr) (w : World) : Prop :=
  text.length < 512 ∧ (push sch.toutMsec (text.length + 4) w.tx).1 = some (text.length + 4)

theorem push_le {tout : UInt32} {count n : Nat} {tx : List TxEvent}
    (taken : (push tout count tx).1 = some n) : n ≤ count := by
  induction tx with
  | nil => cases taken; exact Nat.le_refl _
  | cons event tx ih =>
    cases event with
    | accepts m =>
      cases taken
      exact Nat.min_le_right _ _
    | timeout =>
      rw [push] at taken
      split at taken
      · exact ih taken
      · cases taken
    | error => cases taken

theorem writeTimeout_ok (bytes : List UInt8) (tout : UInt32) (w : World) :
    ∃ t, writeTimeout bytes tout w =
      .ok ((push tout bytes.length w.tx).1,
        { w with tx := (push tout bytes.length w.tx).2, trace := t }) := by
  rw [writeTimeout, Loop.bind_ok (Loop.get_ok w)]
  cases pushed : push tout bytes.length w.tx with
  | mk taken tx =>
    cases taken with
    | none => exact ⟨_, rfl⟩
    | some n => exact ⟨_, rfl⟩

/-- A message with room for the two headers is handed to `write` as one frame. -/
theorem simpleCtrlSend_eq {sch : SimpleCtrlHandle} {m : Msgb} (headroom : 4 ≤ m.data) (w : World) :
    ∃ m', m'.id = m.id ∧ simpleCtrlSend sch m w = (do
      match ← writeTimeout (requestBytes m.bytes) sch.toutMsec with
      | none => return false
      | some rc =>
        msgbFree m'
        return !decide (rc < (requestBytes m.bytes).length)) w := by
  have extRoom : [ipacProtoExtCtrl].length ≤ m.data := by
    rw [List.length_singleton]
    omega
  obtain ⟨m₁, pushExt, id₁, data₁, bytes₁⟩ := msgbPush_ok extRoom w
  have len₁ : m₁.len = m.bytes.length + 1 := by
    rw [← m₁.length_bytes, bytes₁, List.length_append, List.length_singleton, Nat.add_comm]
  have headerRoom : (htons m₁.len ++ [ipacProtoOsmo]).length ≤ m₁.data := by
    rw [data₁, List.length_singleton]
    show 3 ≤ m.data - 1
    omega
  obtain ⟨m₂, pushHeader, id₂, -, bytes₂⟩ := msgbPush_ok headerRoom w
  have wire : m₂.bytes = requestBytes m.bytes := by
    rw [bytes₂, bytes₁, len₁, requestBytes]
  refine ⟨m₂, id₂.trans id₁, ?_⟩
  rw [simpleCtrlSend, ipaPrependHeaderExt, Loop.bind_ok pushExt, ipaPrependHeader,
    Loop.bind_ok pushHeader, wire]
  refine congrFun (congrArg (writeTimeout _ _ >>= ·) (funext fun sent => ?_)) w
  cases sent with
  | none => rfl
  | some rc =>
    show (msgbFree m₂ >>= fun _ => pure !decide (rc < m₂.len)) = _
    rw [← m₂.length_bytes, wire]

/-- The request counts as sent if `write` takes all of it. -/
theorem simpleCtrlSend_ok {sch : SimpleCtrlHandle} {m : Msgb} (headroom : 4 ≤ m.data) (w : World) :
    ∃ t, simpleCtrlSend sch m w =
      .ok (decide ((push sch.toutMsec (m.bytes.length + 4) w.tx).1 = some (m.bytes.length + 4)),
        { w with tx := txAfter sch m.bytes w, trace := t }) := by
  obtain ⟨m', -, send⟩ := @simpleCtrlSend_eq sch m headroom w
  obtain ⟨t, written⟩ := writeTimeout_ok (requestBytes m.bytes) sch.toutMsec w
  rw [length_requestBytes, ← txAfter] at written
  rw [send, Loop.bind_ok written, length_requestBytes]
  cases taken : (push sch.toutMsec (m.bytes.length + 4) w.tx).1 with
  | none => exact ⟨t, rfl⟩
  | some rc =>
    refine ⟨.msgbFree m'.id :: t, ?_⟩
    simp only
    rw [Loop.bind_ok (msgbFree_ok m' _)]
    have bound := push_le taken
    -- never more than the message is taken, so not less is all of it
    have whole : (!decide (rc < m.bytes.length + 4)) =
        decide (some rc = some (m.bytes.length + 4)) := by
      rw [← decide_not, decide_eq_decide, Option.some.injEq]
      omega
    rw [whole]
    rfl

/-- A request up to the `read`s: whether it has been sent. -/
def sendRequest (sch : SimpleCtrlHandle) (request : UInt32 → CStr) : Sys Bool := do
  let msg ← msgbAllocHeadroom (512 + 8) 8
  match ← msgbPrintf msg (request sch.nextId) with
  | none =>
    msgbFree msg
    return false
  | some msg => simpleCtrlSend sch.next msg

theorem simpleCtrlRequest_eq (sch : SimpleCtrlHandle) (request : UInt32 → CStr) :
    simpleCtrlRequest sch request = do
      let sent ← sendRequest sch request
      let resp ← (if sent then simpleCtrlReceive sch.next else pure none : Sys (Option Msgb))
      return (resp, sch.next) := by
  rw [simpleCtrlRequest, sendRequest, bind_assoc]
  refine bind_congr fun msg => ?_
  rw [bind_assoc]
  refine bind_congr fun printed => ?_
  cases printed with
  | none =>
    simp only [bind_assoc, pure_bind]
    rfl
  | some msg =>
    simp only [simpleCtrlXceive, bind_assoc]
    refine bind_congr fun sent => ?_
    cases sent <;> rfl

/-- The text is in a buffer with room for the headers, or was too long for it; the id is
    counted up all the same. -/
theorem sendRequest_ok (sch : SimpleCtrlHandle) (request : UInt32 → CStr) (w : World) :
    ∃ sent tx t, sendRequest sch request w = .ok (sent, { w with tx, trace := t }) ∧
      (sent = true ↔ Sent sch (request sch.nextId) w) ∧
      (sent = true → tx = txAfter sch (request sch.nextId) w) := by
  obtain ⟨m, t, alloc, empty, data, room⟩ :=
    msgbAllocHeadroom_ok (show (8 : UInt16) ≤ 512 + 8 by decide) w
  rw [sendRequest, Loop.bind_ok alloc]
  by_cases fits : (request sch.nextId).length < 512
  · have tailroom : (request sch.nextId).length < m.tailroom := by
      rw [room]
      exact fits
    obtain ⟨m', printed, -, data', bytes⟩ := msgbPrintf_ok tailroom { w with trace := t }
    have headroom : 4 ≤ m'.data := by
      rw [data', data]
      decide
    obtain ⟨t', send⟩ := @simpleCtrlSend_ok sch.next m' headroom { w with trace := t }
    rw [empty, List.nil_append] at bytes
    rw [bytes, SimpleCtrlHandle.next_toutMsec] at send
    rw [Loop.bind_ok printed]
    exact ⟨_, _, t', send, by simp [Sent, fits], fun _ => rfl⟩
  · have full : m.tailroom ≤ (request sch.nextId).length := by
      rw [room]
      exact Nat.not_lt.mp fits
    rw [Loop.bind_ok (msgbPrintf_full full _)]
    exact ⟨false, w.tx, .msgbFree m.id :: t, rfl, by simp [Sent, fits], by simp⟩

/-- Once the request is out, a message is received. -/
theorem simpleCtrlRequest_of_sent {sch : SimpleCtrlHandle} {request : UInt32 → CStr} {w : World}
    (sent : Sent sch (request sch.nextId) w) :
    ∃ t, simpleCtrlRequest sch request w = (do
      let resp ← simpleCtrlReceive sch.next
      return (resp, sch.next))
        { w with tx := txAfter sch (request sch.nextId) w, trace := t } := by
  obtain ⟨isSent, tx, t, send, sent_iff, after⟩ := sendRequest_ok sch request w
  obtain rfl := sent_iff.mpr sent
  obtain rfl := after rfl
  refine ⟨t, ?_⟩
  rw [simpleCtrlRequest_eq, Loop.bind_ok send]
  rfl

theorem simpleCtrlRequest_of_unsent {sch : SimpleCtrlHandle} {request : UInt32 → CStr} {w : World}
    (unsent : ¬ Sent sch (request sch.nextId) w) :
    ∃ tx t, simpleCtrlRequest sch request w = .ok ((none, sch.next), { w with tx, trace := t }) := by
  obtain ⟨isSent, tx, t, send, sent_iff, -⟩ := sendRequest_ok sch request w
  cases isSent with
  | true => exact absurd (sent_iff.mp rfl) unsent
  | false =>
    refine ⟨tx, t, ?_⟩
    rw [simpleCtrlRequest_eq, Loop.bind_ok send]
    rfl

end OsmoSysmon
