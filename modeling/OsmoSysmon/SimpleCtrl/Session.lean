import Mathlib.Logic.Relation
import OsmoSysmon.SimpleCtrl.Reply

/-! # Sessions

Any number of calls of `simple_ctrl_get` and `simple_ctrl_set` on one handle,
against a peer whose answers may come late, out of order and among other messages.
`receiveTurn_of_speaks` is the step, one turn of the receive loop, and
`session_judged` the run over all calls.
-/

namespace OsmoSysmon

open CText Scanf

/-! ## Connections without short reads -/

/-- What a turn of the receive loop takes off the script when no read is short. -/
inductive ReadStep (tout : UInt32) (rx rx' : List RxEvent) : Prop
  | nothing {result : Option (List UInt8)} :
      pullTimeout ipaccessHeadSize tout rx = .ok (result, rx') → result.getD [] = [] →
      ReadStep tout rx rx'
  | frame {f : IpaFrame} : readFrame tout rx = .ok (some f, rx') → ReadStep tout rx rx'

abbrev ReadsTo (tout : UInt32) : List RxEvent → List RxEvent → Prop :=
  Relation.ReflTransGen (ReadStep tout)

/-- However far the script has been read, the next read gets nothing or a whole
    message that the peer sends. -/
def Speaks (tout : UInt32) (sends : IpaFrame → Prop) (rx : List RxEvent) : Prop :=
  ∀ mid, ReadsTo tout rx mid → ∀ result rx',
    pullTimeout ipaccessHeadSize tout mid = .ok (result, rx') →
      result.getD [] = [] ∨ ∃ f rx'', readFrame tout mid = .ok (some f, rx'') ∧ sends f

theorem Speaks.later {tout : UInt32} {sends : IpaFrame → Prop} {rx rx' : List RxEvent}
    (speaks : Speaks tout sends rx) (reads : ReadsTo tout rx rx') : Speaks tout sends rx' :=
  fun mid more => speaks mid (reads.trans more)

/-- Messages that arrive in a segment each, with any waiting times between them. -/
inductive Messages (sends : IpaFrame → Prop) : List RxEvent → Prop
  | nil : Messages sends []
  | silence {rx : List RxEvent} : Messages sends rx → Messages sends (.silence :: rx)
  | data {f : IpaFrame} {rx : List RxEvent} :
      sends f → Messages sends rx → Messages sends (.data f.encode :: rx)

theorem readFrame_data (tout : UInt32) (f : IpaFrame) (rx : List RxEvent) :
    readFrame tout (.data f.encode :: rx) = .ok (some f, rx) := by
  cases Delivers.data tout f rx with
  | cons header payload delivered =>
    cases delivered
    exact readFrame_of_reads header payload

theorem pullTimeout_nil (count : Nat) (tout : UInt32) :
    pullTimeout count tout [] = if tout = 0 then .error .blocked else .ok (none, []) := by
  by_cases forever : tout = 0 <;> simp [pullTimeout, waitReadable, forever]

theorem pullTimeout_silence (count : Nat) (tout : UInt32) (rx : List RxEvent) :
    pullTimeout count tout (.silence :: rx) =
      if tout = 0 then pullTimeout count tout rx else .ok (none, rx) := by
  by_cases forever : tout = 0 <;> simp [pullTimeout, waitReadable, forever]

/-- The next read finds nothing, or the next message. -/
theorem Messages.pull {sends : IpaFrame → Prop} {tout : UInt32} {rx rx' : List RxEvent}
    {result : Option (List UInt8)} (messages : Messages sends rx)
    (pulled : pullTimeout ipaccessHeadSize tout rx = .ok (result, rx')) :
    (result.getD [] = [] ∧ Messages sends rx') ∨
      ∃ f rx'', sends f ∧ Messages sends rx'' ∧ readFrame tout rx = .ok (some f, rx'') := by
  induction messages with
  | nil =>
    rw [pullTimeout_nil] at pulled
    split at pulled
    · cases pulled
    · cases pulled
      exact .inl ⟨rfl, .nil⟩
  | @silence rx rest ih =>
    by_cases forever : tout = 0
    -- waiting without limit sees what comes after the silence
    · have same (count : Nat) : pullTimeout count tout (.silence :: rx) = pullTimeout count tout rx := by
        rw [pullTimeout_silence, if_pos forever]
      rw [same] at pulled
      rw [readFrame, same, ← readFrame]
      exact ih pulled
    · rw [pullTimeout_silence, if_neg forever] at pulled
      cases pulled
      exact .inl ⟨rfl, rest⟩
  | @data f rx said rest => exact .inr ⟨f, rx, said, rest, readFrame_data tout f rx⟩

theorem Messages.step {sends : IpaFrame → Prop} {tout : UInt32} {rx rx' : List RxEvent}
    (messages : Messages sends rx) (step : ReadStep tout rx rx') : Messages sends rx' := by
  cases step with
  | nothing pulled nothing =>
    rcases messages.pull pulled with ⟨-, rest⟩ | ⟨f, rx'', -, -, frame⟩
    · exact rest
    · rw [(readFrame_of_nothing pulled nothing).2] at frame
      cases frame
  | frame frame =>
    obtain ⟨mid, pulled, -⟩ := readFrame_some frame
    rcases messages.pull pulled with ⟨nothing, -⟩ | ⟨f, rx'', -, rest, frame'⟩
    · cases nothing
    · rw [frame] at frame'
      cases frame'
      exact rest

theorem Messages.reads {sends : IpaFrame → Prop} {tout : UInt32} {rx mid : List RxEvent}
    (messages : Messages sends rx) (reads : ReadsTo tout rx mid) : Messages sends mid := by
  induction reads with
  | refl => exact messages
  | tail _ step ih => exact ih.step step

theorem Messages.speaks {sends : IpaFrame → Prop} {rx : List RxEvent} (messages : Messages sends rx)
    (tout : UInt32) : Speaks tout sends rx := by
  intro mid reads result rx' pulled
  rcases (messages.reads reads).pull pulled with ⟨nothing, -⟩ | ⟨f, rx'', said, -, frame⟩
  · exact .inl nothing
  · exact .inr ⟨f, rx'', frame, said⟩

section

variable {sch : SimpleCtrlHandle} {sends : IpaFrame → Prop}
  (bounded : ∀ f, sends f → f.payload.length ≤ maxPayload)

include bounded

theorem receiveTurn_of_speaks {w w' : World} {result : Option (Option Msgb)}
    (speaks : Speaks sch.toutMsec sends w.rx) (turn : receiveTurn sch w = .ok (result, w')) :
    ReadStep sch.toutMsec w.rx w'.rx ∧
      ∀ m, result = some (some m) → ∃ f, sends f ∧ f.accepted = true ∧ m.HoldsCtrl f := by
  cases pulled : pullTimeout ipaccessHeadSize sch.toutMsec w.rx with
  | error fault =>
    have failed : readFrame sch.toutMsec w.rx = .error fault := by rw [readFrame, pulled]
    obtain ⟨t, stopped⟩ := receiveTurn_of_fault failed (by simp [headerLength, pulled])
    cases stopped.symm.trans turn
  | ok found =>
    obtain ⟨got, rx'⟩ := found
    rcases speaks w.rx .refl got rx' pulled with nothing | ⟨f, rx'', frame, said⟩
    -- without a header the turn ends the loop, and nothing has been received
    · obtain ⟨noHeader, stopped⟩ := readFrame_of_nothing pulled nothing
      obtain ⟨t, run⟩ := receiveTurn_of_none stopped (by simp [noHeader])
      rw [run] at turn
      cases turn
      refine ⟨.nothing pulled nothing, fun m same => ?_⟩
      cases same
    · cases accepted : f.accepted with
      | true =>
        obtain ⟨m, t, run, held⟩ := receiveTurn_of_accepted frame (bounded f said) accepted
        rw [run] at turn
        cases turn
        refine ⟨.frame frame, fun m' same => ?_⟩
        cases same
        exact ⟨f, said, accepted, held⟩
      | false =>
        obtain ⟨t, run⟩ := receiveTurn_of_skipped frame (bounded f said) accepted
        rw [run] at turn
        cases turn
        refine ⟨.frame frame, fun m same => ?_⟩
        cases same

theorem turn_of_speaks {w v : World} (speaks : Speaks sch.toutMsec sends w.rx)
    (reached : Loop.Turn (receiveTurn sch) w v) : ReadsTo sch.toutMsec w.rx v.rx := by
  induction reached with
  | first => exact .refl
  | next _ round ih => exact ih.tail (receiveTurn_of_speaks bounded (speaks.later ih) round).1

/-- What is received is something the peer sends. -/
theorem simpleCtrlReceive_of_speaks {w w' : World} {result : Option Msgb}
    (speaks : Speaks sch.toutMsec sends w.rx) (run : simpleCtrlReceive sch w = .ok (result, w')) :
    ReadsTo sch.toutMsec w.rx w'.rx ∧
      ∀ m, result = some m → ∃ f, sends f ∧ f.accepted = true ∧ m.HoldsCtrl f := by
  -- every turn starts where the script has been read to, so `Speaks` carries over
  obtain ⟨v, reached, ending⟩ := Loop.whileTrue_ends ⟨.blocked, []⟩ (receiveTurn_decreases sch) w
  have before := turn_of_speaks bounded speaks reached
  rw [simpleCtrlReceive] at run
  rcases ending with ⟨a, v', turn, ended⟩ | ⟨fault, -, failed⟩
  · rw [ended] at run
    cases run
    obtain ⟨step, held⟩ := receiveTurn_of_speaks bounded (speaks.later before) turn
    exact ⟨before.tail step, fun m same => held m (by rw [same])⟩
  · rw [failed] at run
    cases run

/-- An exchange that does not fail has the verdict on the text of a CTRL message that the
    peer sends. -/
theorem simpleCtrlExchange_of_speaks {α : Type} {request : UInt32 → CStr} {failed : α}
    {replied : SimpleCtrlHandle → CStr → Sys α} {verdict : CStr → α → Prop} {w w' : World}
    {sch' : SimpleCtrlHandle} {a : α} (speaks : Speaks sch.toutMsec sends w.rx)
    (replies : ∀ text v, ∃ b t, replied sch.next text v = .ok (b, { v with trace := t }) ∧
      verdict text b)
    (run : simpleCtrlExchange sch request failed replied w = .ok ((a, sch'), w')) :
    sch' = sch.next ∧ ReadsTo sch.toutMsec w.rx w'.rx ∧
      (a = failed ∨ ∃ f, sends f ∧ f.isCtrl = true ∧
        verdict (f.payload.tail.takeWhile (· ≠ 0)) a) := by
  by_cases sent : Sent sch (request sch.nextId) w
  · obtain ⟨t, requested⟩ := simpleCtrlRequest_of_sent sent
    rw [simpleCtrlExchange] at run
    obtain ⟨⟨resp, after⟩, v, first, run⟩ := Loop.bind_inv run
    rw [requested] at first
    obtain ⟨received, v', receive, first⟩ := Loop.bind_inv first
    cases first
    obtain ⟨reads, held⟩ := @simpleCtrlReceive_of_speaks sch.next sends bounded
      { w with tx := txAfter sch (request sch.nextId) w, trace := t } _ _ speaks receive
    cases resp with
    | none =>
      cases run
      exact ⟨rfl, reads, .inl rfl⟩
    | some m =>
      obtain ⟨f, said, accepted, held⟩ := held m rfl
      obtain ⟨text, v₁, read, run⟩ := Loop.bind_inv run
      obtain ⟨b, v₂, judged, run⟩ := Loop.bind_inv run
      cases run
      obtain ⟨ctrl, rfl, rfl⟩ := held.text_inv accepted read
      obtain ⟨b', t', returned, verdict⟩ := replies (f.payload.tail.takeWhile (· ≠ 0)) v₁
      rw [returned] at judged
      cases judged
      exact ⟨rfl, reads, .inr ⟨f, said, ctrl, verdict⟩⟩
  · -- a request that is not sent is not answered: the call fails without reading
    obtain ⟨tx, t, requested⟩ := simpleCtrlRequest_of_unsent sent
    rw [simpleCtrlExchange, Loop.bind_ok requested] at run
    cases run
    exact ⟨rfl, .refl, .inl rfl⟩

end

/-! ## Calls -/

inductive Call where
  | get (var : CStr)
  | set (var val : CStr)
deriving DecidableEq, Repr

def Call.var : Call → CStr
  | .get var => var
  | .set var _ => var

/-- The text of the request that a call sends. -/
def Call.request (id : UInt32) : Call → CStr
  | .get var => getRequest id var
  | .set var val => setRequest id var val

/-- What a call returns: a string or `NULL`, or whether it is 0. -/
inductive Outcome where
  | value (s : Option HeapStr)
  | status (ok : Bool)
deriving DecidableEq, Repr

def Call.run (sch : SimpleCtrlHandle) : Call → Sys (Outcome × SimpleCtrlHandle)
  | .get var => do
    let (value, sch) ← simpleCtrlGet sch var
    return (.value value, sch)
  | .set var val => do
    let (ok, sch) ← simpleCtrlSet sch var val
    return (.status ok, sch)

/-- A run of the first of `calls` on one handle, with what each returned. -/
inductive Session : SimpleCtrlHandle → World → List Call → List Outcome → Prop
  | stop {sch : SimpleCtrlHandle} {w : World} {calls : List Call} : Session sch w calls []
  | call {sch sch' : SimpleCtrlHandle} {w w' : World} {c : Call} {calls : List Call} {o : Outcome}
      {outcomes : List Outcome} : c.run sch w = .ok ((o, sch'), w') →
      Session sch' w' calls outcomes → Session sch w (c :: calls) (o :: outcomes)

theorem Session.get {sch sch' : SimpleCtrlHandle} {w w' : World} {var : CStr}
    {value : Option HeapStr} {calls : List Call} {outcomes : List Outcome}
    (run : simpleCtrlGet sch var w = .ok ((value, sch'), w'))
    (rest : Session sch' w' calls outcomes) :
    Session sch w (.get var :: calls) (.value value :: outcomes) := by
  refine .call ?_ rest
  rw [Call.run, Loop.bind_ok run]
  rfl

theorem Session.set {sch sch' : SimpleCtrlHandle} {w w' : World} {var val : CStr} {ok : Bool}
    {calls : List Call} {outcomes : List Outcome}
    (run : simpleCtrlSet sch var val w = .ok ((ok, sch'), w'))
    (rest : Session sch' w' calls outcomes) :
    Session sch w (.set var val :: calls) (.status ok :: outcomes) := by
  refine .call ?_ rest
  rw [Call.run, Loop.bind_ok run]
  rfl

/-- A call that does not fail goes by a CTRL message that the peer sends, read as the
    answer to the request `id`. -/
def Judged (sends : IpaFrame → Prop) (id : UInt32) (c : Call) (o : Outcome) : Prop :=
  match c, o with
  | .get var, .value (some s) => ∃ f, sends f ∧ f.isCtrl = true ∧
    getAnswer id var (f.payload.tail.takeWhile (· ≠ 0)) = some s.text
  | .set var val, .status true => ∃ f, sends f ∧ f.isCtrl = true ∧
    setAnswer id var val (f.payload.tail.takeWhile (· ≠ 0)) = true
  | .get _, .value none => True
  | .set _ _, .status false => True
  | .get _, .status _ => False
  | .set _ _, .value _ => False

theorem call_judged {sch sch' : SimpleCtrlHandle} {sends : IpaFrame → Prop}
    (bounded : ∀ f, sends f → f.payload.length ≤ maxPayload) {w w' : World} {c : Call} {o : Outcome}
    (speaks : Speaks sch.toutMsec sends w.rx) (run : c.run sch w = .ok ((o, sch'), w')) :
    sch' = sch.next ∧ ReadsTo sch.toutMsec w.rx w'.rx ∧ Judged sends sch.nextId c o := by
  cases c with
  | get var =>
    obtain ⟨⟨value, after⟩, v, get, run⟩ := Loop.bind_inv run
    cases run
    obtain ⟨rfl, reads, ended⟩ :=
      simpleCtrlExchange_of_speaks bounded speaks (getReplied_ok sch var) get
    refine ⟨rfl, reads, ?_⟩
    cases value with
    | none => trivial
    | some s =>
      rcases ended with failed | ⟨f, said, ctrl, answer⟩
      · cases failed
      · exact ⟨f, said, ctrl, answer.symm⟩
  | set var val =>
    obtain ⟨⟨ok, after⟩, v, set, run⟩ := Loop.bind_inv run
    cases run
    obtain ⟨rfl, reads, ended⟩ :=
      simpleCtrlExchange_of_speaks bounded speaks (setReplied_ok sch var val) set
    refine ⟨rfl, reads, ?_⟩
    cases ok with
    | false => trivial
    | true =>
      rcases ended with failed | ⟨f, said, ctrl, answer⟩
      · cases failed
      · exact ⟨f, said, ctrl, answer.symm⟩

/-- The id of the request that the `i`-th call of a session sends. -/
def requestId (start : UInt32) (i : Nat) : UInt32 := start + UInt32.ofNat i

theorem requestId_succ (start : UInt32) (i : Nat) :
    requestId (start + 1) i = requestId start (i + 1) := by
  simp only [requestId, UInt32.ofNat_add]
  rw [UInt32.add_assoc, UInt32.add_comm 1]
  rfl

/-- Ids come round only after 2 ^ 32 requests. -/
theorem requestId_inj {start : UInt32} {i j : Nat} (hi : i < UInt32.size) (hj : j < UInt32.size)
    (same : requestId start i = requestId start j) : i = j := by
  have cancelled := congrArg UInt32.toNat ((UInt32.add_right_inj start).mp same)
  rwa [UInt32.toNat_ofNat_of_lt' hi, UInt32.toNat_ofNat_of_lt' hj] at cancelled

theorem session_judged {sch : SimpleCtrlHandle} {sends : IpaFrame → Prop}
    (bounded : ∀ f, sends f → f.payload.length ≤ maxPayload) {w : World} {calls : List Call}
    {outcomes : List Outcome} (session : Session sch w calls outcomes)
    (speaks : Speaks sch.toutMsec sends w.rx) {i : Nat} {o : Outcome}
    (returned : outcomes[i]? = some o) :
    ∃ c, calls[i]? = some c ∧ Judged sends (requestId sch.nextId i) c o := by
  -- the calls after the first are a session from the next id on
  induction session generalizing i with
  | stop => simp at returned
  | call run _ ih =>
    obtain ⟨rfl, reads, judged⟩ := call_judged bounded speaks run
    cases i with
    | zero =>
      rw [List.getElem?_cons_zero] at returned
      cases returned
      exact ⟨_, rfl, by simpa [requestId] using judged⟩
    | succ i =>
      rw [List.getElem?_cons_succ] at returned
      obtain ⟨c, at_call, judged⟩ := ih (speaks.later reads) returned
      refine ⟨c, at_call, ?_⟩
      rw [← requestId_succ]
      exact judged

/-! ## The peer -/

/-- What the peer sends in a session of `n` calls. -/
inductive PeerMsg (n : Nat) where
  | getReply (req : Fin n) (val : CStr)
  | setReply (req : Fin n) (val : CStr)
  | error (req : Fin n) (reason : CStr)
  | trap (body : CStr)
  /-- A message that is not a CTRL message. -/
  | other

/-- The text of a CTRL message.  An answer repeats the id and the variable of its
    request. -/
def PeerMsg.text (start : UInt32) (calls : List Call) : PeerMsg calls.length → Option CStr
  | .getReply req val =>
    some (reply (ascii "GET_REPLY") (requestId start req) (calls.get req).var val)
  | .setReply req val =>
    some (reply (ascii "SET_REPLY") (requestId start req) (calls.get req).var val)
  | .error req reason =>
    some (ascii "ERROR " ++ decimal (requestId start req).toNat ++ ascii " " ++ reason)
  | .trap body => some (ascii "TRAP " ++ body)
  | .other => none

/-- The frame is the message on the wire. -/
def PeerMsg.Frame (start : UInt32) (calls : List Call) (msg : PeerMsg calls.length) (f : IpaFrame) :
    Prop :=
  f.payload.length ≤ maxPayload ∧
    match msg.text start calls with
    | some text => 0 ∉ text ∧ f.proto = ipacProtoOsmo ∧ f.payload = ipacProtoExtCtrl :: text
    | none => f.isCtrl = false

/-- The call succeeded on the peer's own answer to it: it returns the first word of the
    value there, or sees its own value there as the first word. -/
def Answered {calls : List Call} (sent : PeerMsg calls.length → Prop) (i : Fin calls.length)
    (o : Outcome) : Prop :=
  match calls.get i, o with
  | .get _, .value (some s) => ∃ val, sent (.getReply i val) ∧ s.text = (word? val).getD []
  | .set _ val, .status true => ∃ rxVal, sent (.setReply i rxVal) ∧ word? rxVal = some val
  | .get _, .value none => True
  | .set _ _, .status false => True
  | .get _, .status _ => False
  | .set _ _, .value _ => False

theorem PeerMsg.text_of_ctrl {start : UInt32} {calls : List Call} {msg : PeerMsg calls.length}
    {f : IpaFrame} (frame : msg.Frame start calls f) (ctrl : f.isCtrl = true) :
    msg.text start calls = some (f.payload.tail.takeWhile (· ≠ 0)) := by
  obtain ⟨-, frame⟩ := frame
  cases text : msg.text start calls with
  | none =>
    rw [text] at frame
    rw [frame] at ctrl
    cases ctrl
  | some body =>
    rw [text] at frame
    obtain ⟨noNul, -, payload⟩ := frame
    rw [payload, List.tail_cons, takeWhile_ne_zero noNul]

theorem getAnswer_of_other {id : UInt32} {var text : CStr} (other : ¬ ascii "GET_REPLY" <+: text) :
    getAnswer id var text = none := by
  rw [getAnswer, replyFields, replyFormat, sscanf_lits_eq_nil other]

theorem setAnswer_of_other {id : UInt32} {var val text : CStr}
    (other : ¬ ascii "SET_REPLY" <+: text) : setAnswer id var val text = false := by
  rw [setAnswer, replyFields, replyFormat, sscanf_lits_eq_nil other]

/-- Only a reply to a request is taken for the answer to it. -/
theorem PeerMsg.getAnswer_inv {start : UInt32} {calls : List Call} {msg : PeerMsg calls.length}
    {i : Fin calls.length} {text v : CStr} (few : calls.length < UInt32.size)
    (text_eq : msg.text start calls = some text)
    (answer : getAnswer (requestId start i) (calls.get i).var text = some v) :
    ∃ val, msg = .getReply i val ∧ v = (word? val).getD [] := by
  cases msg with
  | getReply req val =>
    cases text_eq
    -- equal ids are ids of one request, as there are fewer than 2 ^ 32
    have same := requestId_inj (Nat.lt_trans req.isLt few) (Nat.lt_trans i.isLt few)
      (getAnswer_id answer)
    obtain rfl := Fin.ext same
    exact ⟨val, rfl, ((getAnswer_reply _ _ _ _).mp answer).2⟩
  | setReply req val | error req reason | trap body =>
    cases text_eq
    rw [getAnswer_of_other (by simp [reply, ascii])] at answer
    cases answer
  | other => cases text_eq

theorem PeerMsg.setAnswer_inv {start : UInt32} {calls : List Call} {msg : PeerMsg calls.length}
    {i : Fin calls.length} {text val : CStr} (few : calls.length < UInt32.size)
    (text_eq : msg.text start calls = some text)
    (answer : setAnswer (requestId start i) (calls.get i).var val text = true) :
    ∃ rxVal, msg = .setReply i rxVal ∧ word? rxVal = some val := by
  cases msg with
  | setReply req rxVal =>
    cases text_eq
    -- equal ids are ids of one request, as there are fewer than 2 ^ 32
    have same := requestId_inj (Nat.lt_trans req.isLt few) (Nat.lt_trans i.isLt few)
      (setAnswer_id answer)
    obtain rfl := Fin.ext same
    exact ⟨rxVal, rfl, ((setAnswer_reply _ _ _ _).mp answer).2⟩
  | getReply req val | error req reason | trap body =>
    cases text_eq
    rw [setAnswer_of_other (by simp [reply, ascii])] at answer
    cases answer
  | other => cases text_eq

/-- **In a session of fewer than 2 ^ 32 calls on a connection without short reads,
    a call succeeds only on the peer's answer to that very call**, however late the
    answers are and whatever comes between them. -/
theorem session_answered {sch : SimpleCtrlHandle} {w : World} {calls : List Call}
    {outcomes : List Outcome} {sent : PeerMsg calls.length → Prop}
    (few : calls.length < UInt32.size) (session : Session sch w calls outcomes)
    (speaks : Speaks sch.toutMsec (fun f => ∃ msg, sent msg ∧ msg.Frame sch.nextId calls f) w.rx)
    (i : Fin calls.length) {o : Outcome} (returned : outcomes[i.val]? = some o) :
    Answered sent i o := by
  have bounded (f : IpaFrame) (said : ∃ msg, sent msg ∧ msg.Frame sch.nextId calls f) :
      f.payload.length ≤ maxPayload := by
    obtain ⟨msg, -, short, -⟩ := said
    exact short
  obtain ⟨c, at_call, judged⟩ := session_judged bounded session speaks returned
  have this_call : calls.get i = c := by
    rw [List.getElem?_eq_getElem i.isLt] at at_call
    exact Option.some.inj at_call
  rw [Judged.eq_def] at judged
  rw [Answered.eq_def, this_call]
  split at judged
  · obtain ⟨f, ⟨msg, said, frame⟩, ctrl, answer⟩ := judged
    obtain ⟨val, rfl, value⟩ := PeerMsg.getAnswer_inv few (PeerMsg.text_of_ctrl frame ctrl)
      (by rw [this_call]; exact answer)
    exact ⟨val, said, value⟩
  · obtain ⟨f, ⟨msg, said, frame⟩, ctrl, answer⟩ := judged
    obtain ⟨rxVal, rfl, value⟩ := PeerMsg.setAnswer_inv few (PeerMsg.text_of_ctrl frame ctrl)
      (by rw [this_call]; exact answer)
    exact ⟨rxVal, said, value⟩
  · trivial
  · trivial
  · exact judged
  · exact judged

/-- A variable that is read once. -/
theorem session_answered_once :
    ∃ s, Session freshHandle (incoming (reply (ascii "GET_REPLY") 0 (ascii "rf") (ascii "1")))
        [.get (ascii "rf")] [.value (some s)] ∧
      @Answered [.get (ascii "rf")] (· = .getReply 0 (ascii "1")) 0 (.value (some s)) := by
  obtain ⟨result, w', run, text⟩ := @simpleCtrlGet_of_first freshHandle (ascii "rf")
    (reply (ascii "GET_REPLY") 0 (ascii "rf") (ascii "1"))
    (incoming (reply (ascii "GET_REPLY") 0 (ascii "rf") (ascii "1")))
    ⟨by decide, by decide⟩ (firstMessage_data _ (by decide) []) (by decide)
  have answer : getAnswer freshHandle.nextId (ascii "rf")
    (reply (ascii "GET_REPLY") 0 (ascii "rf") (ascii "1")) = some (ascii "1") := by decide
  obtain ⟨s, rfl, -⟩ := Option.map_eq_some_iff.mp (text.trans answer)
  have session : Session freshHandle _ [.get (ascii "rf")] [.value (some s)] := .get run .stop
  refine ⟨s, session, session_answered (by decide) session (Messages.speaks ?_ _) 0 rfl⟩
  exact .data (f := ⟨ipacProtoOsmo, ipacProtoExtCtrl :: _, by decide⟩)
    ⟨.getReply 0 (ascii "1"), rfl, by decide, by decide, rfl, rfl⟩ .nil

/-- A `SET_REPLY` with another value is taken for a confirmation when its first word
    is the value; and behind a short read, bytes from inside a message for another
    protocol are taken for an answer that the peer never gave. -/
theorem session_misled :
    Session freshHandle (incoming (reply (ascii "SET_REPLY") 0 (ascii "rf") (ascii "1 2")))
      [.set (ascii "rf") (ascii "1")] [.status true] ∧
    ∃ (f : IpaFrame) (s : HeapStr), f.isCtrl = false ∧
      f.encode = [0, 21, 0xfe, 0] ++
        requestBytes (reply (ascii "GET_REPLY") 1 (ascii "rf") (ascii "1")) ∧
      Session freshHandle
        { rx := [.data [0, 21, 0xfe, 0],
            .data (requestBytes (reply (ascii "GET_REPLY") 1 (ascii "rf") (ascii "1")))]
          tx := [], trace := [] }
        [.get (ascii "rf"), .get (ascii "rf")] [.value none, .value (some s)] := by
  constructor
  -- the reply confirms `1 2`, of which only `1` is compared
  · obtain ⟨w', run⟩ := @simpleCtrlSet_of_first freshHandle (ascii "rf") (ascii "1")
      (reply (ascii "SET_REPLY") 0 (ascii "rf") (ascii "1 2"))
      (incoming (reply (ascii "SET_REPLY") 0 (ascii "rf") (ascii "1 2")))
      ⟨by decide, by decide⟩ (firstMessage_data _ (by decide) []) (by decide)
    have answer : setAnswer freshHandle.nextId (ascii "rf") (ascii "1")
      (reply (ascii "SET_REPLY") 0 (ascii "rf") (ascii "1 2")) = true := by decide
    rw [answer] at run
    exact .set run .stop
  · let embedded := requestBytes (reply (ascii "GET_REPLY") 1 (ascii "rf") (ascii "1"))
    let other : IpaFrame := ⟨0xfe, 0 :: embedded, by decide⟩
    have header : other.header = [0, 21, 0xfe] := by decide
    have length : other.payload.length = 21 := by decide
    -- 21 bytes of payload are announced, and one is there to read
    obtain ⟨announced, cut⟩ := @readFrame_of_short_payload freshHandle.toutMsec
      [.data [0, 21, 0xfe, 0], .data embedded] [.data [0], .data embedded] [.data embedded]
      other [0] (by rw [header]; rfl) (by rw [length]; rfl) (by rw [length]; decide)
    obtain ⟨t, short⟩ := @simpleCtrlExchange_of_none _ freshHandle (getRequest · (ascii "rf")) none
      (getReplied (ascii "rf"))
      { rx := [.data [0, 21, 0xfe, 0], .data embedded], tx := [], trace := [] }
      _ ⟨by decide, by decide⟩ cut (by rw [announced]; decide)
    obtain ⟨result, w', run, text⟩ := @simpleCtrlGet_of_first freshHandle.next (ascii "rf")
      (reply (ascii "GET_REPLY") 1 (ascii "rf") (ascii "1"))
      { rx := [.data embedded], tx := [], trace := t }
      ⟨by decide, rfl⟩ (firstMessage_data _ (by decide) []) (by decide)
    have answer : getAnswer freshHandle.next.nextId (ascii "rf")
      (reply (ascii "GET_REPLY") 1 (ascii "rf") (ascii "1")) = some (ascii "1") := by decide
    obtain ⟨s, rfl, -⟩ := Option.map_eq_some_iff.mp (text.trans answer)
    exact ⟨other, s, by decide, by decide, .get short (.get run .stop)⟩

end OsmoSysmon
