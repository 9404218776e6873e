import OsmoSysmon.SimpleCtrl.Session

/-! # Messages in front of a reply

A call takes the first CTRL message that comes for the answer to its request.
`call_undisturbed_iff` compares a call whose reply comes first with one that has other
messages in front of it.
-/

namespace OsmoSysmon

open CText Scanf Loop

/-! ## Answers -/

/-- What the caller sees: a text or `NULL`, or whether it is 0. -/
abbrev Answer := Option CStr ⊕ Bool

def Outcome.answer : Outcome → Answer
  | .value s => .inl (s.map HeapStr.text)
  | .status ok => .inr ok

def Call.failure : Call → Answer
  | .get _ => .inl none
  | .set _ _ => .inr false

/-- What a call answers when it goes by this text. -/
def Call.answer (id : UInt32) (text : CStr) : Call → Answer
  | .get var => .inl (getAnswer id var text)
  | .set var val => .inr (setAnswer id var val text)

def Call.verb : Call → CStr
  | .get _ => ascii "GET_REPLY"
  | .set _ _ => ascii "SET_REPLY"

/-- A message that is not a reply to the request `id`: one of another kind, or a reply to
    another request. -/
def Call.Unrelated (id : UInt32) (text : CStr) (c : Call) : Prop :=
  ¬ c.verb <+: text ∨ ∃ rxId rxVar rxVal, rxId ≠ id ∧ text = reply c.verb rxId rxVar rxVal

/-- A reply with this value is a success. -/
def Call.Succeeds (rxVal : CStr) (c : Call) : Prop :=
  (c.var ≠ [] ∧ ∀ b ∈ c.var, isspace b = false) ∧
    match c with
    | .get _ => True
    | .set _ val => word? rxVal = some val

def IpaFrame.text (f : IpaFrame) : CStr := f.payload.tail.takeWhile (· ≠ 0)

theorem Call.answer_of_unrelated {id : UInt32} {text : CStr} {c : Call}
    (unrelated : c.Unrelated id text) : c.answer id text = c.failure := by
  cases c with
  | get var =>
    rw [answer, failure, Sum.inl.injEq]
    rcases unrelated with other | ⟨rxId, rxVar, rxVal, late, rfl⟩
    · exact getAnswer_of_other other
    · rw [Option.eq_none_iff_forall_ne_some]
      exact fun v answered => late (getAnswer_id answered)
  | set var val =>
    rw [answer, failure, Sum.inr.injEq]
    rcases unrelated with other | ⟨rxId, rxVar, rxVal, late, rfl⟩
    · exact setAnswer_of_other other
    · rw [← Bool.not_eq_true]
      exact fun answered => late (setAnswer_id answered)

/-- Replies to the request are read as the scan reads them. -/
theorem Call.answer_of_reply (id : UInt32) (rxVal : CStr) (c : Call) :
    c.answer id (reply c.verb id c.var rxVal) = c.failure ↔ ¬ c.Succeeds rxVal := by
  cases c with
  | get var =>
    rw [answer, failure, Sum.inl.injEq, Option.eq_none_iff_forall_ne_some, Succeeds]
    have taken (v : CStr) := getAnswer_reply id var rxVal v
    constructor
    · intro unanswered name
      exact unanswered _ ((taken _).mpr ⟨name.1, rfl⟩)
    · intro noName v answered
      exact noName ⟨((taken v).mp answered).1, trivial⟩
  | set var val =>
    rw [answer, failure, Sum.inr.injEq, ← Bool.not_eq_true, Succeeds]
    exact not_congr (setAnswer_reply id var val rxVal)

/-! ## Runs -/

section

variable {sch : SimpleCtrlHandle} {c : Call} {w : World}

theorem call_of_firstCtrl {text : CStr} (sent : Sent sch (c.request sch.nextId) w)
    (first : FirstCtrl sch.toutMsec w.rx text) :
    ∃ o w', c.run sch w = .ok ((o, sch.next), w') ∧ o.answer = c.answer sch.nextId text := by
  cases c with
  | get var =>
    obtain ⟨value, w', run, isValue⟩ :=
      @simpleCtrlExchange_of_firstCtrl _ sch (getRequest · var) none _ w _ _ sent first
        (getReplied_ok sch var text)
    exact ⟨.value value, w', bind_ok run _, congrArg Sum.inl isValue⟩
  | set var val =>
    obtain ⟨ok, w', run, isOk⟩ :=
      @simpleCtrlExchange_of_firstCtrl _ sch (setRequest · var val) false _ w _ _ sent first
        (setReplied_ok sch var val text)
    exact ⟨.status ok, w', bind_ok run _, congrArg Sum.inr isOk⟩

theorem call_of_unsent (unsent : ¬ Sent sch (c.request sch.nextId) w) :
    ∃ o w', c.run sch w = .ok ((o, sch.next), w') ∧ o.answer = c.failure := by
  obtain ⟨tx, t, requested⟩ := @simpleCtrlRequest_of_unsent sch (c.request ·) w unsent
  cases c with
  | get var =>
    have run : simpleCtrlGet sch var w = .ok ((none, sch.next), { w with tx, trace := t }) :=
      bind_ok requested _
    exact ⟨.value none, _, bind_ok run _, rfl⟩
  | set var val =>
    have run : simpleCtrlSet sch var val w = .ok ((false, sch.next), { w with tx, trace := t }) :=
      bind_ok requested _
    exact ⟨.status false, _, bind_ok run _, rfl⟩

/-- A call that returns has not met a frame that is too long. -/
theorem short_of_call {sch' : SimpleCtrlHandle} {w' : World} {o : Outcome} {f : IpaFrame}
    {fs : List IpaFrame} {rest : List RxEvent} (sent : Sent sch (c.request sch.nextId) w)
    (arrives : Delivers sch.toutMsec (f :: fs) w.rx rest)
    (run : c.run sch w = .ok ((o, sch'), w')) : f.payload.length ≤ maxPayload := by
  obtain ⟨t, requested⟩ := @simpleCtrlRequest_of_sent sch (c.request ·) w sent
  have request : ∃ resp v, simpleCtrlRequest sch (c.request ·) w = .ok (resp, v) := by
    cases c with
    | get var | set var val =>
      obtain ⟨_, _, run, -⟩ := bind_inv run
      obtain ⟨resp, v, request, -⟩ := bind_inv run
      exact ⟨resp, v, request⟩
  obtain ⟨resp, v, request⟩ := request
  obtain ⟨received, u, receive, -⟩ := bind_inv (requested.symm.trans request)
  by_contra long
  cases arrives with
  | cons header payload _ =>
    exact @simpleCtrlReceive_of_overlong sch.next { w with tx := _, trace := t } _ _ _ _
      (readFrame_of_reads header payload) (Nat.lt_of_not_le long) receive

/-- A call goes by the first of the CTRL messages. -/
theorem call_of_delivers {f : IpaFrame} {fs : List IpaFrame} {rest : List RxEvent}
    (sent : Sent sch (c.request sch.nextId) w) (arrives : Delivers sch.toutMsec (f :: fs) w.rx rest)
    (ctrl : f.isCtrl = true) (short : f.payload.length ≤ maxPayload) :
    ∃ o w', c.run sch w = .ok ((o, sch.next), w') ∧ o.answer = c.answer sch.nextId f.text := by
  cases arrives with
  | cons header payload _ =>
    refine call_of_firstCtrl sent ⟨[], f, _, .cons header payload .nil, ?_, by simp, ctrl, rfl⟩
    simpa using short

/-- **A call that returns a value when its reply comes first returns the same value when
    unrelated CTRL messages come before the reply if and only if none does, or no request is
    sent, or the reply is no success either and the first of them fits a buffer.** -/
theorem call_undisturbed_iff {w₀ w₀' : World} {sch₀ : SimpleCtrlHandle} {o₀ : Outcome}
    {ahead : List IpaFrame} {f : IpaFrame} {rxVal : CStr} {rest rest₀ : List RxEvent}
    (unrelated : ∀ g ∈ ahead, g.isCtrl = true ∧ c.Unrelated sch.nextId g.text)
    (ctrl : f.isCtrl = true) (isReply : f.text = reply c.verb sch.nextId c.var rxVal)
    (arrives : Delivers sch.toutMsec (ahead ++ [f]) w.rx rest)
    (first : Delivers sch.toutMsec [f] w₀.rx rest₀) (same : w₀.tx = w.tx)
    (run₀ : c.run sch w₀ = .ok ((o₀, sch₀), w₀')) :
    (∃ o sch' w', c.run sch w = .ok ((o, sch'), w') ∧ o.answer = o₀.answer) ↔
      ahead = [] ∨ ¬ Sent sch (c.request sch.nextId) w ∨
        ¬ c.Succeeds rxVal ∧ ∀ g ∈ ahead.head?, g.payload.length ≤ maxPayload := by
  have sameSent : Sent sch (c.request sch.nextId) w₀ ↔ Sent sch (c.request sch.nextId) w := by
    rw [Sent, Sent, same]
  by_cases sent : Sent sch (c.request sch.nextId) w
  · have sent₀ := sameSent.mpr sent
    have short := short_of_call sent₀ first run₀
    obtain ⟨o, w', run, answer₀⟩ := call_of_delivers sent₀ first ctrl short
    cases run.symm.trans run₀
    rw [answer₀, isReply]
    cases ahead with
    | nil =>
      obtain ⟨o, w', run, answer⟩ := call_of_delivers sent arrives ctrl short
      rw [isReply] at answer
      exact iff_of_true ⟨o, _, w', run, answer⟩ (.inl rfl)
    | cons g more =>
      obtain ⟨ctrl', other⟩ := unrelated g List.mem_cons_self
      by_cases fits : g.payload.length ≤ maxPayload
      -- the call goes by the first message, which is not its reply
      · obtain ⟨o, w', run, answer⟩ := call_of_delivers sent arrives ctrl' fits
        rw [Call.answer_of_unrelated other] at answer
        have returned : (∃ o sch' w', c.run sch w = .ok ((o, sch'), w') ∧
            o.answer = c.answer sch.nextId (reply c.verb sch.nextId c.var rxVal)) ↔
            c.answer sch.nextId (reply c.verb sch.nextId c.var rxVal) = c.failure := by
          constructor
          · rintro ⟨o', sch', v, run', answer'⟩
            cases run.symm.trans run'
            exact answer'.symm.trans answer
          · exact fun failed => ⟨o, _, w', run, answer.trans failed.symm⟩
        rw [returned, Call.answer_of_reply]
        simp [sent, fits]
      · refine iff_of_false ?_ (by simp [sent, fits])
        rintro ⟨o', sch', v, run', -⟩
        exact fits (short_of_call sent arrives run')
  · obtain ⟨o, w', run, answer⟩ := call_of_unsent sent
    obtain ⟨o', v, run', answer'⟩ := call_of_unsent (mt sameSent.mp sent)
    cases run'.symm.trans run₀
    exact iff_of_true ⟨o, _, w', run, answer.trans answer'.symm⟩ (.inr (.inl sent))

end

/-- A CTRL message. -/
def ctrlFrame (text : CStr) (fits : text.length + 1 < 65536) : IpaFrame where
  proto := ipacProtoOsmo
  payload := ipacProtoExtCtrl :: text
  fits := fits

/-- A trap. -/
def trapFrame : IpaFrame := ctrlFrame (ascii "TRAP 0 rf 1") (by decide)

/-- A reply, with a trap in front of it. -/
theorem delivers_trap (tout : UInt32) (f : IpaFrame) :
    Delivers tout ([trapFrame] ++ [f]) [.data trapFrame.encode, .data f.encode] [] :=
  (Delivers.data tout trapFrame [.data f.encode]).append (Delivers.data tout f [])

/-- A variable with a blank in its name is not read, with a trap in front of its reply or
    without. -/
theorem call_undisturbed_blank :
    ∃ o sch' w', (Call.get (ascii "a b")).run freshHandle
        ⟨[.data trapFrame.encode,
          .data (ctrlFrame (ascii "GET_REPLY 0 a b 1") (by decide)).encode], [], []⟩ =
          .ok ((o, sch'), w') ∧ o.answer = .inl none := by
  let f := ctrlFrame (ascii "GET_REPLY 0 a b 1") (by decide)
  let w : World := ⟨[.data trapFrame.encode, .data f.encode], [], []⟩
  let w₀ : World := ⟨[.data f.encode], [], []⟩
  have arrives : Delivers freshHandle.toutMsec ([trapFrame] ++ [f]) w.rx [] := delivers_trap _ f
  have first : Delivers freshHandle.toutMsec [f] w₀.rx [] := Delivers.data _ f []
  have same : w₀.tx = w.tx := rfl
  obtain ⟨o, w', run, answer⟩ := @call_of_delivers freshHandle (.get (ascii "a b")) w₀ f [] []
    ⟨by decide, by decide⟩ first (by decide) (by decide)
  have isNone : o.answer = .inl none := answer.trans (by decide)
  have unrelated : ∀ g ∈ [trapFrame],
      g.isCtrl = true ∧ (Call.get (ascii "a b")).Unrelated freshHandle.nextId g.text := by
    intro g mem
    rw [List.mem_singleton] at mem
    rw [mem]
    exact ⟨by decide, .inl (by decide)⟩
  have noName : ¬ (Call.get (ascii "a b")).Succeeds (ascii "1") := by
    rintro ⟨⟨-, word⟩, -⟩
    exact absurd (word 32 (by decide)) (by decide)
  have isReply : f.text = reply (ascii "GET_REPLY") 0 (ascii "a b") (ascii "1") := by decide
  have fits : ∀ g ∈ [trapFrame].head?, g.payload.length ≤ maxPayload := by decide
  have undisturbed := call_undisturbed_iff unrelated (by decide) isReply arrives first same run
  rw [isNone] at undisturbed
  exact undisturbed.mpr (.inr (.inr ⟨noName, fits⟩))

/-- A trap in front of its reply makes a request fail that has been answered. -/
theorem call_disturbed :
    (∃ o sch' w', (Call.get (ascii "rf")).run freshHandle
        ⟨[.data (ctrlFrame (ascii "GET_REPLY 0 rf 1") (by decide)).encode], [], []⟩ =
          .ok ((o, sch'), w') ∧ o.answer = .inl (some (ascii "1"))) ∧
    ∃ o sch' w', (Call.get (ascii "rf")).run freshHandle
        ⟨[.data trapFrame.encode,
          .data (ctrlFrame (ascii "GET_REPLY 0 rf 1") (by decide)).encode], [], []⟩ =
          .ok ((o, sch'), w') ∧ o.answer = .inl none := by
  let f := ctrlFrame (ascii "GET_REPLY 0 rf 1") (by decide)
  constructor
  · obtain ⟨o, w', run, answer⟩ := @call_of_delivers freshHandle (.get (ascii "rf"))
      ⟨[.data f.encode], [], []⟩ f [] [] ⟨by decide, by decide⟩ (Delivers.data _ f []) (by decide)
      (by decide)
    exact ⟨o, _, w', run, answer.trans (by decide)⟩
  · obtain ⟨o, w', run, answer⟩ := @call_of_delivers freshHandle (.get (ascii "rf"))
      ⟨[.data trapFrame.encode, .data f.encode], [], []⟩ trapFrame [f] [] ⟨by decide, by decide⟩
      (delivers_trap _ f) (by decide) (by decide)
    exact ⟨o, _, w', run, answer.trans (by decide)⟩

end OsmoSysmon
