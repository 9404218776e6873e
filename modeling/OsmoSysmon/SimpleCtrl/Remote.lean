import OsmoSysmon.Lib.Simulation
import OsmoSysmon.SimpleCtrl.Wire

/-! # Remote calls

A peer that executes the requests it reads and answers each of them once.  What a call returns
to the caller is then what the peer has decided on the call itself: id, framing and text
leave no trace.
-/

namespace OsmoSysmon

open CText Scanf Loop Simulation

/-! ## The peer -/

/-- A text that fits an answer. -/
structure AnswerText where
  text : CStr
  short : text.length ≤ 65000
  noNul : 0 ∉ text

/-- What the peer decides on a request. -/
inductive Verdict where
  | accepts (val : AnswerText)
  | refuses (reason : AnswerText)

/-- The text up to the first blank, and the text behind it. -/
def cutBlank (text : CStr) : CStr × CStr :=
  (text.takeWhile (· ≠ 32), (text.dropWhile (· ≠ 32)).tail)

/-- A request as the peer reads it.  It leaves the id as it is. -/
def readRequest (text : CStr) : Option (CStr × Call) :=
  let (verb, rest) := cutBlank text
  let (id, rest) := cutBlank rest
  if verb = ascii "GET" then some (id, .get rest)
  else if verb = ascii "SET" then some (id, .set (cutBlank rest).1 (cutBlank rest).2)
  else none

/-- The request in one whole frame. -/
def readRequestFrame : List UInt8 → Option (CStr × Call)
  | hi :: lo :: proto :: ext :: text =>
    if ntohs hi lo = text.length + 1 ∧ proto = ipacProtoOsmo ∧ ext = ipacProtoExtCtrl then
      readRequest text
    else none
  | _ => none

/-- The text of an answer: the id and the variable come back. -/
def Verdict.text (id : CStr) (c : Call) : Verdict → CStr
  | .accepts val =>
    c.verb ++ (ascii " " ++ id ++ ascii " " ++ c.var ++ ascii " " ++ val.text)
  | .refuses reason => ascii "ERROR " ++ id ++ ascii " " ++ reason.text

/-- What the caller is to get. -/
def Verdict.answer (c : Call) : Verdict → Answer
  | .accepts val => match c with
    | .get _ => .inl (some ((word? val.text).getD []))
    | .set _ wanted => .inr (word? val.text == some wanted)
  | .refuses _ => c.failure

section

variable {σ : Type} (serve : Call → σ → Verdict × σ)

/-- The peer on the bytes of a frame. -/
def hears (bytes : List UInt8) (s : σ) : Option (CStr × σ) := do
  let (id, c) ← readRequestFrame bytes
  return ((serve c s).1.text id c, (serve c s).2)

/-- The call is made where the peer is. -/
def direct (c : Call) (s : σ) : Answer × σ := ((serve c s).1.answer c, (serve c s).2)

/-! ## The connection -/

/-- The two ends of a connection. -/
structure Ends (σ : Type) where
  sch : SimpleCtrlHandle
  world : World
  peer : σ

/-- A call, and what arrives while it waits: messages of other protocols, and the answer to
    what the call itself has written. -/
inductive Round (c : Call) : Ends σ → Outcome → Ends σ → Prop
  | mk {l l' : Ends σ} {o : Outcome} {bytes : List UInt8} {text : CStr} {others : List IpaFrame}
      {f : IpaFrame} {rx : List RxEvent} :
      c.run l.sch { l.world with rx := l.world.rx ++ rx } = .ok ((o, l'.sch), l'.world) →
      written l'.world.trace = bytes :: written l.world.trace →
      hears serve bytes l.peer = some (text, l'.peer) →
      (∀ g ∈ others, g.proto ≠ ipacProtoOsmo ∧ g.payload.length ≤ maxPayload) →
      f.proto = ipacProtoOsmo → f.payload = ipacProtoExtCtrl :: text →
      Delivers l.sch.toutMsec (others ++ [f]) rx [] →
      Round c l o l'

inductive Conversation : Ends σ → List Call → List Outcome → Ends σ → Prop
  | nil {l : Ends σ} : Conversation l [] [] l
  | cons {l l' l'' : Ends σ} {c : Call} {cs : List Call} {o : Outcome} {os : List Outcome} :
      Round serve c l o l' → Conversation l' cs os l'' → Conversation l (c :: cs) (o :: os) l''

end

/-! ## Requests are read as they were meant -/

theorem cutBlank_append {word : CStr} (noBlank : 32 ∉ word) (rest : CStr) :
    cutBlank (word ++ 32 :: rest) = (word, rest) := by
  have passes : ∀ c ∈ word, decide (c ≠ 32) = true := by
    intro c isMem
    simpa using fun isBlank : c = 32 => noBlank (isBlank ▸ isMem)
  rw [cutBlank, List.takeWhile_append_of_pos passes, List.dropWhile_append_of_pos passes]
  simp

theorem readRequest_request {c : Call} (plain : 32 ∉ c.var) (id : UInt32) :
    readRequest (c.request id) = some (decimal id.toNat, c) := by
  have noBlank : 32 ∉ decimal id.toNat := by
    intro isMem
    have isDigit := isdigit_of_mem_decimal isMem
    simp [isdigit] at isDigit
  cases c with
  | get var =>
    have isText : (Call.get var).request id =
        ascii "GET" ++ 32 :: (decimal id.toNat ++ 32 :: var) := by
      simp [Call.request, getRequest, ascii]
    rw [isText, readRequest, cutBlank_append (by decide)]
    simp only
    rw [cutBlank_append noBlank]
    rfl
  | set var val =>
    have isText : (Call.set var val).request id =
        ascii "SET" ++ 32 :: (decimal id.toNat ++ 32 :: (var ++ 32 :: val)) := by
      simp [Call.request, setRequest, ascii]
    rw [isText, readRequest, cutBlank_append (by decide)]
    simp only
    rw [cutBlank_append noBlank]
    simp only
    rw [cutBlank_append (show 32 ∉ var from plain)]
    rfl

theorem readRequestFrame_request {c : Call} (plain : 32 ∉ c.var) {id : UInt32}
    (short : (c.request id).length ≤ 511) :
    readRequestFrame (requestBytes (c.request id)) = some (decimal id.toNat, c) := by
  have small : (c.request id).length + 1 < 65536 := by omega
  show readRequestFrame
    ((((c.request id).length + 1) / 256).toUInt8 :: _ :: _ :: _ :: c.request id) = _
  rw [readRequestFrame, ntohs_htons small, if_pos ⟨rfl, rfl, rfl⟩, readRequest_request plain]

/-! ## Answers -/

/-- The call is one for a variable with a name, and its arguments are C strings. -/
def Call.Plain (c : Call) : Prop :=
  c.var ≠ [] ∧ (∀ b ∈ c.var, isspace b = false) ∧ c.IsText

theorem Call.Plain.noBlank {c : Call} (plain : c.Plain) : 32 ∉ c.var := by
  intro isMem
  cases plain.2.1 32 isMem

/-- The client takes the answer for what the peer has decided. -/
theorem answer_verdict {c : Call} (plain : c.Plain) (id : UInt32) (v : Verdict) :
    c.answer id (v.text (decimal id.toNat) c) = v.answer c := by
  cases v with
  | accepts val =>
    have isReply : (Verdict.accepts val).text (decimal id.toNat) c =
        reply c.verb id c.var val.text := rfl
    rw [isReply]
    cases c with
    | get var =>
      have taken := (getAnswer_reply id var val.text _).mpr ⟨⟨plain.1, plain.2.1⟩, rfl⟩
      exact congrArg Sum.inl taken
    | set var wanted =>
      refine congrArg Sum.inr ?_
      rw [Bool.eq_iff_iff, beq_iff_eq]
      exact (setAnswer_reply id var wanted val.text).trans
        (and_iff_right ⟨plain.1, plain.2.1⟩)
  | refuses reason =>
    have notReply : ¬ c.verb <+: (Verdict.refuses reason).text (decimal id.toNat) c := by
      cases c <;> simp [Verdict.text, Call.verb, ascii]
    cases c with
    | get var => exact congrArg Sum.inl (getAnswer_of_other notReply)
    | set var wanted => exact congrArg Sum.inr (setAnswer_of_other notReply)

theorem Call.var_free_of_nul {c : Call} (isText : c.IsText) : 0 ∉ c.var := by
  cases c with
  | get var => exact isText
  | set var val => exact isText.1

theorem Call.length_request (c : Call) (id : UInt32) :
    (decimal id.toNat).length + c.var.length < (c.request id).length := by
  cases c with
  | get var =>
    simp [Call.request, Call.var, getRequest, ascii]
    omega
  | set var val =>
    simp [Call.request, Call.var, setRequest, ascii]
    omega

/-- The answer fits a message buffer, and is a C string. -/
theorem verdict_text {c : Call} (plain : c.Plain) {id : UInt32}
    (short : (c.request id).length ≤ 511) (v : Verdict) :
    (v.text (decimal id.toNat) c).length < maxPayload ∧ 0 ∉ v.text (decimal id.toNat) c := by
  have room := c.length_request id
  have isDecimal := decimal_free_of_nul id.toNat
  cases v with
  | accepts val =>
    have bounded := val.short
    have verb : c.verb.length = 9 ∧ 0 ∉ c.verb := by cases c <;> simp [Call.verb, ascii]
    constructor
    · simp [Verdict.text, maxPayload, ascii, verb.1]
      omega
    · exact reply_free_of_nul id verb.2 (c.var_free_of_nul plain.2.2) val.noNul
  | refuses reason =>
    have bounded := reason.short
    constructor
    · simp [Verdict.text, maxPayload, ascii]
      omega
    · simp [Verdict.text, ascii, isDecimal, reason.noNul]

/-! ## One round -/

/-- A write that is not held up takes the bytes. -/
theorem WritesOnce.whole {α : Type} {bytes : List UInt8} {tout : UInt32} {failure : α → Prop}
    {m : Sys α} {w w' : World} {a : α} (once : WritesOnce bytes tout failure m w)
    (ready : w.tx = []) (run : m w = .ok (a, w')) :
    written w'.trace = bytes :: written w.trace := by
  obtain ⟨t, k, nothing, isRun, silent, -⟩ := once
  rw [isRun] at run
  obtain ⟨taken, v, write, rest⟩ := bind_inv run
  have later := silent taken (written v.trace) v a w' rfl rest
  rw [writeTimeout, bind_ok (get_ok _), ready] at write
  cases write
  refine later.trans ?_
  show bytes.take bytes.length :: written t = _
  rw [nothing, List.take_length]

theorem call_writes (sch : SimpleCtrlHandle) {c : Call} {w w' : World}
    (short : (c.request sch.nextId).length ≤ 511) (ready : w.tx = [])
    {a : Outcome × SimpleCtrlHandle} (run : c.run sch w = .ok (a, w')) :
    written w'.trace = requestBytes (c.request sch.nextId) :: written w.trace := by
  obtain ⟨k, isRun, silent, failed⟩ := call_asks sch c
  have once : WritesOnce (requestBytes (c.request sch.nextId)) sch.toutMsec (c.Fails sch)
      (c.run sch) w := by
    rw [isRun]
    apply (@sendRequest_of_short sch (c.request ·) short w).bind silent
    rintro _ rfl v
    obtain ⟨result, run, fails⟩ := failed v
    exact ⟨result, v, run, fails⟩
  exact once.whole ready run

/-- A call goes by the CTRL message that arrives, and reads no further. -/
theorem call_of_arrived {sch : SimpleCtrlHandle} {c : Call} {w : World} {others : List IpaFrame}
    {f : IpaFrame} {rest : List RxEvent} (sent : Sent sch (c.request sch.nextId) w)
    (arrives : Delivers sch.toutMsec (others ++ [f]) w.rx rest)
    (bounded : ∀ g ∈ others ++ [f], g.payload.length ≤ maxPayload)
    (skipped : ∀ g ∈ others, g.accepted = false) (ctrl : f.isCtrl = true) :
    ∃ o t, c.run sch w = .ok ((o, sch.next),
        { rx := rest, tx := txAfter sch (c.request sch.nextId) w, trace := t }) ∧
      o.answer = c.answer sch.nextId f.text := by
  have received (tx : List TxEvent) (t : List Event) :=
    @simpleCtrlReceive_of_delivers sch.next { w with tx, trace := t } others f rest arrives bounded
      skipped ctrl
  cases c with
  | get var =>
    obtain ⟨value, t, run, isValue⟩ :=
      @simpleCtrlExchange_of_received _ sch (getRequest · var) none _ w _ _ _ sent received
        (getReplied_ok sch var f.text)
    exact ⟨.value value, t, bind_ok run _, congrArg Sum.inl isValue⟩
  | set var val =>
    obtain ⟨ok, t, run, isOk⟩ :=
      @simpleCtrlExchange_of_received _ sch (setRequest · var val) false _ w _ _ _ sent received
        (setReplied_ok sch var val f.text)
    exact ⟨.status ok, t, bind_ok run _, congrArg Sum.inr isOk⟩

/-- Nothing is under way, and the peer reads what is written. -/
def Ends.Idle {σ : Type} (l : Ends σ) : Prop := l.world.rx = [] ∧ l.world.tx = []

section

variable {σ : Type} {serve : Call → σ → Verdict × σ} {c : Call} {l l' : Ends σ} {o : Outcome}

theorem sent_of_idle (idle : l.Idle) (short : (c.request l.sch.nextId).length ≤ 511)
    (rx : List RxEvent) : Sent l.sch (c.request l.sch.nextId) { l.world with rx } := by
  refine ⟨Nat.lt_succ_of_le short, ?_⟩
  show (push _ _ l.world.tx).1 = _
  rw [idle.2]
  rfl

theorem hears_request (plain : c.Plain) {id : UInt32} (short : (c.request id).length ≤ 511)
    (s : σ) :
    hears serve (requestBytes (c.request id)) s =
      some ((serve c s).1.text (decimal id.toNat) c, (serve c s).2) := by
  rw [hears, readRequestFrame_request plain.noBlank short]
  rfl

/-- What a round comes to. -/
theorem round_direct (idle : l.Idle) (plain : c.Plain)
    (short : (c.request l.sch.nextId).length ≤ 511) (round : Round serve c l o l') :
    o.answer = (direct serve c l.peer).1 ∧ l'.peer = (direct serve c l.peer).2 ∧
      l'.sch = l.sch.next ∧ l'.Idle := by
  cases round with
  | @mk _ _ bytes text others f rx run writes heard skipped osmo payload arrives =>
    have isBytes : bytes = requestBytes (c.request l.sch.nextId) := by
      have wrote := call_writes l.sch short (by exact idle.2) run
      exact (List.cons.inj (writes.symm.trans wrote)).1
    rw [isBytes, hears_request plain short] at heard
    obtain ⟨rfl, isPeer⟩ := Prod.mk.inj (Option.some.inj heard)
    obtain ⟨room, noNul⟩ := verdict_text plain short (serve c l.peer).1
    have isText : f.text = (serve c l.peer).1.text (decimal l.sch.nextId.toNat) c := by
      rw [IpaFrame.text, payload, List.tail_cons, takeWhile_ne_zero noNul]
    have bounded : ∀ g ∈ others ++ [f], g.payload.length ≤ maxPayload := by
      rw [List.forall_mem_append, List.forall_mem_singleton, payload]
      exact ⟨fun g isOther => (skipped g isOther).2, room⟩
    have rejected : ∀ g ∈ others, g.accepted = false := by
      intro g isOther
      simp [IpaFrame.accepted, (skipped g isOther).1]
    rw [idle.1, List.nil_append] at run
    obtain ⟨o', t, run', answer⟩ := call_of_arrived (sent_of_idle idle short rx) arrives bounded
      rejected (by simp [IpaFrame.isCtrl, osmo, payload])
    rw [run', Except.ok.injEq, Prod.mk.injEq, Prod.mk.injEq] at run
    obtain ⟨⟨rfl, isHandle⟩, isWorld⟩ := run
    refine ⟨?_, isPeer.symm, isHandle.symm, ?_⟩
    · rw [answer, isText, answer_verdict plain, direct]
    · rw [Ends.Idle, ← isWorld]
      refine ⟨rfl, ?_⟩
      show (push _ _ l.world.tx).2 = []
      rw [idle.2]
      rfl

/-- The peer's answer can arrive in a segment of its own. -/
theorem exists_round (serve : Call → σ → Verdict × σ) (idle : l.Idle) (plain : c.Plain)
    (short : (c.request l.sch.nextId).length ≤ 511) : ∃ o l', Round serve c l o l' := by
  obtain ⟨room, noNul⟩ := verdict_text plain short (serve c l.peer).1
  have fits : ((serve c l.peer).1.text (decimal l.sch.nextId.toNat) c).length + 1 < 65536 := by
    simp only [maxPayload] at room
    omega
  have arrives : Delivers l.sch.toutMsec ([] ++ [ctrlFrame _ fits]) _ [] :=
    Delivers.data l.sch.toutMsec (ctrlFrame _ fits) []
  have bounded : ∀ g ∈ [] ++ [ctrlFrame _ fits], g.payload.length ≤ maxPayload := by
    simpa [ctrlFrame] using Nat.succ_le_of_lt room
  obtain ⟨o, t, run, -⟩ :=
    call_of_arrived (sent_of_idle idle short _) arrives bounded (by simp) rfl
  have others : ∀ g ∈ ([] : List IpaFrame),
      g.proto ≠ ipacProtoOsmo ∧ g.payload.length ≤ maxPayload := by simp
  have empty (rx : List RxEvent) :
      { l.world with rx := l.world.rx ++ rx } = { l.world with rx } := by
    rw [idle.1, List.nil_append]
  have run' := (congrArg (c.run l.sch) (empty _)).trans run
  have wrote := call_writes l.sch short (by exact idle.2) run'
  have heard := @hears_request _ serve _ plain _ short l.peer
  exact ⟨o, ⟨l.sch.next, _, _⟩, .mk run' wrote heard others rfl rfl arrives⟩

theorem requestId_zero (start : UInt32) : requestId start 0 = start := by
  simp [requestId]

/-! ## Conversations -/

/-- **On a connection to a peer that answers every request once, calls return what the peer has
    decided on them, in order, whatever messages of other protocols come in between.** -/
theorem remote_calls (serve : Call → σ → Verdict × σ) {calls : List Call} (idle : l.Idle)
    (plain : ∀ c ∈ calls, c.Plain)
    (short : ∀ (i : Nat) (c : Call), calls[i]? = some c →
      (c.request (requestId l.sch.nextId i)).length ≤ 511) :
    (∃ outcomes l', Conversation serve l calls outcomes l') ∧
      ∀ outcomes l', Conversation serve l calls outcomes l' →
        outcomes.map Outcome.answer = outputs (direct serve) calls l.peer ∧
          l'.peer = final (direct serve) calls l.peer ∧ l'.Idle := by
  induction calls generalizing l with
  | nil =>
    refine ⟨⟨[], l, .nil⟩, ?_⟩
    intro outcomes l' conversation
    cases conversation
    exact ⟨rfl, rfl, idle⟩
  | cons c calls ih =>
    rw [List.forall_mem_cons] at plain
    have here := short 0 c rfl
    rw [requestId_zero] at here
    -- a round leaves the connection idle, with the next id
    have later {o : Outcome} {l' : Ends σ} (round : Round serve c l o l') :=
      have ⟨_, _, isNext, idle'⟩ := round_direct idle plain.1 here round
      ih idle' plain.2 fun i d isCall => by
        rw [isNext]
        exact requestId_succ l.sch.nextId i ▸ short (i + 1) d isCall
    constructor
    · obtain ⟨o, l', round⟩ := exists_round serve idle plain.1 here
      obtain ⟨outcomes, l'', rest⟩ := (later round).1
      exact ⟨o :: outcomes, l'', .cons round rest⟩
    · intro outcomes l'' conversation
      cases conversation with
      | cons round rest =>
        obtain ⟨answer, isPeer, -, -⟩ := round_direct idle plain.1 here round
        obtain ⟨answers, ends, idle'⟩ := (later round).2 _ _ rest
        rw [isPeer] at answers ends
        exact ⟨by rw [List.map_cons, answer, answers, outputs], ends, idle'⟩

end

/-- A peer that holds one value. -/
def register : Call → AnswerText → Verdict × AnswerText
  | .get _, held => (.accepts held, held)
  | .set _ val, held =>
    if fits : val.length ≤ 65000 ∧ 0 ∉ val then
      (.accepts ⟨val, fits.1, fits.2⟩, ⟨val, fits.1, fits.2⟩)
    else (.refuses held, held)

/-- What has been set is what is got. -/
theorem remote_calls_register :
    ∃ outcomes l', Conversation register
        ⟨freshHandle, ⟨[], [], []⟩, ⟨ascii "1", by decide, by decide⟩⟩
        [.get (ascii "rf"), .set (ascii "rf") (ascii "2"), .get (ascii "rf")] outcomes l' ∧
      outcomes.map Outcome.answer =
        [.inl (some (ascii "1")), .inr true, .inl (some (ascii "2"))] := by
  have plain : ∀ c ∈ [Call.get (ascii "rf"), .set (ascii "rf") (ascii "2"), .get (ascii "rf")],
      c.Plain := by
    simp [Call.Plain, Call.var, Call.IsText, ascii, isspace]
  have short : ∀ (i : Nat) (c : Call),
      [Call.get (ascii "rf"), .set (ascii "rf") (ascii "2"), .get (ascii "rf")][i]? = some c →
      (c.request (requestId 0 i)).length ≤ 511 := by
    rintro (_ | _ | _ | i) c isCall <;> cases isCall <;> decide
  obtain ⟨⟨outcomes, l', conversation⟩, answers⟩ := remote_calls register
    (l := ⟨freshHandle, ⟨[], [], []⟩, ⟨ascii "1", by decide, by decide⟩⟩) ⟨rfl, rfl⟩ plain short
  exact ⟨outcomes, l', conversation, (answers outcomes l' conversation).1⟩

end OsmoSysmon
