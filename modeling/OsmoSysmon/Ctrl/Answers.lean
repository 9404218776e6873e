import OsmoSysmon.Ctrl.Reports
import OsmoSysmon.Cycle.Netdev
import OsmoSysmon.SimpleCtrl.Unsolicited

/-! # Variables that the peer rejects

`simple_ctrl_get` returns `NULL` for an error that the peer answers with as well as for a
connection that is gone, and the loop of `ctrl_client_poll` closes the connection for
either.  `ctrlClientPoll_answered_iff` says when a poll shows what has been answered, and
`ctrl_polls_answered` says it of the client in memory, for every poll of a run.
-/

namespace OsmoSysmon

open CText Scanf Loop Effect

/-- What becomes of the request for a variable. -/
inductive PeerAnswer where
  | value (val : CStr)
  | rejected (reason : CStr)
  /-- The request is too long for its buffer, and is not sent. -/
  | unasked

/-- The message that answers the request `id`. -/
def PeerAnswer.text (id : UInt32) (var : CStr) : PeerAnswer → Option CStr
  | .value val => some (reply (ascii "GET_REPLY") id var val)
  | .rejected reason => some (ascii "ERROR " ++ decimal id.toNat ++ ascii " " ++ reason)
  | .unasked => none

/-- The peer gets every request that is sent, and its answer is there in time. -/
inductive Answering (answers : CStr → PeerAnswer) : Link → List CStr → Prop
  | done {link : Link} : Answering answers link []
  | unasked {link : Link} {var : CStr} {vars : List CStr} : answers var = .unasked →
      512 ≤ (getRequest link.handle.nextId var).length → Answering answers link (var :: vars)
  | answered {link : Link} {var text : CStr} {vars : List CStr} {f : IpaFrame}
      {rest : List RxEvent} :
      (answers var).text link.handle.nextId var = some text → 0 ∉ text →
      Sent link.handle (getRequest link.handle.nextId var) link.peer →
      f.proto = ipacProtoOsmo → f.payload = ipacProtoExtCtrl :: text →
      Delivers link.handle.toutMsec [f] link.peer.rx rest →
      (∀ trace, Answering answers ⟨link.handle.next,
        ⟨rest, txAfter link.handle (getRequest link.handle.nextId var) link.peer, trace⟩⟩ vars) →
      Answering answers link (var :: vars)

/-- Every variable has a value, in a message that fits its buffer. -/
def Valued (answers : CStr → PeerAnswer) : UInt32 → List CStr → Prop
  | _, [] => True
  | id, var :: vars =>
    (∃ val, answers var = .value val ∧
      (reply (ascii "GET_REPLY") id var val).length < maxPayload) ∧ Valued answers (id + 1) vars

/-- The variables that are answered with `GET_REPLY`, with their values. -/
def answered (answers : CStr → PeerAnswer) : List CStr → List (CStr × CStr)
  | [] => []
  | var :: vars =>
    match answers var with
    | .value val => (var, val) :: answered answers vars
    | .rejected _ => answered answers vars
    | .unasked => answered answers vars

/-- What is shown of an answer. -/
def PeerAnswer.shown : PeerAnswer → CStr
  | .value val => (word? val).getD []
  | .rejected _ => []
  | .unasked => []

/-! ## Single requests -/

section

variable {outcome : ConnectOutcome} {peer : World} {link : Link} {var : CStr}

theorem query_of_unsent
    (unsent : ¬ Sent link.handle (getRequest link.handle.nextId var) link.peer) :
    ((linkApi outcome peer).query link var).1 = none := by
  obtain ⟨tx, t, requested⟩ :=
    @simpleCtrlRequest_of_unsent link.handle (getRequest · var) link.peer unsent
  have run : simpleCtrlGet link.handle var link.peer =
      .ok ((none, link.handle.next), { link.peer with tx, trace := t }) := bind_ok requested _
  simp only [linkApi, run, Option.map_none]

section

variable {f : IpaFrame} {text : CStr} {rest : List RxEvent}
  (sent : Sent link.handle (getRequest link.handle.nextId var) link.peer)
  (payload : f.payload = ipacProtoExtCtrl :: text)
  (arrives : Delivers link.handle.toutMsec [f] link.peer.rx rest)

include sent payload arrives

/-- A message that fits its buffer is judged. -/
theorem query_of_delivers (osmo : f.proto = ipacProtoOsmo) (noNul : 0 ∉ text)
    (short : text.length < maxPayload) :
    ∃ t, (linkApi outcome peer).query link var =
      (getAnswer link.handle.nextId var text, ⟨link.handle.next,
        ⟨rest, txAfter link.handle (getRequest link.handle.nextId var) link.peer, t⟩⟩) := by
  have ctrl : f.isCtrl = true := by simp [IpaFrame.isCtrl, osmo, payload]
  have isText : f.payload.tail.takeWhile (· ≠ 0) = text := by
    rw [payload, List.tail_cons, takeWhile_ne_zero noNul]
  have fits : f.payload.length ≤ maxPayload := by
    rw [payload]
    exact short
  have received : ∀ tx t, ∃ m t', simpleCtrlReceive link.handle.next
      { link.peer with tx, trace := t } = .ok (some m, { rx := rest, tx, trace := t' }) ∧
        ∀ v, msgbL2Text m v = .ok (text, v) := by
    intro tx t
    rw [← isText]
    exact @simpleCtrlReceive_of_delivers link.handle.next { link.peer with tx, trace := t } [] f
      rest arrives (by simpa using fits) (by simp) ctrl
  obtain ⟨value, t, run, isValue⟩ :=
    @simpleCtrlExchange_of_received _ link.handle (getRequest · var) none (getReplied var)
      link.peer text rest _ sent received (getReplied_ok link.handle var text)
  have get : simpleCtrlGet link.handle var link.peer = _ := run
  refine ⟨t, ?_⟩
  simp only [linkApi, get, isValue]

theorem query_of_overlong (long : maxPayload ≤ text.length) :
    ((linkApi outcome peer).query link var).1 = none := by
  cases run : simpleCtrlGet link.handle var link.peer with
  | error fault => simp only [linkApi, run]
  | ok result =>
    -- a call that returns has not met such a message
    obtain ⟨⟨value, handle⟩, after⟩ := result
    have short := @short_of_call link.handle (.get var) link.peer _ _ _ _ _ _ sent arrives
      (bind_ok run _)
    rw [payload, List.length_cons] at short
    omega

end

/-- A request gets a value, or ends the loop. -/
theorem query_step {answers : CStr → PeerAnswer} {vars : List CStr}
    (answering : Answering answers link (var :: vars))
    (name : var ≠ [] ∧ ∀ c ∈ var, isspace c = false) (outcome : ConnectOutcome) (peer : World) :
    (∃ val next, (answers var = .value val ∧
        (reply (ascii "GET_REPLY") link.handle.nextId var val).length < maxPayload) ∧
      (linkApi outcome peer).query link var = (some (answers var).shown, next) ∧
      next.handle.nextId = link.handle.nextId + 1 ∧ Answering answers next vars) ∨
    (¬ ∃ val, answers var = .value val ∧
        (reply (ascii "GET_REPLY") link.handle.nextId var val).length < maxPayload) ∧
      ((linkApi outcome peer).query link var).1 = none := by
  cases answering with
  | unasked isUnasked long =>
    right
    refine ⟨?_, query_of_unsent fun sent => absurd sent.1 (Nat.not_lt.mpr long)⟩
    rintro ⟨val, isValue, -⟩
    cases isUnasked.symm.trans isValue
  | @answered _ _ text _ f rest isText noNul sent osmo payload arrives next =>
    cases isAnswer : answers var with
    | unasked =>
      rw [isAnswer] at isText
      cases isText
    | rejected reason =>
      right
      constructor
      · rintro ⟨val, isValue, -⟩
        cases isValue
      rcases Nat.lt_or_ge text.length maxPayload with short | long
      · obtain ⟨t, query⟩ := @query_of_delivers outcome peer link var f text rest sent payload
          arrives osmo noNul short
        rw [isAnswer] at isText
        cases isText
        rw [query, getAnswer_of_other (by simp [ascii])]
      · exact query_of_overlong sent payload arrives long
    | value val =>
      rw [isAnswer] at isText
      cases isText
      rcases Nat.lt_or_ge (reply (ascii "GET_REPLY") link.handle.nextId var val).length maxPayload
        with short | long
      · left
        obtain ⟨t, query⟩ := @query_of_delivers outcome peer link var f _ rest sent payload
          arrives osmo noNul short
        have word := (getAnswer_reply link.handle.nextId var val _).mpr ⟨name, rfl⟩
        refine ⟨val, _, ⟨rfl, short⟩, ?_, ?_, next t⟩
        · rw [query, word]
          rfl
        · rfl
      · right
        refine ⟨?_, query_of_overlong sent payload arrives long⟩
        rintro ⟨val', isValue, short⟩
        cases isValue
        exact absurd short (Nat.not_lt.mpr long)

end

/-! ## The loop -/

theorem varItems_of_failed {H : Type} {api : CtrlApi H} {sch : H} {var : CStr}
    (failed : (api.query sch var).1 = none) (vars : List CStr) :
    varItems api sch (var :: vars) = [] := by
  rw [varItems]
  cases query : api.query sch var with
  | mk value next =>
    rw [query] at failed
    obtain rfl : value = none := failed
    rfl

section

variable {answers : CStr → PeerAnswer} {link : Link} {vars : List CStr}

/-- Either every request gets a value and the connection is kept, or the connection is closed. -/
theorem pollGetVars_cases (answering : Answering answers link vars)
    (words : ∀ var ∈ vars, var ≠ [] ∧ ∀ c ∈ var, isspace c = false) (outcome : ConnectOutcome)
    (peer : World) :
    (Valued answers link.handle.nextId vars ∧
      varItems (linkApi outcome peer) link vars =
        vars.map (fun var => .value var (answers var).shown) ∧
      ∀ vn s r t, pollGetVars (linkApi outcome peer) vn link vars s = .ok (r, t) → r ≠ none) ∨
    (¬ Valued answers link.handle.nextId vars ∧
      ∀ vn s r t, pollGetVars (linkApi outcome peer) vn link vars s = .ok (r, t) → r = none) := by
  induction vars generalizing link with
  | nil =>
    refine .inl ⟨trivial, rfl, fun vn s r t run => ?_⟩
    cases run
    exact Option.some_ne_none link
  | cons var vars ih =>
    have others := fun other mem => words other (List.mem_cons_of_mem var mem)
    rcases query_step answering (words var List.mem_cons_self) outcome peer with
      ⟨val, next, valued, query, counted, answering'⟩ | ⟨unvalued, failed⟩
    · rcases ih answering' others with ⟨allValued, items, kept⟩ | ⟨notValued, closed⟩
      · left
        rw [counted] at allValued
        refine ⟨⟨⟨val, valued⟩, allValued⟩, ?_, fun vn s r t run => ?_⟩
        · rw [varItems, query, List.map_cons, ← items]
        · rw [pollGetVars, query] at run
          obtain ⟨_, s', -, run⟩ := bind_inv run
          exact kept vn s' r t run
      · right
        rw [counted] at notValued
        refine ⟨fun allValued => notValued allValued.2, fun vn s r t run => ?_⟩
        rw [pollGetVars, query] at run
        obtain ⟨_, s', -, run⟩ := bind_inv run
        exact closed vn s' r t run
    · right
      refine ⟨fun allValued => unvalued allValued.1, fun vn s r t run => ?_⟩
      rw [pollGetVars] at run
      cases query : (linkApi outcome peer).query link var with
      | mk value next =>
        rw [query] at failed
        obtain rfl : value = none := failed
        rw [query] at run
        cases run
        rfl

theorem mem_answered {v : CStr × CStr} :
    v ∈ answered answers vars ↔ v.1 ∈ vars ∧ answers v.1 = .value v.2 := by
  induction vars with
  | nil => simp [answered]
  | cons var vars ih =>
    rw [answered, List.mem_cons]
    cases isAnswer : answers var with
    | value val =>
      rw [List.mem_cons, ih, Prod.ext_iff]
      constructor
      · rintro (⟨rfl, rfl⟩ | ⟨mem, isValue⟩)
        · exact ⟨.inl rfl, isAnswer⟩
        · exact ⟨.inr mem, isValue⟩
      · rintro ⟨rfl | mem, isValue⟩
        · rw [isAnswer, PeerAnswer.value.injEq] at isValue
          exact .inl ⟨rfl, isValue.symm⟩
        · exact .inr ⟨mem, isValue⟩
    | rejected reason | unasked =>
      rw [ih]
      constructor
      · exact fun found => ⟨.inr found.1, found.2⟩
      · rintro ⟨rfl | mem, isValue⟩
        · cases isAnswer.symm.trans isValue
        · exact ⟨mem, isValue⟩

/-- Where every variable has a value, none is missing from what has been answered. -/
theorem names_answered {start : UInt32} (valued : Valued answers start vars) :
    (answered answers vars).map Prod.fst = vars := by
  induction vars generalizing start with
  | nil => rfl
  | cons var vars ih =>
    obtain ⟨⟨val, isValue, -⟩, others⟩ := valued
    rw [answered, isValue]
    exact congrArg (var :: ·) (ih others)

/-- What is shown is what has been answered if no value has white space in it. -/
theorem shown_eq_answered_iff {start : UInt32} (valued : Valued answers start vars) :
    (vars.map fun var => (var, (answers var).shown)) = answered answers vars ↔
      ∀ var ∈ vars, ∀ val, answers var = .value val → ∀ c ∈ val, isspace c = false := by
  have shown : (vars.map fun var => (var, (answers var).shown)) =
      (answered answers vars).map fun v => (v.1, (answers v.1).shown) := by
    conv_lhs => rw [← names_answered valued, List.map_map]
    rfl
  have same : (vars.map fun var => (var, (answers var).shown)) = answered answers vars ↔
      ∀ v ∈ answered answers vars, (v.1, (answers v.1).shown) = id v := by
    rw [shown, ← List.map_inj_left, List.map_id]
  rw [same]
  constructor
  · intro each var mem val isValue
    have this := each (var, val) (mem_answered.mpr ⟨mem, isValue⟩)
    rw [isValue] at this
    exact word?_getD_eq_self_iff.mp (congrArg Prod.snd this)
  · intro free v mem
    obtain ⟨isVar, isValue⟩ := mem_answered.mp mem
    rw [isValue, PeerAnswer.shown, word?_getD_eq_self_iff.mpr (free v.1 isVar v.2 isValue)]
    rfl

end

section

variable {s : Nodes} {q : Ptr} {info : NodeInfo} {f : NodeForest} {cc : CtrlClient Link}
  {outcome : ConnectOutcome} {peer : World} {link : Link} {answers : CStr → PeerAnswer}
  {vars : List CStr}

/-- A node with a value. -/
def valueTree (v : CStr × CStr) : NodeInfo × Forest NodeInfo := (⟨v.1, 0, some v.2⟩, .nil)

theorem valueTree_injective : Function.Injective valueTree := by
  intro v w same
  simp only [valueTree, Prod.mk.injEq, NodeInfo.mk.injEq, Option.some.injEq] at same
  exact Prod.ext same.1.1 same.1.2.2

theorem trees_values {values : List (CStr × CStr)} (distinct : (values.map Prod.fst).Nodup) :
    (reportItems (values.map fun v => .value v.1 v.2) .nil).trees = values.map valueTree := by
  have same : reportItems (values.map fun v => .value v.1 v.2) .nil = addChildren values .nil :=
    List.foldl_map ..
  rw [same, trees_addChildren distinct fun _ _ => List.not_mem_nil]
  rfl

/-- A poll of a client with a connection ends with its section and the handle of the loop. -/
theorem ctrlClientPoll_shows (holds : Holds s (.cons (q, info) f .nil))
    (new : cc.cfg.name ∉ names f.shape)
    (connected : (cc.sch <|> (linkApi outcome peer).connect cc.cfg) = some link) :
    ∃ n t r u, pollGetVars (linkApi outcome peer) n link cc.getVars t = .ok (r, u) ∧
      ctrlClientPoll (linkApi outcome peer) cc (some q) s = .ok ({ cc with sch := r }, u) ∧
      Shows u q (f.shape ++ .cons ⟨cc.cfg.name, 0, none⟩
        (reportItems (varItems (linkApi outcome peer) link cc.getVars) .nil) .nil) := by
  obtain ⟨n, t, r, u, run, loop, shows⟩ := shows_section holds new fun n =>
    pollGetVars_effect (linkApi outcome peer) (some n) link cc.getVars
  refine ⟨some n, t, r, u, loop, ?_, shows⟩
  rw [ctrlClientPoll, bind_ok run]
  simp only [connected]
  rw [bind_ok loop]
  rfl

/-- The items of a loop are the answered variables, and its connection is kept, if every
    request gets a value that is one word. -/
theorem answered_items_iff (distinct : vars.Nodup)
    (words : ∀ var ∈ vars, var ≠ [] ∧ ∀ c ∈ var, isspace c = false)
    (answering : Answering answers link vars) {n : Option Ptr} {r : Option Link} {t u : Nodes}
    (loop : pollGetVars (linkApi outcome peer) n link vars t = .ok (r, u)) :
    ((reportItems (varItems (linkApi outcome peer) link vars) .nil).trees =
        (answered answers vars).map valueTree ∧ r ≠ none) ↔
      Valued answers link.handle.nextId vars ∧
        ∀ var ∈ vars, ∀ val, answers var = .value val → ∀ c ∈ val, isspace c = false := by
  rcases pollGetVars_cases answering words outcome peer with
    ⟨valued, items, kept⟩ | ⟨notValued, closed⟩
  · have names : ((vars.map fun var => (var, (answers var).shown)).map Prod.fst).Nodup := by
      rw [List.map_map]
      exact (List.map_id _).symm ▸ distinct
    have trees := trees_values names
    rw [List.map_map] at trees
    rw [items, ← shown_eq_answered_iff valued]
    constructor
    · rintro ⟨same, -⟩
      exact ⟨valued, List.map_injective_iff.mpr valueTree_injective (trees.symm.trans same)⟩
    · rintro ⟨-, same⟩
      exact ⟨trees.trans (congrArg _ same), kept _ t r u loop⟩
  · refine iff_of_false ?_ fun both => notValued both.1
    rintro ⟨-, isKept⟩
    exact isKept (closed _ t r u loop)

/-- **A poll puts exactly the answered variables below the client's node, in order, and keeps
    the connection, if and only if every variable is answered with a value, without white
    space and in a message that fits its buffer.** -/
theorem ctrlClientPoll_answered_iff (holds : Holds s (.cons (q, info) f .nil))
    (new : cc.cfg.name ∉ names f.shape) (distinct : cc.getVars.Nodup)
    (words : ∀ var ∈ cc.getVars, var ≠ [] ∧ ∀ c ∈ var, isspace c = false)
    (connected : (cc.sch <|> (linkApi outcome peer).connect cc.cfg) = some link)
    (answering : Answering answers link cc.getVars) :
    ∃ cc' t g, ctrlClientPoll (linkApi outcome peer) cc (some q) s = .ok (cc', t) ∧
      Shows t q (f.shape ++ .cons ⟨cc.cfg.name, 0, none⟩ g .nil) ∧
      (g.trees = (answered answers cc.getVars).map valueTree ∧ cc'.sch ≠ none ↔
        Valued answers link.handle.nextId cc.getVars ∧
          ∀ var ∈ cc.getVars, ∀ val, answers var = .value val → ∀ c ∈ val, isspace c = false) := by
  obtain ⟨n, t, r, u, loop, run, shows⟩ := ctrlClientPoll_shows holds new connected
  exact ⟨{ cc with sch := r }, u, _, run, shows, answered_items_iff distinct words answering loop⟩

end

/-- A client with two variables and a connection. -/
def twoVariables (link : Link) : CtrlClient Link where
  cfg := hostCfgAlloc (ascii "bsc") (some (ascii "10.0.0.1")) 4249
  sch := some link
  getVars := [ascii "rf", ascii "uptime"]

/-- The peer's answers, of which only the first is left open. -/
def answersFirst (answer : PeerAnswer) (var : CStr) : PeerAnswer :=
  if var = ascii "rf" then answer else .value (ascii "60")

/-- A connection on which both answers arrive. -/
def linkTo (first : IpaFrame) : Link where
  handle := freshHandle
  peer := ⟨[.data first.encode,
    .data (ctrlFrame (ascii "GET_REPLY 1 uptime 60") (by decide)).encode], [], []⟩

theorem answering_first {answer : PeerAnswer} {text : CStr} (fits : text.length + 1 < 65536)
    (isText : answer.text 0 (ascii "rf") = some text) (noNul : 0 ∉ text) :
    Answering (answersFirst answer) (linkTo (ctrlFrame text fits)) [ascii "rf", ascii "uptime"] := by
  have short : (getRequest 0 (ascii "rf")).length < 512 ∧
      (getRequest 1 (ascii "uptime")).length < 512 := by decide
  refine .answered isText noNul ⟨short.1, rfl⟩ rfl rfl (.data _ _ _) fun trace => ?_
  have second : (answersFirst answer (ascii "uptime")).text 1 (ascii "uptime") =
      some (ascii "GET_REPLY 1 uptime 60") := by
    rw [answersFirst, if_neg (by decide)]
    decide
  exact .answered second (by decide) ⟨short.2, rfl⟩ rfl rfl (.data _ _ _) fun _ => .done

theorem words_two : ∀ var ∈ [ascii "rf", ascii "uptime"], var ≠ [] ∧ ∀ c ∈ var, isspace c = false := by
  simp [ascii, isspace]

/-- Both variables have a number. -/
theorem valued_two :
    Valued (answersFirst (.value (ascii "1"))) 0 [ascii "rf", ascii "uptime"] ∧
      ∀ var ∈ [ascii "rf", ascii "uptime"], ∀ val,
        answersFirst (.value (ascii "1")) var = .value val → ∀ c ∈ val, isspace c = false := by
  refine ⟨⟨⟨_, rfl, by decide⟩, ⟨_, rfl, by decide⟩, trivial⟩, ?_⟩
  intro var mem val isValue
  rcases List.mem_pair.mp mem with rfl | rfl
  · cases isValue
    simp [ascii, isspace]
  · cases isValue
    simp [ascii, isspace]

theorem ctrlClientPoll_answered_two :
    ∃ link cc' t g, ctrlClientPoll (linkApi .success (incoming [])) (twoVariables link) (some 1)
        sectionNode = .ok (cc', t) ∧
      Shows t 1 (.cons ⟨ascii "bsc", 0, none⟩ g .nil) ∧
      g.trees = [valueTree (ascii "rf", ascii "1"), valueTree (ascii "uptime", ascii "60")] ∧
      cc'.sch ≠ none := by
  let link := linkTo (ctrlFrame (ascii "GET_REPLY 0 rf 1") (by decide))
  have answering : Answering (answersFirst (.value (ascii "1"))) link (twoVariables link).getVars :=
    answering_first _ (by decide) (by decide)
  obtain ⟨cc', t, g, run, shows, shown⟩ := @ctrlClientPoll_answered_iff sectionNode 1 rootInfo .nil
    (twoVariables link) .success (incoming []) link _ holds_sectionNode List.not_mem_nil (by decide)
    words_two rfl answering
  have both := shown.mpr valued_two
  exact ⟨link, cc', t, g, run, shows, both.1, both.2⟩

/-- A variable that the peer rejects hides the one behind it, and ends the connection. -/
theorem ctrlClientPoll_hides :
    ∃ link, Answering (answersFirst (.rejected (ascii "unknown"))) link (twoVariables link).getVars ∧
      ∃ cc' t, ctrlClientPoll (linkApi .success (incoming [])) (twoVariables link) (some 1)
          sectionNode = .ok (cc', t) ∧
        Shows t 1 (.cons ⟨ascii "bsc", 0, none⟩ .nil .nil) ∧ cc'.sch = none ∧
        answered (answersFirst (.rejected (ascii "unknown"))) (twoVariables link).getVars =
          [(ascii "uptime", ascii "60")] := by
  let link := linkTo (ctrlFrame (ascii "ERROR 0 unknown") (by decide))
  have answering : Answering (answersFirst (.rejected (ascii "unknown"))) link
      (twoVariables link).getVars := answering_first _ (by decide) (by decide)
  refine ⟨link, answering, ?_⟩
  obtain ⟨n, t, r, u, loop, run, shows⟩ := @ctrlClientPoll_shows sectionNode 1 rootInfo .nil
    (twoVariables link) .success (incoming []) link holds_sectionNode List.not_mem_nil rfl
  have nothing : varItems (linkApi .success (incoming [])) link (twoVariables link).getVars = [] := by
    rcases query_step answering (words_two _ List.mem_cons_self) .success (incoming []) with
      ⟨val, next, valued, -⟩ | ⟨-, failed⟩
    · cases valued.1
    · exact varItems_of_failed failed _
  have closed : r = none := by
    rcases pollGetVars_cases answering words_two .success (incoming []) with
      ⟨valued, -⟩ | ⟨-, closed⟩
    · obtain ⟨⟨val, isValue, -⟩, -⟩ := valued
      cases isValue
    · exact closed _ t r u loop
  rw [nothing] at shows
  exact ⟨_, u, run, shows, closed, rfl⟩

/-! ## The client in memory -/

section

variable {cfg : HostCfg} {vars : List CStr} {peers : Nat → World}
  {path : List (Run.Transition Conn ConnEvent)}

/-- **In a run of polls of one client in memory, what a poll collects makes exactly the
    answered variables below the client's node, and the client keeps its connection, if and
    only if every variable is answered with a value, without white space and in a message that
    fits its buffer.** -/
theorem ctrl_polls_answered (run : Run.Path ConnStep (Conn.start cfg vars peers) path)
    (distinct : vars.Nodup) (words : ∀ var ∈ vars, var ≠ [] ∧ ∀ c ∈ var, isspace c = false) :
    ∀ x ∈ path, ∀ outcome, x.event = .poll outcome → ∀ link answers,
      x.before.pollLink outcome = some link → Answering answers link vars →
      ∃ ret values, Conn.ctrlClientPoll outcome x.before = .ok ((ret, values), x.after) ∧
        ∀ s q info f, Holds s (.cons (q, info) f .nil) → cfg.name ∉ names f.shape →
          ∃ t g, (do
              let vnClnt ← valueNodeAdd (some q) cfg.name none
              addValues vnClnt values : NodeM Unit) s = .ok ((), t) ∧
            Shows t q (f.shape ++ .cons ⟨cfg.name, 0, none⟩ g .nil) ∧
            (g.trees = (answered answers vars).map valueTree ∧ x.after.sch ≠ none ↔
              Valued answers link.handle.nextId vars ∧
                ∀ var ∈ vars, ∀ val, answers var = .value val →
                  ∀ c ∈ val, isspace c = false) := by
  intro x mem outcome isPoll link answers isLink answering
  obtain ⟨before, after, ret, values, mirrors, mirrors', poll, same⟩ :=
    ctrl_polls_report run x mem outcome isPoll
  refine ⟨ret, values, poll, fun s q info f holds new => ?_⟩
  rw [mirrors.pollLink_eq] at isLink
  obtain ⟨n, t, r, u, loop, shown, shows⟩ :=
    @ctrlClientPoll_shows s q info f ⟨cfg, before, vars⟩ outcome _ link holds new isLink
  rw [same, ← bind_assoc] at shown
  obtain ⟨_, u', filed, done⟩ := bind_inv shown
  cases done
  refine ⟨u, _, filed, shows, ?_⟩
  rw [← answered_items_iff distinct words answering loop, mirrors'.sch_ne_none]

end

/-- The client in memory, before its first poll. -/
def twoVariablesStart : Conn :=
  Conn.start (hostCfgAlloc (ascii "bsc") (some (ascii "10.0.0.1")) 4249)
    [ascii "rf", ascii "uptime"]
    fun _ => (linkTo (ctrlFrame (ascii "GET_REPLY 0 rf 1") (by decide))).peer

theorem twoVariablesStart_returns :
    ∃ result t, Conn.ctrlClientPoll .success twoVariablesStart = .ok (result, t) := by
  have returns : (Conn.ctrlClientPoll .success twoVariablesStart).isOk = true := by decide +kernel
  cases poll : Conn.ctrlClientPoll .success twoVariablesStart with
  | error fault =>
    rw [poll] at returns
    cases returns
  | ok found => exact ⟨found.1, found.2, rfl⟩

/-- One poll, which opens the connection. -/
theorem ctrl_polls_answered_first :
    ∃ t values, Run.Path ConnStep twoVariablesStart [⟨twoVariablesStart, .poll .success, t⟩] ∧
      t.sch ≠ none ∧ ∃ u g, (do
          let vnClnt ← valueNodeAdd (some 1) (ascii "bsc") none
          addValues vnClnt values : NodeM Unit) sectionNode = .ok ((), u) ∧
        Shows u 1 (.cons ⟨ascii "bsc", 0, none⟩ g .nil) ∧
        g.trees = [valueTree (ascii "rf", ascii "1"), valueTree (ascii "uptime", ascii "60")] := by
  obtain ⟨result, t, poll⟩ := twoVariablesStart_returns
  have run : Run.Path ConnStep twoVariablesStart [⟨twoVariablesStart, .poll .success, t⟩] :=
    .next (.poll rfl poll) .stop
  have answering : Answering (answersFirst (.value (ascii "1")))
      (linkTo (ctrlFrame (ascii "GET_REPLY 0 rf 1") (by decide))) [ascii "rf", ascii "uptime"] :=
    answering_first _ (by decide) (by decide)
  obtain ⟨ret, values, -, reports⟩ := ctrl_polls_answered run (by decide) words_two _
    List.mem_cons_self .success rfl _ _ rfl answering
  obtain ⟨u, g, filed, shows, shown⟩ :=
    reports sectionNode 1 rootInfo .nil holds_sectionNode List.not_mem_nil
  have both := shown.mpr valued_two
  exact ⟨t, values, run, both.2, u, g, filed, shows, both.1⟩

end OsmoSysmon
