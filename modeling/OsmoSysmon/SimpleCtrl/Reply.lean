import OsmoSysmon.SimpleCtrl.Arrival
import OsmoSysmon.SimpleCtrl.Request

/-! # Replies

A reply to a request repeats its id and its variable and ends in the value.
`getAnswer` and `setAnswer` are what the client makes of a text, as functions of
the text alone; on a reply they see the first word of the value.
-/

namespace OsmoSysmon

open CText Scanf

/-- The text of a reply. -/
def reply (verb : CStr) (id : UInt32) (var val : CStr) : CStr :=
  verb ++ (ascii " " ++ decimal id.toNat ++ ascii " " ++ var ++ ascii " " ++ val)

/-- What `simple_ctrl_get` returns for a text that it received for the request `id`. -/
def getAnswer (id : UInt32) (var text : CStr) : Option CStr :=
  match replyFields (ascii "GET_REPLY") text with
  | some (rxId, rxVar, rxVal) =>
    if rxId.toUInt32 = id ∧ var = rxVar then some (rxVal.getD []) else none
  | none => none

/-- Whether `simple_ctrl_set` returns 0 for a text that it received for the request `id`. -/
def setAnswer (id : UInt32) (var val text : CStr) : Bool :=
  match replyFields (ascii "SET_REPLY") text with
  | some (rxId, rxVar, some rxVal) => rxId.toUInt32 == id && var == rxVar && val == rxVal
  | _ => false

/-! ## Scanning a reply -/

theorem sscanf_reply (verb : CStr) (id : UInt32) (var val : CStr) :
    sscanf (replyFormat verb) (reply verb id var val) =
      .num id.toNat :: sscanf [.space, .ms, .space, .ms] (32 :: (var ++ 32 :: val)) := by
  have small : id.toNat < 0x100000000 := id.toNat_lt
  have blank : ascii " " = [32] := rfl
  obtain ⟨d, ds, digits⟩ := List.exists_cons_of_ne_nil (decimal_ne_nil id.toNat)
  -- the format's blank skips nothing in front of a digit
  have front : ∀ rest, skipSpace (decimal id.toNat ++ rest) = decimal id.toNat ++ rest := by
    intro rest
    have digit : isdigit d = true := isdigit_of_mem_decimal (n := id.toNat) (by simp [digits])
    rw [digits, List.cons_append, skipSpace_of_head (isspace_of_isdigit digit)]
  have number := scanUnsigned_decimal small (32 :: (var ++ 32 :: val)) (by simp [isdigit])
  rw [replyFormat, reply, sscanf_lits_append, blank]
  simp only [List.append_assoc, List.cons_append, List.nil_append, sscanf, skipSpace_blank,
    skipSpace_skipSpace, front, number]

/-- A name is stored whole, and then the first word of the value. -/
theorem sscanf_name {var : CStr} (nonempty : var ≠ []) (word : ∀ c ∈ var, isspace c = false)
    (val : CStr) : sscanf [.space, .ms, .space, .ms] (32 :: (var ++ 32 :: val)) =
      .str var :: (word? val).toList.map .str := by
  have front : skipSpace (32 :: (var ++ 32 :: val)) = var ++ 32 :: val := by
    obtain ⟨c, cs, rfl⟩ := List.exists_cons_of_ne_nil nonempty
    rw [skipSpace_blank, List.cons_append, skipSpace_of_head (word c List.mem_cons_self)]
  -- the blank behind the name ends the word
  have scanned := scanWord_append nonempty word (32 :: val) (by simp [isspace])
  rw [sscanf, sscanf, skipSpace_skipSpace, front, scanned, ← sscanf_ms_last]
  rfl

/-- The number that is stored is the reply's id, and the variable is a name. -/
theorem replyFields_inv {verb var val rxVar : CStr} {id : UInt32} {rxId : Nat} {rxVal : Option CStr}
    (h : replyFields verb (reply verb id var val) = some (rxId, rxVar, rxVal)) :
    rxId = id.toNat ∧ rxVar ≠ [] ∧ ∀ c ∈ rxVar, isspace c = false := by
  -- with or without a value, the first two conversions are the same
  have inv : ∀ (n : Nat) (v : CStr) (cs : List Conv),
      sscanf (replyFormat verb) (reply verb id var val) = .num n :: .str v :: cs →
      n = id.toNat ∧ v ≠ [] ∧ ∀ c ∈ v, isspace c = false := by
    intro n v cs scanned
    rw [sscanf_reply] at scanned
    obtain ⟨number, rest⟩ := List.cons.inj scanned
    obtain ⟨w, left, word, same, -⟩ := sscanf_ms_inv rest
    cases number
    cases same
    exact ⟨rfl, word?_word (Option.map_eq_some_iff.mpr ⟨_, word, rfl⟩)⟩
  simp only [replyFields] at h
  split at h
  · next scanned => cases h; exact inv _ _ _ scanned
  · next scanned => cases h; exact inv _ _ _ scanned
  · cases h

/-- A reply for a name is scanned into its id, the name and the first word of its
    value. -/
theorem replyFields_name (verb : CStr) (id : UInt32) {var : CStr} (nonempty : var ≠ [])
    (word : ∀ c ∈ var, isspace c = false) (val : CStr) :
    replyFields verb (reply verb id var val) = some (id.toNat, var, word? val) := by
  simp only [replyFields]
  rw [sscanf_reply, sscanf_name nonempty word]
  cases word? val with
  | none => rfl
  | some w => rfl

theorem getAnswer_id {id rxId : UInt32} {var rxVar val v : CStr}
    (h : getAnswer id var (reply (ascii "GET_REPLY") rxId rxVar val) = some v) : rxId = id := by
  simp only [getAnswer] at h
  split at h
  · next fields =>
    obtain ⟨rfl, -⟩ := replyFields_inv fields
    split at h
    · next found => simpa using found.1
    · cases h
  · cases h

/-- A reply to the request gives the first word of its value, and nothing for a
    variable that is not a name. -/
theorem getAnswer_reply (id : UInt32) (var val v : CStr) :
    getAnswer id var (reply (ascii "GET_REPLY") id var val) = some v ↔
      (var ≠ [] ∧ ∀ c ∈ var, isspace c = false) ∧ v = (word? val).getD [] := by
  by_cases name : var ≠ [] ∧ ∀ c ∈ var, isspace c = false
  · have fields := replyFields_name (ascii "GET_REPLY") id name.1 name.2 val
    have taken : getAnswer id var (reply (ascii "GET_REPLY") id var val) =
        some ((word? val).getD []) := by
      simp [getAnswer, fields]
    rw [taken, Option.some.injEq]
    exact ⟨fun same => ⟨name, same.symm⟩, fun h => h.2.symm⟩
  -- what `%ms` stores is never empty and has no blank, so it is not this variable
  · refine iff_of_false (fun h => name ?_) fun h => name h.1
    simp only [getAnswer] at h
    split at h
    · next fields =>
      split at h
      · next found =>
        rw [found.2]
        exact (replyFields_inv fields).2
      · cases h
    · cases h

theorem setAnswer_id {id rxId : UInt32} {var val rxVar rxVal : CStr}
    (h : setAnswer id var val (reply (ascii "SET_REPLY") rxId rxVar rxVal) = true) : rxId = id := by
  simp only [setAnswer] at h
  split at h
  · next fields =>
    obtain ⟨rfl, -⟩ := replyFields_inv fields
    simp only [Bool.and_eq_true, beq_iff_eq] at h
    simpa using h.1.1
  · cases h

/-- A reply to the request confirms the first word of its value. -/
theorem setAnswer_reply (id : UInt32) (var val rxVal : CStr) :
    setAnswer id var val (reply (ascii "SET_REPLY") id var rxVal) = true ↔
      (var ≠ [] ∧ ∀ c ∈ var, isspace c = false) ∧ word? rxVal = some val := by
  by_cases name : var ≠ [] ∧ ∀ c ∈ var, isspace c = false
  · have fields := replyFields_name (ascii "SET_REPLY") id name.1 name.2 rxVal
    cases word : word? rxVal with
    | none => simp [setAnswer, fields, word]
    | some w =>
      have compared : setAnswer id var val (reply (ascii "SET_REPLY") id var rxVal) = (val == w) := by
        simp [setAnswer, fields, word]
      rw [compared, beq_iff_eq]
      exact ⟨fun same => ⟨name, by rw [same]⟩, fun h => (Option.some.inj h.2).symm⟩
  -- what `%ms` stores is never empty and has no blank, so it is not this variable
  · refine iff_of_false (fun h => name ?_) fun h => name h.1
    simp only [setAnswer] at h
    split at h
    · next fields =>
      simp only [Bool.and_eq_true, beq_iff_eq] at h
      rw [h.1.2]
      exact (replyFields_inv fields).2
    · cases h

/-! ## What the client makes of a text -/

@[simp] theorem idMatches_next (sch : SimpleCtrlHandle) (rxId : Nat) :
    idMatches sch.next rxId = (rxId.toUInt32 == sch.nextId) := by
  simp [idMatches, SimpleCtrlHandle.next]

/-- The scan stores the fields in strings of their own. -/
theorem scanReply_ok (verb text : CStr) (w : World) :
    ∃ scanned t, scanReply verb text w = .ok (scanned, { w with trace := t }) ∧
      scanned.map (fun s => (s.1, s.2.1.text, s.2.2.map HeapStr.text)) = replyFields verb text := by
  match fields : replyFields verb text with
  | none => exact ⟨none, w.trace, by rw [scanReply, fields]; rfl, rfl⟩
  | some (n, v, none) =>
    exact ⟨some (n, ⟨_, v⟩, none), _, by rw [scanReply, fields]; rfl, rfl⟩
  | some (n, v, some x) =>
    exact ⟨some (n, ⟨_, v⟩, some ⟨_, x⟩), _, by rw [scanReply, fields]; rfl, rfl⟩

theorem getReplied_ok (sch : SimpleCtrlHandle) (var text : CStr) (w : World) :
    ∃ result t, getReplied var sch.next text w = .ok (result, { w with trace := t }) ∧
      result.map HeapStr.text = getAnswer sch.nextId var text := by
  obtain ⟨scanned, t, run, fields⟩ := scanReply_ok (ascii "GET_REPLY") text w
  rw [getAnswer, ← fields]
  rw [getReplied, Loop.bind_ok run]
  match scanned with
  | none => exact ⟨none, t, rfl, rfl⟩
  -- an empty string is allocated in place of the missing value
  | some (n, rxVar, none) =>
    by_cases mine : n.toUInt32 = sch.nextId ∧ var = rxVar.text
    · refine ⟨some ⟨t.length, []⟩, .strFree rxVar.id :: .strAlloc t.length :: t, ?_, ?_⟩
      · simp only [idMatches_next, beq_iff_eq, mine, and_self, if_true]
        rfl
      · simp [mine]
    · refine ⟨none, .strFree t.length :: .strFree rxVar.id :: .strAlloc t.length :: t, ?_, ?_⟩
      · simp only [idMatches_next, beq_iff_eq, mine, if_false]
        rfl
      · simp [mine]
  | some (n, rxVar, some rxVal) =>
    by_cases mine : n.toUInt32 = sch.nextId ∧ var = rxVar.text
    · refine ⟨some rxVal, .strFree rxVar.id :: t, ?_, ?_⟩
      · simp only [idMatches_next, beq_iff_eq, mine, and_self, if_true]
        rfl
      · simp [mine]
    · refine ⟨none, .strFree rxVal.id :: .strFree rxVar.id :: t, ?_, ?_⟩
      · simp only [idMatches_next, beq_iff_eq, mine, if_false]
        rfl
      · simp [mine]

theorem setReplied_ok (sch : SimpleCtrlHandle) (var val text : CStr) (w : World) :
    ∃ ok t, setReplied var val sch.next text w = .ok (ok, { w with trace := t }) ∧
      ok = setAnswer sch.nextId var val text := by
  obtain ⟨scanned, t, run, fields⟩ := scanReply_ok (ascii "SET_REPLY") text w
  rw [setAnswer, ← fields, setReplied, Loop.bind_ok run]
  match scanned with
  | none => exact ⟨false, t, rfl, rfl⟩
  | some (n, rxVar, none) => exact ⟨false, t, rfl, rfl⟩
  | some (n, rxVar, some rxVal) =>
    simp only [idMatches_next, Option.map_some]
    exact ⟨_, .strFree rxVar.id :: .strFree rxVal.id :: t, rfl, rfl⟩

/-! ## Exchanges -/

/-- The first CTRL message that arrives, behind messages for other protocols,
    carries `text`. -/
def FirstMessage (tout : UInt32) (rx : List RxEvent) (text : CStr) : Prop :=
  ∃ skipped f rest, Delivers tout (skipped ++ [f]) rx rest ∧
    (∀ g ∈ skipped ++ [f], g.payload.length ≤ maxPayload) ∧
    (∀ g ∈ skipped, g.proto ≠ ipacProtoOsmo) ∧
    f.proto = ipacProtoOsmo ∧ f.payload = ipacProtoExtCtrl :: text

/-- A message that arrives in one segment. -/
theorem firstMessage_data (tout : UInt32) {text : CStr} (short : text.length < maxPayload)
    (rx : List RxEvent) : FirstMessage tout (.data (requestBytes text) :: rx) text := by
  have fits : (ipacProtoExtCtrl :: text).length < 65536 := by
    simp only [maxPayload, List.length_cons] at short ⊢
    omega
  have delivered := Delivers.data tout ⟨ipacProtoOsmo, ipacProtoExtCtrl :: text, fits⟩ rx
  exact ⟨[], _, rx, delivered, by simpa [Nat.succ_le_iff] using short, by simp, rfl, rfl⟩

theorem FirstMessage.firstCtrl {tout : UInt32} {rx : List RxEvent} {text : CStr}
    (first : FirstMessage tout rx text) : FirstCtrl tout rx (text.takeWhile (· ≠ 0)) := by
  obtain ⟨skipped, f, rest, delivered, bounded, others, osmo, payload⟩ := first
  refine ⟨skipped, f, rest, delivered, bounded, fun g member => ?_, ?_, by rw [payload]; rfl⟩
  · simp [IpaFrame.accepted, others g member]
  · simp [IpaFrame.isCtrl, osmo, payload]

/-- An exchange goes by the message that is received, once the request is out. -/
theorem simpleCtrlExchange_of_received {α : Type} {sch : SimpleCtrlHandle}
    {request : UInt32 → CStr} {failed : α} {replied : SimpleCtrlHandle → CStr → Sys α} {w : World}
    {text : CStr} {rest : List RxEvent} {P : α → Prop} (sent : Sent sch (request sch.nextId) w)
    (received : ∀ tx t, ∃ m t', simpleCtrlReceive sch.next { w with tx, trace := t } =
        .ok (some m, { rx := rest, tx, trace := t' }) ∧ ∀ v, msgbL2Text m v = .ok (text, v))
    (answer : ∀ v : World, ∃ a t, replied sch.next text v = .ok (a, { v with trace := t }) ∧ P a) :
    ∃ a t, simpleCtrlExchange sch request failed replied w =
      .ok ((a, sch.next), { rx := rest, tx := txAfter sch (request sch.nextId) w, trace := t }) ∧
        P a := by
  obtain ⟨t, requested⟩ := simpleCtrlRequest_of_sent sent
  obtain ⟨m, t', received, text_eq⟩ := received (txAfter sch (request sch.nextId) w) t
  rw [Loop.bind_ok received] at requested
  obtain ⟨a, t'', replied_eq, holds⟩ :=
    answer { rx := rest, tx := txAfter sch (request sch.nextId) w, trace := t' }
  refine ⟨a, .msgbFree m.id :: t'', ?_, holds⟩
  rw [simpleCtrlExchange, Loop.bind_ok requested]
  simp only
  rw [Loop.bind_ok (text_eq _), Loop.bind_ok replied_eq]
  rfl

/-- An exchange whose first CTRL message carries `text` ends in what the client makes of
    it. -/
theorem simpleCtrlExchange_of_firstCtrl {α : Type} {sch : SimpleCtrlHandle}
    {request : UInt32 → CStr} {failed : α} {replied : SimpleCtrlHandle → CStr → Sys α} {w : World}
    {text : CStr} {P : α → Prop} (sent : Sent sch (request sch.nextId) w)
    (first : FirstCtrl sch.toutMsec w.rx text)
    (answer : ∀ v : World, ∃ a t, replied sch.next text v = .ok (a, { v with trace := t }) ∧ P a) :
    ∃ a w', simpleCtrlExchange sch request failed replied w = .ok ((a, sch.next), w') ∧ P a := by
  obtain ⟨skipped, f, rest, delivered, bounded, others, ctrl, rfl⟩ := first
  obtain ⟨a, t, run, holds⟩ := simpleCtrlExchange_of_received sent (fun tx t =>
    @simpleCtrlReceive_of_delivers sch.next { w with tx, trace := t } skipped f rest delivered
      bounded others ctrl) answer
  exact ⟨a, _, run, holds⟩

/-- An exchange whose first read goes wrong fails. -/
theorem simpleCtrlExchange_of_none {α : Type} {sch : SimpleCtrlHandle}
    {request : UInt32 → CStr} {failed : α} {replied : SimpleCtrlHandle → CStr → Sys α} {w : World}
    {rx : List RxEvent} (sent : Sent sch (request sch.nextId) w)
    (stopped : readFrame sch.toutMsec w.rx = .ok (none, rx))
    (short : ∀ n ∈ headerLength sch.toutMsec w.rx, n ≤ maxPayload) :
    ∃ t, simpleCtrlExchange sch request failed replied w =
      .ok ((failed, sch.next), { rx, tx := txAfter sch (request sch.nextId) w, trace := t }) := by
  obtain ⟨t, requested⟩ := simpleCtrlRequest_of_sent sent
  obtain ⟨t', turn⟩ := @receiveTurn_of_none sch.next
    { w with tx := txAfter sch (request sch.nextId) w, trace := t } rx stopped short
  rw [Loop.bind_ok (simpleCtrlReceive_leave turn)] at requested
  refine ⟨t', ?_⟩
  rw [simpleCtrlExchange, Loop.bind_ok requested]
  rfl

theorem simpleCtrlGet_of_first {sch : SimpleCtrlHandle} {var text : CStr} {w : World}
    (sent : Sent sch (getRequest sch.nextId var) w)
    (first : FirstMessage sch.toutMsec w.rx text) (noNul : 0 ∉ text) :
    ∃ result w', simpleCtrlGet sch var w = .ok ((result, sch.next), w') ∧
      result.map HeapStr.text = getAnswer sch.nextId var text := by
  have isFirst := first.firstCtrl
  rw [takeWhile_ne_zero noNul] at isFirst
  exact simpleCtrlExchange_of_firstCtrl sent isFirst (getReplied_ok sch var text)

theorem simpleCtrlSet_of_first {sch : SimpleCtrlHandle} {var val text : CStr} {w : World}
    (sent : Sent sch (setRequest sch.nextId var val) w)
    (first : FirstMessage sch.toutMsec w.rx text) (noNul : 0 ∉ text) :
    ∃ w', simpleCtrlSet sch var val w =
      .ok ((setAnswer sch.nextId var val text, sch.next), w') := by
  have isFirst := first.firstCtrl
  rw [takeWhile_ne_zero noNul] at isFirst
  have exchange : ∃ a w', simpleCtrlSet sch var val w = .ok ((a, sch.next), w') ∧
      a = setAnswer sch.nextId var val text :=
    simpleCtrlExchange_of_firstCtrl sent isFirst (setReplied_ok sch var val text)
  obtain ⟨a, w', run, rfl⟩ := exchange
  exact ⟨w', run⟩

/-! ## Values that come back -/

theorem reply_free_of_nul {verb var val : CStr} (id : UInt32) (verbFree : 0 ∉ verb)
    (varFree : 0 ∉ var) (valFree : 0 ∉ val) : 0 ∉ reply verb id var val := by
  have digits : 0 ∉ decimal id.toNat := fun member => by
    simpa using isdigit_of_mem_decimal member
  simp [reply, verbFree, varFree, valFree, digits, ascii]

/-- Printable text is a word when it has no blank. -/
theorem isspace_of_printable {s : CStr} (printable : ∀ c ∈ s, isprint c = true) :
    (∀ c ∈ s, isspace c = false) ↔ 32 ∉ s := by
  constructor
  · intro word blank
    exact absurd (word 32 blank) (by decide)
  · intro free c member
    rw [← Bool.not_eq_true, isspace_of_isprint (printable c member)]
    rintro rfl
    exact free member

/-- **A value comes back exactly as the peer replied it if and only if it has no
    blank; a value that was set is confirmed if and only if it is not empty either.** -/
theorem simpleCtrl_value_iff {sch : SimpleCtrlHandle} {var value : CStr} {w v : World}
    (word : ∀ c ∈ var, isspace c = false ∧ c ≠ 0) (printable : ∀ c ∈ value, isprint c = true)
    (getSent : Sent sch (getRequest sch.nextId var) w)
    (getReply : FirstMessage sch.toutMsec w.rx (reply (ascii "GET_REPLY") sch.nextId var value))
    (setSent : Sent sch (setRequest sch.nextId var value) v)
    (setReply : FirstMessage sch.toutMsec v.rx (reply (ascii "SET_REPLY") sch.nextId var value)) :
    ((∃ s w', simpleCtrlGet sch var w = .ok ((some s, sch.next), w') ∧ s.text = value) ↔
      var ≠ [] ∧ 32 ∉ value) ∧
    ((∃ v', simpleCtrlSet sch var value v = .ok ((true, sch.next), v')) ↔
      var ≠ [] ∧ value ≠ [] ∧ 32 ∉ value) := by
  have varFree : 0 ∉ var := fun member => (word 0 member).2 rfl
  have varWord : ∀ c ∈ var, isspace c = false := fun c member => (word c member).1
  have valueFree : 0 ∉ value := fun member => ne_zero_of_isprint (printable 0 member) rfl
  have blankFree := isspace_of_printable printable
  constructor
  · obtain ⟨result, w', run, text⟩ := simpleCtrlGet_of_first getSent getReply
      (reply_free_of_nul _ (by decide) varFree valueFree)
    have returned : (∃ s w', simpleCtrlGet sch var w = .ok ((some s, sch.next), w') ∧
        s.text = value) ↔ result.map HeapStr.text = some value := by
      rw [run]
      constructor
      · rintro ⟨s, w'', same, rfl⟩
        cases same
        rfl
      · intro found
        obtain ⟨s, rfl, rfl⟩ := Option.map_eq_some_iff.mp found
        exact ⟨s, w', rfl, rfl⟩
    rw [returned, text, getAnswer_reply, eq_comm, word?_getD_eq_self_iff, blankFree]
    exact ⟨fun h => ⟨h.1.1, h.2⟩, fun h => ⟨⟨h.1, varWord⟩, h.2⟩⟩
  · obtain ⟨v', run⟩ := simpleCtrlSet_of_first setSent setReply
      (reply_free_of_nul _ (by decide) varFree valueFree)
    have returned : (∃ v', simpleCtrlSet sch var value v = .ok ((true, sch.next), v')) ↔
        setAnswer sch.nextId var value (reply (ascii "SET_REPLY") sch.nextId var value) = true := by
      rw [run]
      constructor
      · rintro ⟨v'', same⟩
        cases answer : setAnswer sch.nextId var value
            (reply (ascii "SET_REPLY") sch.nextId var value) with
        | true => rfl
        | false => rw [answer] at same; cases same
      · intro confirmed
        rw [confirmed]
        exact ⟨v', rfl⟩
    rw [returned, setAnswer_reply, word?_eq_self_iff, blankFree]
    exact ⟨fun h => ⟨h.1.1, h.2⟩, fun h => ⟨⟨h.1, varWord⟩, h.2⟩⟩

/-- A connection on which a text arrives and every `write` is complete. -/
def incoming (text : CStr) : World where
  rx := [.data (requestBytes text)]
  tx := []
  trace := []

/-- The value of a variable that holds a number. -/
theorem simpleCtrl_value_number :
    (∃ s w', simpleCtrlGet freshHandle (ascii "rf")
        (incoming (reply (ascii "GET_REPLY") 0 (ascii "rf") (ascii "1"))) =
          .ok ((some s, freshHandle.next), w') ∧ s.text = ascii "1") ∧
    ∃ v', simpleCtrlSet freshHandle (ascii "rf") (ascii "1")
        (incoming (reply (ascii "SET_REPLY") 0 (ascii "rf") (ascii "1"))) =
          .ok ((true, freshHandle.next), v') := by
  have both := @simpleCtrl_value_iff freshHandle (ascii "rf") (ascii "1")
    (incoming (reply (ascii "GET_REPLY") 0 (ascii "rf") (ascii "1")))
    (incoming (reply (ascii "SET_REPLY") 0 (ascii "rf") (ascii "1")))
    (by simp [ascii, isspace]) (by simp [ascii, isprint])
    ⟨by decide, by decide⟩ (firstMessage_data _ (by decide) [])
    ⟨by decide, by decide⟩ (firstMessage_data _ (by decide) [])
  exact ⟨both.1.mpr (by decide), both.2.mpr (by decide)⟩

/-- A value of two words loses the second one, and its confirmation is not taken. -/
theorem simpleCtrl_value_cut :
    (∃ s w', simpleCtrlGet freshHandle (ascii "rf")
        (incoming (reply (ascii "GET_REPLY") 0 (ascii "rf") (ascii "a b"))) =
          .ok ((some s, freshHandle.next), w') ∧ s.text = ascii "a") ∧
    ∃ v', simpleCtrlSet freshHandle (ascii "rf") (ascii "a b")
        (incoming (reply (ascii "SET_REPLY") 0 (ascii "rf") (ascii "a b"))) =
          .ok ((false, freshHandle.next), v') := by
  constructor
  · obtain ⟨result, w', run, text⟩ := @simpleCtrlGet_of_first freshHandle (ascii "rf")
      (reply (ascii "GET_REPLY") 0 (ascii "rf") (ascii "a b"))
      (incoming (reply (ascii "GET_REPLY") 0 (ascii "rf") (ascii "a b")))
      ⟨by decide, by decide⟩ (firstMessage_data _ (by decide) []) (by decide)
    have cut : getAnswer freshHandle.nextId (ascii "rf")
      (reply (ascii "GET_REPLY") 0 (ascii "rf") (ascii "a b")) = some (ascii "a") := by decide
    obtain ⟨s, rfl, same⟩ := Option.map_eq_some_iff.mp (text.trans cut)
    exact ⟨s, w', run, same⟩
  · exact @simpleCtrlSet_of_first freshHandle (ascii "rf") (ascii "a b")
      (reply (ascii "SET_REPLY") 0 (ascii "rf") (ascii "a b"))
      (incoming (reply (ascii "SET_REPLY") 0 (ascii "rf") (ascii "a b")))
      ⟨by decide, by decide⟩ (firstMessage_data _ (by decide) []) (by decide)

end OsmoSysmon
