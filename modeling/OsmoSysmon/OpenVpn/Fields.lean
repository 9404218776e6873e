import OsmoSysmon.OpenVpn.Buffers

/-! # Fields by position

A state line is a row of comma-separated fields, and any of them behind the first may be
empty.  `StoresByPosition` is what a line is to leave behind, field by field;
`parseState_fields_iff` says for which lines `parse_state`, which counts the non-empty
fields, does so.
-/

namespace OsmoSysmon

open CText

/-- A field of a line; one that is missing is empty. -/
def fieldAt (fields : List CStr) (i : Nat) : CStr := fields.getD i []

/-- A decimal number that fits a port. -/
structure IsPort (s : CStr) : Prop where
  nonempty : s ≠ []
  digits : ∀ c ∈ s, isdigit c = true
  small : digitsValue s ≤ 65535

/-- The status that the first two fields behind the time stamp spell. -/
def statusBy (fields : List CStr) (name : CStr) : CStr :=
  if fieldAt fields 2 ≠ [] then fieldAt fields 1 ++ ascii " (" ++ fieldAt fields 2 ++ ascii ")"
  else if fieldAt fields 1 ≠ [] then fieldAt fields 1
  else name

/-- Each field that is not empty is stored by its position, and nowhere else. -/
structure StoresByPosition (fields : List CStr) (vpn vpn' : OpenvpnClient) : Prop where
  name : vpn'.remCfg.name = statusBy fields vpn.remCfg.name
  tunIp : vpn'.tunIp = if fieldAt fields 3 = [] then vpn.tunIp else some (fieldAt fields 3)
  remoteHost : vpn'.remCfg.remoteHost =
    if fieldAt fields 4 = [] then vpn.remCfg.remoteHost else some (fieldAt fields 4)
  noPort : fieldAt fields 5 = [] → vpn'.remCfg.remotePort = vpn.remCfg.remotePort
  port : IsPort (fieldAt fields 5) →
    vpn'.remCfg.remotePort.toNat = digitsValue (fieldAt fields 5)
  cfg : vpn'.cfg = vpn.cfg
  connected : vpn'.connected = vpn.connected

/-- No field that `parse_state` stores is empty in front of one that is not. -/
def NoGap (fields : List CStr) : Prop :=
  ∀ i j, 1 ≤ i → i < maxRespComponents → i < j → fieldAt fields i = [] → fieldAt fields j = []

/-! ## What the tokens leave behind -/

theorem atoi_of_digits {s : CStr} (port : IsPort s) : atoi s = digitsValue s := by
  obtain ⟨nonempty, digits, small⟩ := port
  have allDigits : s.takeWhile isdigit = s := List.takeWhile_eq_self_iff.mpr digits
  cases s with
  | nil => exact absurd rfl nonempty
  | cons c cs =>
    have digit := digits c List.mem_cons_self
    have noSpace : isspace c = false := isspace_of_isdigit digit
    have value : strtol (c :: cs) = digitsValue (c :: cs) := by
      rw [strtol, List.dropWhile_cons, noSpace]
      simp only [Bool.false_eq_true, if_false]
      split
      · next isPlus =>
        cases isPlus
        cases digit
      · next isMinus =>
        cases isMinus
        cases digit
      · rw [allDigits, longMax]
        omega
    rw [atoi, value]
    exact Int.bmod_eq_of_le (by omega) (by omega)

theorem port_of_atoi {s : CStr} (port : IsPort s) :
    (UInt16.ofInt (atoi s)).toNat = digitsValue s := by
  have small := port.small
  rw [atoi_of_digits port, UInt16.ofInt, UInt16.toNat_ofNat']
  omega

/-- The client after tokens at these positions. -/
def storedAt (toks : List CStr) (vpn : OpenvpnClient) : OpenvpnClient where
  cfg := vpn.cfg
  remCfg :=
    { name := statusBy toks vpn.remCfg.name
      remoteHost :=
        if fieldAt toks 4 = [] then vpn.remCfg.remoteHost else some (fieldAt toks 4)
      remotePort :=
        if fieldAt toks 5 = [] then vpn.remCfg.remotePort
        else UInt16.ofInt (atoi (fieldAt toks 5)) }
  tunIp := if fieldAt toks 3 = [] then vpn.tunIp else some (fieldAt toks 3)
  connected := vpn.connected

theorem storedAt_stores (toks : List CStr) (vpn : OpenvpnClient) :
    StoresByPosition toks vpn (storedAt toks vpn) where
  name := rfl
  tunIp := rfl
  remoteHost := rfl
  noPort := fun empty => if_pos empty
  port := fun isPort => by
    rw [storedAt, if_neg isPort.nonempty]
    exact port_of_atoi isPort
  cfg := rfl
  connected := rfl

theorem parseState_eq_storedAt (m : List UInt8) (vpn : OpenvpnClient) :
    parseState m vpn = storedAt (stateTokens m) vpn := by
  have nonempty := fun t => @stateTokens_ne_nil m t
  have fits := stateTokens_length_le m
  rw [parseState_eq_storeFields]
  generalize stateTokens m = toks at nonempty fits
  -- by the number of tokens, up to the last one that is stored
  rcases toks with _ | ⟨t₀, _ | ⟨t₁, _ | ⟨t₂, more⟩⟩⟩
  · rfl
  · rfl
  · simp only [List.forall_mem_cons] at nonempty
    simp [storedAt, statusBy, fieldAt, nonempty]
    rfl
  · rw [storeFields_composed (nonempty t₀ List.mem_cons_self) fits]
    rcases more with _ | ⟨t₃, _ | ⟨t₄, _ | ⟨t₅, more⟩⟩⟩ <;>
      simp only [List.forall_mem_cons] at nonempty <;>
      simp [storeFields, storeToken, storedAt, statusBy, fieldAt, updateName, updateHost, nonempty]

/-! ## Tokens and fields -/

@[simp] theorem fieldAt_nil (i : Nat) : fieldAt [] i = [] := rfl

@[simp] theorem fieldAt_zero (f : CStr) (fields : List CStr) : fieldAt (f :: fields) 0 = f := rfl

@[simp] theorem fieldAt_succ (f : CStr) (fields : List CStr) (i : Nat) :
    fieldAt (f :: fields) (i + 1) = fieldAt fields i := rfl

/-- The tokens among the fields. -/
abbrev nonEmpty (fields : List CStr) : List CStr := fields.filter (· ≠ [])

theorem nonEmpty_eq_nil_iff {fields : List CStr} :
    nonEmpty fields = [] ↔ ∀ i, fieldAt fields i = [] := by
  induction fields with
  | nil => simp
  | cons f fields ih =>
    constructor
    · intro none i
      by_cases empty : f = []
      · rw [nonEmpty, List.filter_cons_of_neg (by simpa using empty)] at none
        cases i with
        | zero => exact empty
        | succ i => exact ih.mp none i
      · rw [nonEmpty, List.filter_cons_of_pos (by simpa using empty)] at none
        cases none
    · intro all
      rw [nonEmpty, List.filter_cons_of_neg (by simpa using all 0)]
      exact ih.mpr fun i => all (i + 1)

/-- Behind a gap the first token is the next field, if that is not empty. -/
theorem nonEmpty_head {fields : List CStr} (nonempty : nonEmpty fields ≠ []) :
    fieldAt (nonEmpty fields) 0 ≠ [] ∧
      (fieldAt fields 0 ≠ [] → fieldAt (nonEmpty fields) 0 = fieldAt fields 0) := by
  constructor
  · cases toks : nonEmpty fields with
    | nil => exact absurd toks nonempty
    | cons t toks' =>
      have member : t ∈ nonEmpty fields := toks ▸ List.mem_cons_self
      simpa using (List.mem_filter.mp member).2
  · intro here
    cases fields with
    | nil => exact absurd rfl here
    | cons f fields =>
      rw [nonEmpty, List.filter_cons_of_pos (by simpa using here)]
      rfl

/-- The first `n` tokens are the first `n` fields, unless there is a gap among these: a
    field that is empty in front of one that is not, and in whose place there is a token. -/
theorem tokens_aligned (fields : List CStr) (n : Nat) :
    ((∀ i < n, ∀ j > i, fieldAt fields i = [] → fieldAt fields j = []) ∧
        ∀ i < n, fieldAt (nonEmpty fields) i = fieldAt fields i) ∨
      ∃ gap < n, fieldAt fields gap = [] ∧ (∃ j > gap, fieldAt fields j ≠ []) ∧
        fieldAt (nonEmpty fields) gap ≠ [] ∧
        (fieldAt fields (gap + 1) ≠ [] →
          fieldAt (nonEmpty fields) gap = fieldAt fields (gap + 1)) ∧
        ∀ i < gap, fieldAt fields i ≠ [] ∧ fieldAt (nonEmpty fields) i = fieldAt fields i := by
  -- by induction on the fields, up to the first empty one
  induction fields generalizing n with
  | nil => exact .inl ⟨by simp, by simp⟩
  | cons f fields ih =>
    cases n with
    | zero => exact .inl ⟨nofun, nofun⟩
    | succ n =>
      by_cases empty : f = []
      · have skipped : nonEmpty (f :: fields) = nonEmpty fields :=
          List.filter_cons_of_neg (by simpa using empty)
        rw [skipped]
        by_cases none : nonEmpty fields = []
        · have noField := nonEmpty_eq_nil_iff.mp (skipped.trans none)
          refine .inl ⟨fun i _ j _ _ => noField j, fun i _ => ?_⟩
          rw [none, noField i, fieldAt_nil]
        · obtain ⟨visible, next⟩ := nonEmpty_head none
          obtain ⟨j, later⟩ := not_forall.mp (mt nonEmpty_eq_nil_iff.mpr none)
          exact .inr ⟨0, Nat.succ_pos n, empty, ⟨j + 1, Nat.succ_pos j, later⟩, visible, next, nofun⟩
      · have kept : nonEmpty (f :: fields) = f :: nonEmpty fields :=
          List.filter_cons_of_pos (by simpa using empty)
        rw [kept]
        rcases ih n with ⟨noGap, same⟩ | ⟨gap, inside, isEmpty, ⟨j, later, isField⟩, visible, next,
          before⟩
        · left
          constructor
          · intro i inside j later isEmpty
            cases i with
            | zero => exact absurd isEmpty empty
            | succ i =>
              obtain ⟨j, rfl⟩ : ∃ k, j = k + 1 := ⟨j - 1, by omega⟩
              exact noGap i (by omega) j (by omega) isEmpty
          · intro i inside
            cases i with
            | zero => rfl
            | succ i => exact same i (by omega)
        · refine .inr ⟨gap + 1, by omega, isEmpty, ⟨j + 1, by omega, isField⟩, visible, next,
            fun i inside => ?_⟩
          cases i with
          | zero => exact ⟨empty, rfl⟩
          | succ i => exact before i (by omega)

theorem statusBy_congr {fields fields' : List CStr} (first : fieldAt fields 1 = fieldAt fields' 1)
    (second : fieldAt fields 2 = fieldAt fields' 2) (name : CStr) :
    statusBy fields name = statusBy fields' name := by
  rw [statusBy, statusBy, first, second]

theorem storedAt_congr {toks toks' : List CStr}
    (same : ∀ i < maxRespComponents, fieldAt toks i = fieldAt toks' i) (vpn : OpenvpnClient) :
    storedAt toks vpn = storedAt toks' vpn := by
  have inside : ∀ i, i ≤ 5 → fieldAt toks i = fieldAt toks' i := fun i small =>
    same i (Nat.lt_succ_of_le small)
  rw [storedAt, storedAt, statusBy_congr (inside 1 (by decide)) (inside 2 (by decide)),
    inside 3 (by decide), inside 4 (by decide), inside 5 (by decide)]

/-! ## Gaps -/

/-- A client of which nothing is known. -/
def blankClient (port : UInt16) : OpenvpnClient where
  cfg := hostCfgAlloc [] none 0
  remCfg := hostCfgAlloc [] none port
  tunIp := none
  connected := true

theorem length_statusBy {fields : List CStr} :
    (statusBy fields []).length =
      if fieldAt fields 2 = [] then (fieldAt fields 1).length
      else (fieldAt fields 1).length + 3 + (fieldAt fields 2).length := by
  rw [statusBy]
  by_cases second : fieldAt fields 2 = []
  · rw [if_neg (not_not.mpr second), if_pos second]
    by_cases first : fieldAt fields 1 = []
    · rw [if_neg (not_not.mpr first), first]
    · rw [if_pos first]
  · rw [if_pos second, if_neg second]
    simp only [List.length_append, show (ascii " (").length = 2 from rfl,
      show (ascii ")").length = 1 from rfl]
    omega

/-- A token in the place of an empty field is stored there. -/
theorem stored_of_gap {fields toks : List CStr} {gap : Nat} (behind : 1 ≤ gap)
    (inside : gap < maxRespComponents) (empty : fieldAt fields gap = [])
    (visible : fieldAt toks gap ≠ [])
    (next : fieldAt fields (gap + 1) ≠ [] → fieldAt toks gap = fieldAt fields (gap + 1))
    (before : ∀ i < gap, fieldAt toks i = fieldAt fields i) :
    ∃ vpn, ¬ StoresByPosition fields vpn (storedAt toks vpn) := by
  have first := List.length_pos_iff.mpr visible
  match gap, behind, inside with
  | 1, _, _ =>
    -- the name is made of the wrong fields
    refine ⟨blankClient 0, fun stored => ?_⟩
    have lengths : (statusBy toks []).length = (statusBy fields []).length :=
      congrArg List.length stored.name
    rw [length_statusBy, length_statusBy, empty] at lengths
    by_cases second : fieldAt fields 2 = []
    · rw [if_pos second] at lengths
      split at lengths <;> simp only [List.length_nil] at lengths <;> omega
    · have follows : fieldAt toks 1 = fieldAt fields 2 := next second
      rw [if_neg second, follows] at lengths
      split at lengths
      · simp only [List.length_nil] at lengths
        omega
      · next third =>
        have more := List.length_pos_iff.mpr third
        simp only [List.length_nil] at lengths
        omega
  | 2, _, _ =>
    refine ⟨blankClient 0, fun stored => ?_⟩
    have lengths : (statusBy toks []).length = (statusBy fields []).length :=
      congrArg List.length stored.name
    rw [length_statusBy, length_statusBy, if_pos empty, if_neg visible, before 1 (by decide)]
      at lengths
    omega
  | 3, _, _ =>
    refine ⟨blankClient 0, fun stored => ?_⟩
    have tunIp := stored.tunIp
    rw [storedAt, if_pos empty, if_neg visible] at tunIp
    cases tunIp
  | 4, _, _ =>
    refine ⟨blankClient 0, fun stored => ?_⟩
    have remoteHost := stored.remoteHost
    rw [storedAt, if_pos empty, if_neg visible] at remoteHost
    cases remoteHost
  | 5, _, _ =>
    -- any port but the one that the token spells
    refine ⟨blankClient (UInt16.ofInt (atoi (fieldAt toks 5)) + 1), fun stored => ?_⟩
    have port := stored.noPort empty
    rw [storedAt, if_neg visible] at port
    have port : UInt16.ofInt (atoi (fieldAt toks 5)) =
      UInt16.ofInt (atoi (fieldAt toks 5)) + 1 := port
    simp at port

theorem fieldAt_zero_ne_nil {line : CStr} (state : IsStateLine line = true) :
    fieldAt (line.splitOn comma) 0 ≠ [] := by
  cases line with
  | nil => cases state
  | cons c cs =>
    have noComma : c ≠ comma := by
      rintro rfl
      cases state
    rw [List.splitOn_cons_eq_if_modifyHead, if_neg (by simpa using noComma)]
    cases fields : cs.splitOn comma with
    | nil => exact absurd fields (List.splitOn_ne_nil _ _)
    | cons f fields => exact List.cons_ne_nil _ _

/-- **A state line is stored by position, whatever the client has stored before, if and only
    if no field behind the time stamp that is stored is empty in front of one that is
    not.** -/
theorem parseState_fields_iff {line : CStr} (text : Printable line)
    (state : IsStateLine line = true) {rest : List UInt8}
    (stop : ∀ c ∈ rest.head?, isprint c = false) :
    (∀ vpn, StoresByPosition (line.splitOn comma) vpn (parseState (line ++ rest) vpn)) ↔
      NoGap (line.splitOn comma) := by
  have isState : IsStateLine (line ++ rest) = true := by
    rw [← isStateLine_stateText, stateText_line text stop]
    exact state
  have isToks : stateTokens (line ++ rest) = nonEmpty (line.splitOn comma) := by
    rw [stateTokens, if_pos isState, stateText_line text stop]
    rfl
  have first := fieldAt_zero_ne_nil state
  simp only [parseState_eq_storedAt, isToks]
  rcases tokens_aligned (line.splitOn comma) maxRespComponents with
    ⟨noGap, same⟩ | ⟨gap, inside, empty, ⟨j, later, isField⟩, visible, next, before⟩
  · constructor
    · exact fun _ i j _ inside later empty => noGap i inside j later empty
    · intro _ vpn
      rw [storedAt_congr same]
      exact storedAt_stores _ vpn
  · have behind : 1 ≤ gap := by
      apply Nat.one_le_iff_ne_zero.mpr
      rintro rfl
      exact first empty
    constructor
    · intro stored
      obtain ⟨vpn, wrong⟩ := stored_of_gap behind inside empty visible next
        fun i inside => (before i inside).2
      exact absurd (stored vpn) wrong
    · intro noGap
      exact absurd (noGap gap j behind inside later empty) isField

/-- A response with all of its fields. -/
theorem parseState_fields_current :
    StoresByPosition (stateLineCurrent.splitOn comma) (blankClient 0)
      (parseState (stateLineCurrent ++ ascii "\r\nEND\r\n") (blankClient 0)) := by
  have filled : ∀ i < maxRespComponents, fieldAt (stateLineCurrent.splitOn comma) i ≠ [] := by
    decide
  have stop : ∀ c ∈ (ascii "\r\nEND\r\n").head?, isprint c = false := by
    rintro c ⟨rfl⟩
    decide
  exact (parseState_fields_iff ⟨by decide, List.all_eq_true.mp (by decide)⟩ (by decide)
    stop).mpr (fun i _ _ inside _ empty => absurd empty (filled i inside)) (blankClient 0)

/-- With an empty description the tunnel address is shown as the description, and is not
    stored as the tunnel address. -/
theorem parseState_fields_shifted :
    (parseState (ascii "1552674378,ASSIGN_IP,,10.8.0.2\r\nEND\r\n") (blankClient 0)).tunIp = none ∧
    ¬ ∀ vpn, StoresByPosition ((ascii "1552674378,ASSIGN_IP,,10.8.0.2").splitOn comma) vpn
      (parseState (ascii "1552674378,ASSIGN_IP,,10.8.0.2" ++ ascii "\r\nEND\r\n") vpn) := by
  constructor
  · decide
  · intro stores
    have tunIp := (stores (blankClient 0)).tunIp
    revert tunIp
    decide

end OsmoSysmon
