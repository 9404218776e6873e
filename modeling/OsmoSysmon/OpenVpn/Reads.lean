import OsmoSysmon.OpenVpn.StateLine

/-! # Lines and reads

`read_cb` parses every read for itself and goes by its first byte.  The bytes of the
stream are tagged with the part they play in it, so that a way of cutting the tagged
stream is a way of cutting the stream, and `WellCut` is the condition on a read under
which no line is lost or made up.
-/

namespace OsmoSysmon

open CText

/-- The part that a byte of the stream plays. -/
inductive Role where
  /-- The first byte of a state line. -/
  | stateStart (line : CStr)
  /-- A later byte of the text of a state line. -/
  | stateRest
  /-- Another line, or a line end. -/
  | other
deriving DecidableEq, Repr

abbrev Tagged := List (UInt8 × Role)

def lineEnd : Tagged := [(13, .other), (10, .other)]

def tagLine (line : CStr) : Tagged :=
  match line with
  | [] => lineEnd
  | c :: cs =>
    if isdigit c then (c, .stateStart line) :: (cs.map (·, Role.stateRest) ++ lineEnd)
    else (c, .other) :: (cs.map (·, Role.other) ++ lineEnd)

def tagStream (lines : List CStr) : Tagged := lines.flatMap tagLine

/-- The state line that begins with a byte. -/
def startOf (x : UInt8 × Role) : Option CStr :=
  match x.2 with
  | .stateStart line => some line
  | _ => none

def untag (read : Tagged) : List UInt8 := read.map Prod.fst

/-- The read does not begin inside a state line, does not begin with a digit
    elsewhere, and has no state line beginning behind its first byte. -/
def WellCut (read : Tagged) : Prop :=
  match read with
  | [] => False
  | (c, role) :: rest =>
    role ≠ .stateRest ∧ (role = .other → isdigit c = false) ∧ ∀ x ∈ rest, startOf x = none

/-- `read_cb` on one read after the other. -/
def readAll (vpn : OpenvpnClient) (reads : List (List UInt8)) : OpenvpnClient :=
  reads.foldl (fun vpn read => readCb (some read) vpn) vpn

/-- What `parse_state` takes for a state line in a read. -/
def stateSeen (read : List UInt8) : Option CStr :=
  if IsStateLine read then some (stateText read) else none

/-! ## What the reads store -/

theorem readCb_stateSeen {read : List UInt8} (nonempty : read ≠ []) (vpn : OpenvpnClient) :
    readCb (some read) vpn = (stateSeen read).elim vpn fun text =>
      storeFields vpn 0 ((tokens comma text).take maxRespComponents) := by
  cases read with
  | nil => exact absurd rfl nonempty
  | cons c cs =>
    rw [readCb, parseState, stateSeen]
    by_cases digit : isdigit c = true
    · rw [if_pos digit, if_pos (show IsStateLine (c :: cs) = true from digit),
        parseTokens_eq_storeFields]
      rfl
    · rw [if_neg digit, if_neg (show ¬ IsStateLine (c :: cs) = true from digit)]
      rfl

/-- The client depends on the state lines that it sees, and on nothing else. -/
theorem readAll_eq_of_stateSeen {reads reads' : List (List UInt8)}
    (nonempty : ∀ r ∈ reads, r ≠ []) (nonempty' : ∀ r ∈ reads', r ≠ [])
    (same : reads.filterMap stateSeen = reads'.filterMap stateSeen) (vpn : OpenvpnClient) :
    readAll vpn reads = readAll vpn reads' := by
  -- one read after the other, only what is seen of it counts
  have folded : ∀ (rs : List (List UInt8)) (v : OpenvpnClient), (∀ r ∈ rs, r ≠ []) →
      readAll v rs = (rs.filterMap stateSeen).foldl (fun v text =>
        storeFields v 0 ((tokens comma text).take maxRespComponents)) v := by
    intro rs
    induction rs with
    | nil => intro v _; rfl
    | cons r rs ih =>
      intro v filled
      rw [readAll, List.foldl_cons, readCb_stateSeen (filled r List.mem_cons_self), ← readAll,
        ih _ fun r member => filled r (List.mem_cons_of_mem _ member), List.filterMap_cons]
      cases stateSeen r with
      | none => rfl
      | some text => rfl
  rw [folded reads vpn nonempty, folded reads' vpn nonempty', same]

/-- Read by itself, a line is seen when it is a state line. -/
theorem stateSeen_line {line : CStr} (text : Printable line) :
    stateSeen (line ++ [13, 10]) = if IsStateLine line then some line else none := by
  cases line with
  | nil => rfl
  | cons c cs =>
    rw [stateSeen, stateText_line text (by simp [isprint])]
    rfl

theorem filterMap_stateSeen_lines {lines : List CStr} (text : ∀ l ∈ lines, Printable l) :
    (lines.map (· ++ [13, 10])).filterMap stateSeen = lines.filter IsStateLine := by
  induction lines with
  | nil => rfl
  | cons line lines ih =>
    rw [List.map_cons, List.filterMap_cons, stateSeen_line (text line List.mem_cons_self),
      List.filter_cons, ih fun l member => text l (List.mem_cons_of_mem _ member)]
    cases IsStateLine line with
    | true => rfl
    | false => rfl

/-! ## What a well cut read shows -/

theorem startOf_tail {role : Role} (later : ∀ b, startOf (b, role) = none) (cs : CStr) :
    ∀ y ∈ cs.map (·, role) ++ lineEnd, startOf y = none := by
  intro y member
  rcases List.mem_append.mp member with inside | isEnd
  · obtain ⟨b, -, rfl⟩ := List.mem_map.mp inside
    exact later b
  · simp only [lineEnd, List.mem_cons, List.not_mem_nil, or_false] at isEnd
    rcases isEnd with rfl | rfl <;> rfl

/-- A line begins a state line at its first byte or nowhere. -/
theorem startOf_behind {line : CStr} {x : UInt8 × Role} {rest : Tagged}
    (tagged : tagLine line = x :: rest) : ∀ y ∈ rest, startOf y = none := by
  cases line with
  | nil =>
    cases tagged
    simp [startOf]
  | cons c cs =>
    rw [tagLine] at tagged
    split at tagged
    · cases tagged
      exact startOf_tail (fun _ => rfl) cs
    · cases tagged
      exact startOf_tail (fun _ => rfl) cs

/-- A line that begins with the first byte of a state line is that state line. -/
theorem tagLine_stateStart {first line : CStr} {c : UInt8} {rest : Tagged}
    (tagged : tagLine first = (c, .stateStart line) :: rest) :
    first = line ∧ isdigit c = true ∧
      ∃ cs, line = c :: cs ∧ rest = cs.map (·, Role.stateRest) ++ lineEnd := by
  cases first with
  | nil => cases tagged
  | cons d ds =>
    rw [tagLine] at tagged
    split at tagged
    · next digit =>
      cases tagged
      exact ⟨rfl, digit, ds, rfl, rfl⟩
    · cases tagged

theorem filterMap_startOf_line (line : CStr) :
    (tagLine line).filterMap startOf = [line].filter IsStateLine := by
  cases line with
  | nil => rfl
  | cons c cs =>
    obtain ⟨x, rest, tagged⟩ : ∃ x rest, tagLine (c :: cs) = x :: rest := by
      rw [tagLine]
      split <;> exact ⟨_, _, rfl⟩
    have behind : rest.filterMap startOf = [] :=
      List.filterMap_eq_nil_iff.mpr (startOf_behind tagged)
    rw [tagged, List.filterMap_cons, behind]
    rw [tagLine] at tagged
    by_cases digit : isdigit c = true
    · rw [if_pos digit] at tagged
      cases tagged
      simp [startOf, IsStateLine, digit]
    · rw [if_neg digit] at tagged
      cases tagged
      simp [startOf, IsStateLine, digit]

theorem filterMap_startOf_stream (lines : List CStr) :
    (tagStream lines).filterMap startOf = lines.filter IsStateLine := by
  induction lines with
  | nil => rfl
  | cons line lines ih =>
    rw [tagStream, List.flatMap_cons, List.filterMap_append, filterMap_startOf_line,
      ← tagStream, ih, ← List.filter_append]
    rfl

/-- Where a state line begins, its text follows, and a line end. -/
theorem stateStart_followed {lines : List CStr} {before after : Tagged} {c : UInt8} {line : CStr}
    (split : tagStream lines = before ++ (c, .stateStart line) :: after) :
    line ∈ lines ∧ isdigit c = true ∧ ∃ cs later, line = c :: cs ∧
      after = cs.map (·, Role.stateRest) ++ (13, .other) :: later := by
  induction lines generalizing before with
  | nil => simp [tagStream] at split
  | cons first lines ih =>
    rw [tagStream, List.flatMap_cons, ← tagStream] at split
    rcases List.append_eq_append_iff.mp split with ⟨between, -, later⟩ | ⟨inside, front, back⟩
    · -- in a later line
      obtain ⟨member, found⟩ := ih later
      exact ⟨List.mem_cons_of_mem _ member, found⟩
    · cases inside with
      | nil =>
        obtain ⟨member, found⟩ := ih (show tagStream lines = [] ++ _ from back.symm)
        exact ⟨List.mem_cons_of_mem _ member, found⟩
      | cons x inside =>
        rw [List.cons_append] at back
        obtain ⟨rfl, rfl⟩ := List.cons.inj back
        cases before with
        | nil =>
          obtain ⟨rfl, digit, cs, text, rest⟩ := tagLine_stateStart front
          refine ⟨List.mem_cons_self, digit, cs, (10, .other) :: tagStream lines, text, ?_⟩
          rw [rest, List.append_assoc]
          rfl
        | cons y before =>
          -- a state line does not begin behind the first byte of a line
          have hidden := startOf_behind front (c, .stateStart line) (by simp)
          cases hidden

/-- A read that begins a state line holds all of its text, or the next read would begin
    inside the text. -/
theorem text_in_read {cs : CStr} {rest after later : Tagged}
    (follows : rest ++ after = cs.map (·, Role.stateRest) ++ (13, .other) :: later)
    (next : ∀ x ∈ after.head?, x.2 ≠ .stateRest) :
    ∃ more, rest = cs.map (·, Role.stateRest) ++ more ∧
      ∀ b ∈ (untag more).head?, isprint b = false := by
  rcases List.append_eq_append_iff.mp follows with ⟨cut, inside, starts⟩ | ⟨more, whole, ends⟩
  · cases cut with
    | nil => exact ⟨[], by simpa using inside.symm, by simp [untag]⟩
    | cons x cut =>
      have part : x ∈ cs.map (·, Role.stateRest) := by simp [inside]
      obtain ⟨b, -, rfl⟩ := List.mem_map.mp part
      exact absurd rfl (next (b, .stateRest) (by simp [starts]))
  · refine ⟨more, whole, ?_⟩
    cases more with
    | nil => simp [untag]
    | cons x more =>
      obtain ⟨rfl, -⟩ := List.cons.inj ends
      simp [untag, isprint]

/-- A read shows the state line that begins in it. -/
theorem stateSeen_wellCut {lines : List CStr} (text : ∀ l ∈ lines, Printable l)
    {before read after : Tagged} (cut : tagStream lines = before ++ (read ++ after))
    (well : WellCut read) (next : ∀ x ∈ after.head?, x.2 ≠ .stateRest) :
    (stateSeen (untag read)).toList = read.filterMap startOf := by
  match read, well with
  | (c, role) :: rest, ⟨notInside, elsewhere, behind⟩ =>
    rw [List.filterMap_cons, List.filterMap_eq_nil_iff.mpr behind]
    cases role with
    | stateRest => exact absurd rfl notInside
    | other =>
      have noDigit : IsStateLine (untag ((c, .other) :: rest)) = false := elsewhere rfl
      rw [stateSeen, noDigit]
      rfl
    | stateStart line =>
      obtain ⟨member, digit, cs, later, rfl, follows⟩ := stateStart_followed cut
      have state : IsStateLine (untag ((c, .stateStart (c :: cs)) :: rest)) = true := digit
      obtain ⟨more, whole, stop⟩ := text_in_read follows next
      have seen : stateText (untag ((c, .stateStart (c :: cs)) :: rest)) = c :: cs := by
        have bytes : untag ((c, .stateStart (c :: cs)) :: rest) = (c :: cs) ++ untag more := by
          simp [untag, whole, List.map_map, Function.comp_def]
        rw [bytes, stateText_line (text _ member) stop]
      rw [stateSeen, state, if_pos rfl, seen]
      rfl

theorem filterMap_stateSeen_reads {lines : List CStr} (text : ∀ l ∈ lines, Printable l)
    {before : Tagged} {reads : List Tagged} (cut : tagStream lines = before ++ reads.flatten)
    (well : ∀ r ∈ reads, WellCut r) :
    (reads.map untag).filterMap stateSeen = reads.flatten.filterMap startOf := by
  induction reads generalizing before with
  | nil => rfl
  | cons read reads ih =>
    have others := fun r member => well r (List.mem_cons_of_mem read member)
    rw [List.flatten_cons] at cut
    -- what follows the read is the beginning of the next one
    have next : ∀ x ∈ reads.flatten.head?, x.2 ≠ .stateRest := by
      cases reads with
      | nil => simp
      | cons r reads =>
        have wellNext := others r List.mem_cons_self
        cases r with
        | nil => exact wellNext.elim
        | cons y r =>
          intro x first
          cases first
          exact wellNext.1
    have seen := stateSeen_wellCut text cut (well read List.mem_cons_self) next
    rw [← List.append_assoc] at cut
    rw [List.flatten_cons, List.filterMap_append, ← seen, ← ih cut others, List.map_cons,
      List.filterMap_cons]
    cases stateSeen (untag read) with
    | none => rfl
    | some line => rfl

/-- **Reads that begin no state line late, and none where there is none, show exactly
    the state lines of the stream, and leave the client as whole lines do.** -/
theorem openvpn_reads_of_wellCut {lines : List CStr} {reads : List Tagged}
    (text : ∀ l ∈ lines, Printable l) (cut : reads.flatten = tagStream lines)
    (well : ∀ r ∈ reads, WellCut r) (vpn : OpenvpnClient) :
    (reads.map untag).filterMap stateSeen = lines.filter IsStateLine ∧
      readAll vpn (reads.map untag) = readAll vpn (lines.map (· ++ [13, 10])) := by
  have seen : (reads.map untag).filterMap stateSeen = lines.filter IsStateLine := by
    have whole : tagStream lines = [] ++ reads.flatten := cut.symm
    rw [filterMap_stateSeen_reads text whole well, cut, filterMap_startOf_stream]
  refine ⟨seen, readAll_eq_of_stateSeen ?_ ?_ ?_ vpn⟩
  · intro r member
    obtain ⟨read, inReads, rfl⟩ := List.mem_map.mp member
    have wellRead := well read inReads
    cases read with
    | nil => exact wellRead.elim
    | cons x read => simp [untag]
  · intro r member
    obtain ⟨line, -, rfl⟩ := List.mem_map.mp member
    simp
  · rw [seen, filterMap_stateSeen_lines text]

/-- A greeting, then a response in one read with its `END`. -/
theorem openvpn_reads_response :
    readAll (connectedClient (ascii "OpenVPN") (ascii "localhost") 1195)
        ([tagLine (ascii ">INFO"), tagLine stateLineV213 ++ tagLine (ascii "END")].map untag) =
      readAll (connectedClient (ascii "OpenVPN") (ascii "localhost") 1195)
        ([ascii ">INFO", stateLineV213, ascii "END"].map (· ++ [13, 10])) := by
  refine (openvpn_reads_of_wellCut ?_ ?_ ?_ _).2
  · intro line member
    simp only [List.mem_cons, List.not_mem_nil, or_false] at member
    rcases member with rfl | rfl | rfl <;> exact ⟨by decide, List.all_eq_true.mp (by decide)⟩
  · rfl
  · intro read member
    simp only [List.mem_cons, List.not_mem_nil, or_false] at member
    rcases member with rfl | rfl <;> exact ⟨by decide, by decide, by decide⟩

/-- A state line behind a greeting in one read is lost; the end of a notification in
    a read of its own is taken for a state line. -/
theorem openvpn_reads_cut :
    (readAll (connectedClient (ascii "OpenVPN") (ascii "localhost") 1195)
        [ascii ">INFO\r\n1,A\r\n"]).remCfg.name ≠
      (readAll (connectedClient (ascii "OpenVPN") (ascii "localhost") 1195)
        [ascii ">INFO\r\n", ascii "1,A\r\n"]).remCfg.name ∧
    (readAll (connectedClient (ascii "OpenVPN") (ascii "localhost") 1195)
        [ascii ">STATE:", ascii "1,A\r\n"]).remCfg.name ≠
      (readAll (connectedClient (ascii "OpenVPN") (ascii "localhost") 1195)
        [ascii ">STATE:1,A\r\n"]).remCfg.name := by
  constructor <;> decide

end OsmoSysmon
