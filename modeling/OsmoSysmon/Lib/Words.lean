import OsmoSysmon.Lib.CText

/-! # Words of a line

A line of text is an indentation and words with white space between them.  `words` takes
a line apart, `indented` puts one together, and what has been put together comes apart
into the same words.
-/

namespace CText

structure IsWord (word : CStr) : Prop where
  nonempty : word ≠ []
  solid : ∀ c ∈ word, isspace c = false

/-- Words with a blank between them. -/
def unwords : List CStr → CStr
  | [] => []
  | [word] => word
  | word :: next :: words => word ++ 32 :: unwords (next :: words)

def indented (indent : Nat) (line : List CStr) : CStr := List.replicate indent 32 ++ unwords line

/-- The words of a text, the first of which has already begun. -/
def wordsFrom (begun : CStr) : CStr → List CStr
  | [] => if begun = [] then [] else [begun]
  | c :: s =>
    if isspace c then
      if begun = [] then wordsFrom [] s else begun :: wordsFrom [] s
    else wordsFrom (begun ++ [c]) s

def words (s : CStr) : List CStr := wordsFrom [] s

def indentation (s : CStr) : Nat := (s.takeWhile isspace).length

/-- Text without white space. -/
def Solid (s : CStr) : Prop := ∀ c ∈ s, isspace c = false

/-- Text without a newline. -/
def OneLine (s : CStr) : Prop := 10 ∉ s

instance (s : CStr) : Decidable (Solid s) := List.decidableBAll (fun c => isspace c = false) s

instance (s : CStr) : Decidable (OneLine s) := inferInstanceAs (Decidable (¬ _))

theorem Solid.oneLine {s : CStr} (solid : Solid s) : OneLine s := by
  intro mem
  cases solid 10 mem

theorem Solid.append {s t : CStr} (first : Solid s) (second : Solid t) : Solid (s ++ t) := by
  intro c mem
  exact (List.mem_append.mp mem).elim (first c) (second c)

theorem OneLine.append {s t : CStr} (first : OneLine s) (second : OneLine t) :
    OneLine (s ++ t) := by
  intro mem
  exact (List.mem_append.mp mem).elim first second

theorem OneLine.take {s : CStr} (oneLine : OneLine s) (n : Nat) : OneLine (s.take n) :=
  fun mem => oneLine (List.mem_of_mem_take mem)

/-! ## Taking a text apart -/

theorem isWord_of_mem_wordsFrom {begun s word : CStr} (solid : ∀ c ∈ begun, isspace c = false)
    (mem : word ∈ wordsFrom begun s) : IsWord word := by
  induction s generalizing begun with
  | nil =>
    rw [wordsFrom] at mem
    split at mem
    · cases mem
    · next nonempty =>
      rw [List.mem_singleton.mp mem]
      exact ⟨nonempty, solid⟩
  | cons c s ih =>
    rw [wordsFrom] at mem
    split at mem
    · split at mem
      · exact ih (by simp) mem
      · next nonempty =>
        cases mem with
        | head => exact ⟨nonempty, solid⟩
        | tail _ later => exact ih (by simp) later
    · next notSpace =>
      apply ih _ mem
      intro d inBegun
      rcases List.mem_append.mp inBegun with old | new
      · exact solid d old
      · rw [List.mem_singleton.mp new]
        exact eq_false_of_ne_true notSpace

theorem isWord_of_mem_words {s word : CStr} (mem : word ∈ words s) : IsWord word :=
  isWord_of_mem_wordsFrom (by simp) mem

theorem wordsFrom_append {word : CStr} (solid : ∀ c ∈ word, isspace c = false) (begun s : CStr) :
    wordsFrom begun (word ++ s) = wordsFrom (begun ++ word) s := by
  induction word generalizing begun with
  | nil => rw [List.nil_append, List.append_nil]
  | cons c word ih =>
    rw [List.forall_mem_cons] at solid
    rw [List.cons_append, wordsFrom, solid.1, if_neg Bool.false_ne_true, ih solid.2,
      List.append_assoc, List.singleton_append]

theorem words_unwords {line : List CStr} (isLine : ∀ word ∈ line, IsWord word) :
    words (unwords line) = line := by
  induction line with
  | nil => rfl
  | cons word line ih =>
    rw [List.forall_mem_cons] at isLine
    obtain ⟨⟨nonempty, solid⟩, others⟩ := isLine
    cases line with
    | nil =>
      have whole := wordsFrom_append solid [] []
      rw [List.append_nil, List.nil_append] at whole
      rw [unwords, words, whole, wordsFrom, if_neg nonempty]
    | cons next line =>
      rw [unwords, words, wordsFrom_append solid, List.nil_append, wordsFrom,
        if_pos (show isspace 32 = true from rfl), if_neg nonempty, ← words, ih others]

theorem words_indented {line : List CStr} (isLine : ∀ word ∈ line, IsWord word) (indent : Nat) :
    words (indented indent line) = line := by
  induction indent with
  | zero => exact words_unwords isLine
  | succ indent ih => exact ih

/-- The first word starts where the indentation ends. -/
theorem indentation_indented {line : List CStr} (isLine : ∀ word ∈ line, IsWord word)
    (indent : Nat) (nonempty : line ≠ []) : indentation (indented indent line) = indent := by
  have stops : (unwords line).takeWhile isspace = [] := by
    cases line with
    | nil => exact absurd rfl nonempty
    | cons word line =>
      obtain ⟨nonempty, solid⟩ := isLine word List.mem_cons_self
      cases word with
      | nil => exact absurd rfl nonempty
      | cons c word =>
        have first := solid c List.mem_cons_self
        cases line with
        | nil => simp [unwords, first]
        | cons next line => simp [unwords, first]
  rw [indentation, indented, List.takeWhile_append_of_pos (by simp [isspace]), stops,
    List.append_nil, List.length_replicate]

end CText
