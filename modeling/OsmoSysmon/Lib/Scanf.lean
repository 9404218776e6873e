import Mathlib.Data.List.DropRight
import OsmoSysmon.Lib.CText

/-! # `sscanf`

A formatted reader over C strings: literal characters, white-space directives,
`%u` and `%ms`.  `sscanf` returns the converted values in order, so the C return
value is the length of the result (an input failure before the first conversion
returns `EOF` in C and no values here).

`%u` converts through `strtoul`, as the C library does: an optional sign, then
digits, saturating at `2 ^ 64 - 1`, then cut to 32 bits.  On numerals below
`2 ^ 32` it is the number itself (`scanUnsigned_decimal`).
-/

namespace Scanf

open CText

inductive Directive where
  | lit (c : UInt8)
  | space
  | u
  | ms
deriving DecidableEq, Repr

/-- One value stored by a conversion. -/
inductive Conv where
  | num (n : Nat)
  | str (s : CStr)
deriving DecidableEq, Repr

def skipSpace (s : CStr) : CStr := s.dropWhile isspace

/-- `ULONG_MAX`. -/
def ulongMax : Nat := 0xffffffffffffffff

/-- The digits of a `%u` conversion, with the sign that stood before them. -/
def scanDigits (negative : Bool) (s : CStr) : Option (Nat × CStr) :=
  if s.takeWhile isdigit = [] then none
  else
    let magnitude := digitsValue (s.takeWhile isdigit)
    let value :=
      if ulongMax < magnitude then ulongMax
      else if negative then (ulongMax + 1 - magnitude) % (ulongMax + 1)
      else magnitude
    some (value % 0x100000000, s.dropWhile isdigit)

/-- `%u`, on text that starts with no white space. -/
def scanUnsigned : CStr → Option (Nat × CStr)
  | 43 :: s => scanDigits false s
  | 45 :: s => scanDigits true s
  | s => scanDigits false s

/-- `%ms`, on text that starts with no white space. -/
def scanWord (s : CStr) : Option (CStr × CStr) :=
  if s.takeWhile (!isspace ·) = [] then none
  else some (s.takeWhile (!isspace ·), s.dropWhile (!isspace ·))

def sscanf : List Directive → CStr → List Conv
  | [], _ => []
  | .lit _ :: _, [] => []
  | .lit c :: ds, b :: s => if b = c then sscanf ds s else []
  | .space :: ds, s => sscanf ds (skipSpace s)
  | .u :: ds, s =>
    match scanUnsigned (skipSpace s) with
    | some (n, rest) => .num n :: sscanf ds rest
    | none => []
  | .ms :: ds, s =>
    match scanWord (skipSpace s) with
    | some (w, rest) => .str w :: sscanf ds rest
    | none => []

/-- The literal directives of a format's fixed text. -/
def lits (s : CStr) : List Directive := s.map .lit

/-! ## Rules -/

theorem skipSpace_of_head {c : UInt8} {s : CStr} (h : isspace c = false) :
    skipSpace (c :: s) = c :: s := by
  simp [skipSpace, h]

@[simp] theorem skipSpace_blank (s : CStr) : skipSpace (32 :: s) = skipSpace s := rfl

/-- Matching fixed text that is there consumes it. -/
theorem sscanf_lits_append (text : CStr) (ds : List Directive) (s : CStr) :
    sscanf (lits text ++ ds) (text ++ s) = sscanf ds s := by
  induction text with
  | nil => rfl
  | cons c text ih => simpa [lits, sscanf] using ih

/-- Fixed text that is not there stops the scan. -/
theorem sscanf_lits_eq_nil {text s : CStr} (h : ¬ text <+: s) (ds : List Directive) :
    sscanf (lits text ++ ds) s = [] := by
  induction text generalizing s with
  | nil => exact absurd (List.nil_prefix) h
  | cons c text ih =>
    cases s with
    | nil => rfl
    | cons b s =>
      simp only [lits, List.map_cons, List.cons_append, sscanf]
      split
      next same => subst same; exact ih fun p => h (List.cons_prefix_cons.mpr ⟨rfl, p⟩)
      next => rfl

/-- A run of characters of one class ends where the next text begins. -/
theorem span_append {p : UInt8 → Bool} {run rest : CStr} (inside : ∀ c ∈ run, p c = true)
    (stop : ∀ c ∈ rest.head?, p c = false) :
    (run ++ rest).takeWhile p = run ∧ (run ++ rest).dropWhile p = rest := by
  rw [List.takeWhile_append_of_pos inside, List.dropWhile_append_of_pos inside]
  cases rest with
  | nil => simp
  | cons c rest => simp [stop c rfl]

/-- `%u` takes a printed number off the front of the text. -/
theorem scanUnsigned_decimal {n : Nat} (small : n < 0x100000000) (rest : CStr)
    (stop : ∀ c ∈ rest.head?, isdigit c = false) :
    scanUnsigned (decimal n ++ rest) = some (n, rest) := by
  have digits : ∀ c ∈ decimal n, isdigit c = true := fun c => isdigit_of_mem_decimal
  obtain ⟨taken, left⟩ := span_append digits stop
  have unsigned : scanUnsigned (decimal n ++ rest) = scanDigits false (decimal n ++ rest) := by
    cases text : decimal n with
    | nil => exact absurd text (decimal_ne_nil n)
    | cons d ds =>
      -- a digit is no sign
      have digit := digits d (by simp [text])
      unfold scanUnsigned
      split <;> simp_all [isdigit]
  rw [unsigned, scanDigits, taken, left, digitsValue_decimal, if_neg (decimal_ne_nil n)]
  simp only [Option.some.injEq, Prod.mk.injEq, and_true]
  rw [if_neg (by simp only [ulongMax]; omega)]
  simpa using Nat.mod_eq_of_lt small

/-- `%ms` takes a word off the front of the text. -/
theorem scanWord_append {w : CStr} (nonempty : w ≠ []) (word : ∀ c ∈ w, isspace c = false)
    (rest : CStr) (stop : ∀ c ∈ rest.head?, isspace c = true) :
    scanWord (w ++ rest) = some (w, rest) := by
  have nonblank : ∀ c ∈ w, (!isspace c) = true := fun c member => by simp [word c member]
  obtain ⟨taken, left⟩ := span_append nonblank fun c head => by simp [stop c head]
  rw [scanWord, taken, left, if_neg nonempty]

/-- A word that `%ms` stores has no white space in it. -/
theorem scanWord_word {s w rest : CStr} (h : scanWord s = some (w, rest)) :
    ∀ c ∈ w, isspace c = false := by
  simp only [scanWord] at h
  split at h
  · cases h
  · cases h
    intro c member
    simpa using List.mem_takeWhile_imp member

/-! ## Words -/

/-- The first word of a text: what `%ms` stores. -/
def word? (s : CStr) : Option CStr := (scanWord (skipSpace s)).map Prod.fst

@[simp] theorem skipSpace_skipSpace (s : CStr) : skipSpace (skipSpace s) = skipSpace s := by
  simp [skipSpace, List.dropWhile_idempotent]

theorem sscanf_ms_last (s : CStr) : sscanf [.space, .ms] s = (word? s).toList.map .str := by
  simp only [sscanf, skipSpace_skipSpace, word?]
  cases scanWord (skipSpace s) with
  | none => rfl
  | some found => rfl

/-- A `%ms` in front of other directives stores the first word, or stops the scan. -/
theorem sscanf_ms_inv {ds : List Directive} {s : CStr} {c : Conv} {cs : List Conv}
    (h : sscanf (.space :: .ms :: ds) s = c :: cs) :
    ∃ w rest, scanWord (skipSpace s) = some (w, rest) ∧ c = .str w ∧ cs = sscanf ds rest := by
  simp only [sscanf, skipSpace_skipSpace] at h
  cases scanned : scanWord (skipSpace s) with
  | none => rw [scanned] at h; cases h
  | some found =>
    rw [scanned] at h
    cases h
    exact ⟨found.1, found.2, rfl, rfl, rfl⟩

theorem word?_word {s w : CStr} (h : word? s = some w) :
    w ≠ [] ∧ ∀ c ∈ w, isspace c = false := by
  obtain ⟨⟨w', rest⟩, scanned, rfl⟩ := Option.map_eq_some_iff.mp h
  refine ⟨?_, scanWord_word scanned⟩
  simp only [scanWord] at scanned
  split at scanned
  · cases scanned
  · next nonempty => cases scanned; exact nonempty

/-- A text is its own first word exactly when it is a word. -/
theorem word?_eq_self_iff {s : CStr} :
    word? s = some s ↔ s ≠ [] ∧ ∀ c ∈ s, isspace c = false := by
  constructor
  · exact word?_word
  · rintro ⟨nonempty, word⟩
    have front : skipSpace s = s := by
      cases s with
      | nil => rfl
      | cons c s => exact skipSpace_of_head (word c List.mem_cons_self)
    have scanned := scanWord_append nonempty word [] nofun
    rw [List.append_nil] at scanned
    rw [word?, front, scanned]
    rfl

/-- Read as an empty string where there is no word, a text is its own first word
    exactly when it has no white space. -/
theorem word?_getD_eq_self_iff {s : CStr} :
    (word? s).getD [] = s ↔ ∀ c ∈ s, isspace c = false := by
  by_cases empty : s = []
  · subst empty
    exact iff_of_true rfl nofun
  · have whole : (word? s).getD [] = s ↔ word? s = some s := by
      cases word? s with
      | none => simpa using Ne.symm empty
      | some w => simp
    rw [whole, word?_eq_self_iff]
    exact and_iff_right empty

end Scanf
