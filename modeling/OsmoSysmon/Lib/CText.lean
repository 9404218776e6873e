import Mathlib.Algebra.Group.Nat.Defs
import Mathlib.Data.List.TakeWhile

/-! # C strings

The part of `<string.h>`, `<ctype.h>` and `<stdio.h>` that text-handling C code
rests on, over lists of bytes.  A C string is the list of its bytes without the
terminating NUL; `cString?` reads one out of raw memory.  Character classes are
those of the `"C"` locale.
-/

namespace CText

/-- The bytes of a C string, without its NUL. -/
abbrev CStr := List UInt8

/-- The bytes of an ASCII literal. -/
def ascii (s : String) : CStr := s.toList.map fun c => c.toNat.toUInt8

/-! ## Character classes -/

def isdigit (c : UInt8) : Bool := 48 ≤ c && c ≤ 57

def isprint (c : UInt8) : Bool := 32 ≤ c && c ≤ 126

def isspace (c : UInt8) : Bool := c == 32 || (9 ≤ c && c ≤ 13)

@[simp] theorem isdigit_zero : isdigit 0 = false := rfl

theorem ne_zero_of_isprint {c : UInt8} (h : isprint c = true) : c ≠ 0 := by
  rintro rfl
  simp [isprint] at h

theorem isspace_of_isprint {c : UInt8} (h : isprint c = true) : isspace c = true ↔ c = 32 := by
  grind [isprint, isspace]

theorem isspace_of_isdigit {c : UInt8} (h : isdigit c = true) : isspace c = false := by
  grind [isdigit, isspace]

/-! ## Reading a string out of memory -/

/-- The string that starts at the front of `mem`, if a NUL ends it there. -/
def cString? (mem : List UInt8) : Option CStr :=
  if 0 ∈ mem then some (mem.takeWhile (· ≠ 0)) else none

theorem takeWhile_append_nul (s rest : List UInt8) :
    (s ++ 0 :: rest).takeWhile (· ≠ 0) = s.takeWhile (· ≠ 0) := by
  induction s with
  | nil => simp
  | cons c s ih => rw [List.cons_append, List.takeWhile_cons, List.takeWhile_cons, ih]

theorem takeWhile_ne_zero {s : CStr} (h : 0 ∉ s) : s.takeWhile (· ≠ 0) = s := by
  rw [List.takeWhile_eq_self_iff]
  intro c member
  simpa using fun e : c = 0 => h (e ▸ member)

@[simp] theorem cString?_append_nul (s rest : List UInt8) :
    cString? (s ++ 0 :: rest) = some (s.takeWhile (· ≠ 0)) := by
  simp only [cString?, List.mem_append, List.mem_cons, true_or, or_true, if_true,
    takeWhile_append_nul]

/-! ## Decimal numbers -/

/-- `printf("%u", n)`. -/
def decimal (n : Nat) : CStr := ascii (String.ofList (Nat.toDigits 10 n))

/-- The number that a run of digit characters spells. -/
def digitsValue (ds : CStr) : Nat := ds.foldl (fun acc d => 10 * acc + (d - 48).toNat) 0

theorem decimal_eq_map (n : Nat) :
    decimal n = (Nat.toDigits 10 n).map fun c => c.toNat.toUInt8 := by
  simp [decimal, ascii]

theorem decimal_ne_nil (n : Nat) : decimal n ≠ [] := by
  simp [decimal_eq_map, Nat.toDigits_ne_nil]

private theorem isdigit_ofChar {c : Char} (h : c.isDigit = true) :
    isdigit c.toNat.toUInt8 = true ∧ (c.toNat.toUInt8 - 48).toNat = c.toNat - '0'.toNat := by
  have bounds : 48 ≤ c.toNat ∧ c.toNat ≤ 57 := by
    simpa [Char.isDigit, UInt32.le_iff_toNat_le] using h
  obtain ⟨low, high⟩ := bounds
  generalize c.toNat = n at low high ⊢
  have digit : ∀ k < 10, isdigit (48 + k).toUInt8 = true ∧
      ((48 + k).toUInt8 - 48).toNat = 48 + k - '0'.toNat := by decide
  simpa [show 48 + (n - 48) = n by omega] using digit (n - 48) (by omega)

theorem isdigit_of_mem_decimal {n : Nat} {c : UInt8} (h : c ∈ decimal n) : isdigit c = true := by
  rw [decimal_eq_map, List.mem_map] at h
  obtain ⟨d, member, rfl⟩ := h
  exact (isdigit_ofChar (Nat.isDigit_of_mem_toDigits (by omega) (by omega) member)).1

/-- Reading a printed number back gives the number. -/
theorem digitsValue_decimal (n : Nat) : digitsValue (decimal n) = n := by
  have fold : ∀ (ds : List Char) (acc : Nat), (∀ d ∈ ds, d.isDigit = true) →
      (ds.map fun c => c.toNat.toUInt8).foldl (fun acc d => 10 * acc + (d - 48).toNat) acc =
        Nat.ofDigitChars 10 ds acc := by
    intro ds
    induction ds with
    | nil => intro acc _; simp [Nat.ofDigitChars]
    | cons d ds ih =>
      intro acc digits
      have rest := ih (10 * acc + (d.toNat - '0'.toNat)) fun x hx => digits x (List.mem_cons_of_mem _ hx)
      simp only [List.map_cons, List.foldl_cons, (isdigit_ofChar (digits d List.mem_cons_self)).2]
      simpa [Nat.ofDigitChars] using rest
  rw [digitsValue, decimal_eq_map, fold _ 0 fun d hd =>
    Nat.isDigit_of_mem_toDigits (by omega) (by omega) hd]
  exact Nat.ofDigitChars_ten_toDigits

theorem length_decimal_le_iff {n k : Nat} (nonempty : 0 < k) :
    (decimal n).length ≤ k ↔ n < 10 ^ k := by
  rw [decimal_eq_map, List.length_map, Nat.length_toDigits_le_iff (by decide) nonempty]

/-- The numbers in a text, in order. -/
def numbers (s : CStr) : List Nat :=
  ((s.splitOnP fun c => !isdigit c).filter (· ≠ [])).map digitsValue

theorem numbers_sep {c : UInt8} (isSep : isdigit c = false) (s : CStr) :
    numbers (c :: s) = numbers s := by
  simp [numbers, List.splitOnP_cons_eq_if_modifyHead, isSep]

/-- A number ends where something else begins. -/
theorem numbers_append {ds : CStr} (nonempty : ds ≠ []) (digits : ∀ d ∈ ds, isdigit d = true)
    {c : UInt8} (isSep : isdigit c = false) (s : CStr) :
    numbers (ds ++ c :: s) = digitsValue ds :: numbers s := by
  rw [numbers, List.splitOnP_append_cons_of_forall_mem (by simpa using digits) c (by simp [isSep])]
  simp [numbers, nonempty]

theorem numbers_digits {ds : CStr} (nonempty : ds ≠ []) (digits : ∀ d ∈ ds, isdigit d = true) :
    numbers ds = [digitsValue ds] := by
  rw [numbers, List.splitOnP_eq_singleton (by simpa using digits)]
  simp [nonempty]

/-- `LONG_MAX`. -/
def longMax : Int := 0x7fffffffffffffff

/-- `strtol` in base 10: what it converts, cut off at the bounds of a `long`. -/
def strtol (s : CStr) : Int :=
  match s.dropWhile isspace with
  | 43 :: s => min longMax (digitsValue (s.takeWhile isdigit))
  | 45 :: s => max (-longMax - 1) (-digitsValue (s.takeWhile isdigit))
  | s => min longMax (digitsValue (s.takeWhile isdigit))

/-- `atoi`: the `long` of `strtol`, cut to 32 bits. -/
def atoi (s : CStr) : Int := (strtol s).bmod 0x100000000

/-! ## Searching -/

/-- Where `strrchr` finds a byte. -/
def strrchr (c : UInt8) : CStr → Option Nat
  | [] => none
  | b :: s =>
    match strrchr c s with
    | some i => some (i + 1)
    | none => if b = c then some 0 else none

theorem strrchr_eq_none_iff {c : UInt8} {s : CStr} : strrchr c s = none ↔ c ∉ s := by
  induction s with
  | nil => simp [strrchr]
  | cons b s ih =>
    rw [strrchr, List.mem_cons, not_or, ← ih]
    cases strrchr c s with
    | none => simp [eq_comm]
    | some i => simp

/-- It is the last one. -/
theorem strrchr_inv {c : UInt8} {s : CStr} {i : Nat} (found : strrchr c s = some i) :
    ∃ front back, s = front ++ c :: back ∧ front.length = i ∧ c ∉ back := by
  induction s generalizing i with
  | nil => cases found
  | cons b s ih =>
    rw [strrchr] at found
    cases later : strrchr c s with
    | none =>
      rw [later] at found
      simp only [Option.ite_none_right_eq_some, Option.some.injEq] at found
      obtain ⟨rfl, rfl⟩ := found
      exact ⟨[], s, rfl, rfl, strrchr_eq_none_iff.mp later⟩
    | some j =>
      rw [later] at found
      cases found
      obtain ⟨front, back, rfl, rfl, absent⟩ := ih later
      exact ⟨b :: front, back, rfl, rfl, absent⟩

/-! ## Tokens -/

/-- `strtok` on the text from the saved position on: the next token and the
    position saved for the following call. -/
def strtok (delim : UInt8) : CStr → Option (CStr × CStr)
  | [] => none
  | c :: s =>
    if c = delim then strtok delim s
    else some (c :: s.takeWhile (· ≠ delim), (s.dropWhile (· ≠ delim)).tail)

/-- All tokens that successive `strtok` calls return: the non-empty fields. -/
def tokens (delim : UInt8) (s : CStr) : List CStr := (s.splitOn delim).filter (· ≠ [])

@[simp] theorem tokens_nil (delim : UInt8) : tokens delim [] = [] := rfl

theorem tokens_delim_cons (delim : UInt8) (s : CStr) :
    tokens delim (delim :: s) = tokens delim s := by
  simp [tokens, List.splitOn_cons_eq_if_modifyHead]

/-- A token ends at the next delimiter, which is dropped. -/
theorem tokens_append_delim {delim : UInt8} {t : CStr} (nonempty : t ≠ []) (free : delim ∉ t)
    (s : CStr) : tokens delim (t ++ delim :: s) = t :: tokens delim s := by
  simp [tokens, List.splitOn_append_cons_self_of_not_mem free, nonempty]

/-- Text without a delimiter is its own only token. -/
theorem tokens_of_free {delim : UInt8} {t : CStr} (nonempty : t ≠ []) (free : delim ∉ t) :
    tokens delim t = [t] := by
  simp [tokens, List.splitOn_eq_singleton free, nonempty]

/-- One call of `strtok` takes the first token and leaves the others. -/
theorem tokens_eq_strtok (delim : UInt8) (s : CStr) :
    tokens delim s = match strtok delim s with
      | none => []
      | some (t, rest) => t :: tokens delim rest := by
  induction s with
  | nil => rfl
  | cons c s ih =>
    by_cases same : c = delim
    · subst same
      simpa [strtok, tokens_delim_cons] using ih
    · have free : delim ∉ c :: s.takeWhile (· ≠ delim) := by
        intro member
        rcases List.mem_cons.mp member with rfl | member
        · exact same rfl
        · simpa using List.mem_takeWhile_imp member
      simp only [strtok, same, if_false]
      -- the text up to the next delimiter is the token
      have whole : c :: s = (c :: s.takeWhile (· ≠ delim)) ++ s.dropWhile (· ≠ delim) := by simp
      rw [whole]
      cases rest : s.dropWhile (· ≠ delim) with
      | nil => simpa using tokens_of_free (List.cons_ne_nil _ _) free
      | cons d rest' =>
        -- what stops `takeWhile` is a delimiter
        have delimiter : d = delim := by
          have first := List.head?_dropWhile_not (· ≠ delim) s
          rw [rest] at first
          simpa using first
        subst delimiter
        simpa using tokens_append_delim (List.cons_ne_nil _ _) free rest'

/-- A token, the delimiter behind it and the rest come out of the text; there is no
    delimiter only if there is no rest. -/
theorem strtok_length {delim : UInt8} {s t rest : CStr} (found : strtok delim s = some (t, rest)) :
    t.length ≤ s.length ∧ (t.length + 1 + rest.length ≤ s.length ∨ rest = []) ∧
      rest.length < s.length := by
  induction s with
  | nil => cases found
  | cons c s ih =>
    rw [strtok] at found
    split at found
    · obtain ⟨short, fits, shorter⟩ := ih found
      rw [List.length_cons]
      refine ⟨by omega, ?_, by omega⟩
      rcases fits with fits | ended
      · exact .inl (by omega)
      · exact .inr ended
    · cases found
      have whole := congrArg List.length (@List.takeWhile_append_dropWhile _ (· ≠ delim) s)
      rw [List.length_append] at whole
      rw [List.length_cons, List.length_cons, List.length_tail]
      refine ⟨by omega, ?_, by omega⟩
      cases later : s.dropWhile (· ≠ delim) with
      | nil => exact .inr rfl
      | cons d ds =>
        rw [later, List.length_cons] at whole
        left
        rw [List.length_cons]
        omega

/-- The tokens and what separates them fit in the text. -/
theorem tokens_length_le (delim : UInt8) (s : CStr) :
    (tokens delim s).flatten.length + (tokens delim s).length ≤ s.length + 1 := by
  induction size : s.length using Nat.strongRecOn generalizing s with
  | ind n ih =>
    subst size
    rw [tokens_eq_strtok]
    cases found : strtok delim s with
    | none => simp
    | some next =>
      obtain ⟨t, rest⟩ := next
      obtain ⟨short, fits, shorter⟩ := strtok_length found
      have others := ih rest.length shorter rest rfl
      simp only [List.flatten_cons, List.length_append, List.length_cons]
      rcases fits with fits | rfl
      · omega
      · simp only [tokens_nil, List.flatten_nil, List.length_nil]
        omega

theorem mem_of_strtok {delim : UInt8} {s t rest : CStr} (found : strtok delim s = some (t, rest)) :
    (∀ c ∈ t, c ∈ s) ∧ ∀ c ∈ rest, c ∈ s := by
  induction s with
  | nil => cases found
  | cons d s ih =>
    rw [strtok] at found
    split at found
    · obtain ⟨inToken, inRest⟩ := ih found
      exact ⟨fun c mem => List.mem_cons_of_mem d (inToken c mem),
        fun c mem => List.mem_cons_of_mem d (inRest c mem)⟩
    · cases found
      constructor
      · intro c mem
        rcases List.mem_cons.mp mem with rfl | mem
        · exact List.mem_cons_self
        · exact List.mem_cons_of_mem d ((List.takeWhile_prefix _).subset mem)
      · intro c mem
        exact List.mem_cons_of_mem d ((List.dropWhile_suffix _).subset (List.mem_of_mem_tail mem))

theorem mem_of_mem_tokens {delim : UInt8} {s t : CStr} (isToken : t ∈ tokens delim s) {c : UInt8}
    (mem : c ∈ t) : c ∈ s := by
  induction size : s.length using Nat.strongRecOn generalizing s with
  | ind n ih =>
    subst size
    rw [tokens_eq_strtok] at isToken
    cases found : strtok delim s with
    | none =>
      rw [found] at isToken
      cases isToken
    | some next =>
      obtain ⟨first, rest⟩ := next
      rw [found] at isToken
      obtain ⟨inToken, inRest⟩ := mem_of_strtok found
      rcases List.mem_cons.mp isToken with rfl | later
      · exact inToken c mem
      · exact inRest c (ih rest.length (strtok_length found).2.2 later rfl)

end CText
