import OsmoSysmon.Lib.CText
import OsmoSysmon.Lib.Loop

/-! # Buffers of a fixed size

`char buf[size]` and what C code does with it: every load and every store says at which
index, and fails when the index is outside.  `Holds` is a C string that starts at an
offset; `strtok_holds` is `strtok` working on it in place, against the tokens of the
string.
-/

/-- What an access outside a buffer is reported as. -/
class MemFault (ε : Type) where
  overread : ε
  overflow : ε

structure Buffer (size : Nat) where
  bytes : List UInt8
  length_bytes : bytes.length = size
deriving DecidableEq, Repr

namespace Buffer

open CText

variable {ε : Type} [MemFault ε] {size : Nat}

/-! ## Accesses -/

def load (b : Buffer size) (i : Nat) : Except ε UInt8 :=
  match b.bytes[i]? with
  | some c => .ok c
  | none => .error MemFault.overread

/-- `bytes` written over the buffer from `off` on. -/
def overwrite (b : Buffer size) (off : Nat) (bytes : List UInt8)
    (room : off + bytes.length ≤ size) : Buffer size where
  bytes := b.bytes.take off ++ bytes ++ b.bytes.drop (off + bytes.length)
  length_bytes := by
    have length := b.length_bytes
    simp only [List.length_append, List.length_take, List.length_drop]
    omega

/-- A store of `bytes` from an offset on, as `memcpy` and `fread` make it. -/
def storeAll (b : Buffer size) (off : Nat) (bytes : List UInt8) : Except ε (Buffer size) :=
  if room : off + bytes.length ≤ size then .ok (b.overwrite off bytes room)
  else .error MemFault.overflow

def store (b : Buffer size) (i : Nat) (c : UInt8) : Except ε (Buffer size) := b.storeAll i [c]

/-- The C string at an offset. -/
def text (b : Buffer size) (off : Nat) : Except ε CStr :=
  match cString? (b.bytes.drop off) with
  | some s => .ok s
  | none => .error MemFault.overread

/-- Loads from an offset on until a byte stops the scan: where that is. -/
def scan (stops : UInt8 → Bool) (b : Buffer size) (off : Nat) : Except ε Nat :=
  match (b.bytes.drop off).findIdx? stops with
  | some n => .ok (off + n)
  | none => .error MemFault.overread

/-- `strtok` from the saved position on: where the token starts, the buffer with the
    delimiter behind it overwritten, and the position saved for the following call. -/
def strtok (delim : UInt8) (b : Buffer size) (saved : Nat) :
    Except ε (Option Nat × Buffer size × Nat) := do
  let tok ← b.scan (· != delim) saved
  if (← b.load tok) = 0 then return (none, b, tok)
  let stop ← b.scan (fun c => c == delim || c == 0) tok
  if (← b.load stop) = 0 then return (some tok, b, stop)
  let b ← b.store stop 0
  return (some tok, b, stop + 1)

/-- `snprintf` into the whole buffer: as much of the text as fits, and a NUL. -/
def snprintf (b : Buffer size) (s : CStr) : Except ε (Buffer size) :=
  b.storeAll 0 (s.take (size - 1) ++ [0])

/-! ## Rules -/

theorem load_ok {b : Buffer size} {i : Nat} {c : UInt8} (found : b.bytes[i]? = some c) :
    (b.load i : Except ε UInt8) = .ok c := by
  rw [load, found]

theorem storeAll_ok {b : Buffer size} {off : Nat} {bytes : List UInt8}
    (room : off + bytes.length ≤ size) :
    (b.storeAll off bytes : Except ε (Buffer size)) = .ok (b.overwrite off bytes room) :=
  dif_pos room

theorem scan_ok {stops : UInt8 → Bool} {b : Buffer size} {off : Nat} {front rest : List UInt8}
    {c : UInt8} (found : b.bytes.drop off = front ++ c :: rest)
    (before : ∀ x ∈ front, stops x = false) (here : stops c = true) :
    (b.scan stops off : Except ε Nat) = .ok (off + front.length) := by
  have index : (front ++ c :: rest).findIdx? stops = some front.length := by
    rw [List.findIdx?_append, List.findIdx?_eq_none_iff.mpr before, List.findIdx?_cons, here]
    simp
  rw [scan, found, index]

/-- A string ends at the first NUL. -/
theorem text_ok {b : Buffer size} {off : Nat} {s rest : List UInt8}
    (found : b.bytes.drop off = s ++ 0 :: rest) :
    (b.text off : Except ε CStr) = .ok (s.takeWhile (· ≠ 0)) := by
  rw [text, found, cString?_append_nul]

/-- Bytes stored in front of the last one are followed by another, and change nothing
    before them. -/
theorem storeAll_inside (b : Buffer size) {off : Nat} {bytes : List UInt8}
    (inside : off + bytes.length < size) :
    ∃ b' c rest, (b.storeAll off bytes : Except ε (Buffer size)) = .ok b' ∧
      b.bytes.drop (off + bytes.length) = c :: rest ∧
      b'.bytes = b.bytes.take off ++ (bytes ++ c :: rest) := by
  have longer : off + bytes.length < b.bytes.length := by
    rw [b.length_bytes]
    exact inside
  refine ⟨b.overwrite off bytes inside.le, b.bytes[off + bytes.length],
    b.bytes.drop (off + bytes.length + 1), storeAll_ok inside.le,
    List.drop_eq_getElem_cons longer, ?_⟩
  rw [← List.drop_eq_getElem_cons longer, ← List.append_assoc]
  rfl

/-- A store to where a byte has been found changes that byte. -/
theorem store_at {b : Buffer size} {off : Nat} {front rest : List UInt8} {c : UInt8}
    (found : b.bytes.drop off = front ++ c :: rest) (x : UInt8) :
    ∃ b', (b.store (off + front.length) x : Except ε (Buffer size)) = .ok b' ∧
      b'.bytes.drop off = front ++ x :: rest := by
  have lengths := congrArg List.length found
  rw [List.length_drop, b.length_bytes, List.length_append, List.length_cons] at lengths
  have room : off + front.length + [x].length ≤ size := by
    rw [List.length_singleton]
    omega
  refine ⟨b.overwrite (off + front.length) [x] room, storeAll_ok room, ?_⟩
  have before : (b.bytes.take (off + front.length)).drop off = front := by
    rw [List.drop_take, found, Nat.add_sub_cancel_left, List.take_left' rfl]
  have behind : b.bytes.drop (off + front.length + [x].length) = rest := by
    rw [Nat.add_assoc, ← List.drop_drop, found, ← List.drop_drop, List.drop_left' rfl]
    rfl
  have reaches : off ≤ (b.bytes.take (off + front.length)).length := by
    rw [List.length_take, b.length_bytes]
    omega
  simp only [overwrite]
  rw [behind, List.append_assoc, List.drop_append_of_le_length reaches, before]
  rfl

/-! ## Strings in a buffer -/

/-- A C string starts at the offset. -/
def Holds (b : Buffer size) (off : Nat) (s : CStr) : Prop :=
  0 ∉ s ∧ ∃ rest, b.bytes.drop off = s ++ 0 :: rest

theorem Holds.text {b : Buffer size} {off : Nat} {s : CStr} (holds : b.Holds off s) :
    (b.text off : Except ε CStr) = .ok s := by
  obtain ⟨noNul, rest, found⟩ := holds
  rw [text_ok found, takeWhile_ne_zero noNul]

theorem holds_of_text {b : Buffer size} {off : Nat} {s : CStr}
    (text : (b.text off : Except ε CStr) = .ok s) : b.Holds off s := by
  by_cases isNul : 0 ∈ b.bytes.drop off
  · obtain ⟨front, rest, isBytes, noNul⟩ := List.eq_append_cons_of_mem isNul
    rw [text_ok isBytes, takeWhile_ne_zero noNul] at text
    cases text
    exact ⟨noNul, rest, isBytes⟩
  · rw [Buffer.text, cString?, if_neg isNul] at text
    cases text

/-- A NUL that is stored behind a string leaves the string. -/
theorem Holds.store_nul {b : Buffer size} {off : Nat} {s : CStr} (holds : b.Holds off s) {i : Nat}
    (behind : off + s.length ≤ i) (inside : i < size) :
    ∃ b', (b.store i 0 : Except ε (Buffer size)) = .ok b' ∧ b'.Holds off s := by
  obtain ⟨noNul, rest, isBytes⟩ := holds
  have length := b.length_bytes
  refine ⟨b.overwrite i [0] inside, storeAll_ok inside, noNul, ?_⟩
  obtain ⟨n, rfl⟩ := Nat.exists_eq_add_of_le behind
  have stored : (b.overwrite (off + s.length + n) [0] inside).bytes =
      b.bytes.take (off + s.length + n) ++ [0] ++ b.bytes.drop (off + s.length + n + 1) := rfl
  have before : (b.bytes.take (off + s.length + n)).drop off = s ++ (0 :: rest).take n := by
    rw [Nat.add_assoc, List.drop_take, Nat.add_sub_cancel_left, isBytes, List.take_length_add_append]
  rw [stored, List.append_assoc, List.drop_append_of_le_length (by rw [List.length_take]; omega),
    before, List.append_assoc]
  cases n with
  | zero => exact ⟨_, rfl⟩
  | succ n => exact ⟨_, rfl⟩

theorem Holds.behind {b : Buffer size} {off : Nat} {front s : CStr}
    (holds : b.Holds off (front ++ s)) : b.Holds (off + front.length) s := by
  obtain ⟨noNul, rest, found⟩ := holds
  refine ⟨fun member => noNul (List.mem_append_right front member), rest, ?_⟩
  rw [← List.drop_drop, found, List.append_assoc, List.drop_left' rfl]

theorem Holds.load_nil {b : Buffer size} {off : Nat} (holds : b.Holds off []) :
    (b.load off : Except ε UInt8) = .ok 0 := by
  obtain ⟨-, rest, found⟩ := holds
  apply load_ok
  rw [← List.head?_drop, found]
  rfl

theorem Holds.load_cons {b : Buffer size} {off : Nat} {c : UInt8} {s : CStr}
    (holds : b.Holds off (c :: s)) : (b.load off : Except ε UInt8) = .ok c := by
  obtain ⟨-, rest, found⟩ := holds
  apply load_ok
  rw [← List.head?_drop, found]
  rfl

/-- `snprintf` cuts what does not fit in front of the NUL. -/
theorem snprintf_holds (nonempty : 0 < size) (b : Buffer size) {s : CStr} (noNul : 0 ∉ s) :
    ∃ b', (b.snprintf s : Except ε (Buffer size)) = .ok b' ∧ b'.Holds 0 (s.take (size - 1)) := by
  have room : 0 + (s.take (size - 1) ++ [0]).length ≤ size := by
    rw [List.length_append, List.length_take, List.length_singleton]
    omega
  refine ⟨b.overwrite 0 _ room, storeAll_ok room, ?_, ?_⟩
  · exact fun member => noNul (List.mem_of_mem_take member)
  · refine ⟨b.bytes.drop (0 + (s.take (size - 1) ++ [0]).length), ?_⟩
    simp only [overwrite, List.take_zero, List.nil_append, List.drop_zero, List.append_assoc]
    rfl

/-! ## Tokens in place -/

/-- The scan that skips delimiters. -/
theorem strtok_eq_dropWhile (delim : UInt8) (s : CStr) :
    CText.strtok delim s = match s.dropWhile (· == delim) with
      | [] => none
      | c :: s => some (c :: s.takeWhile (· ≠ delim), (s.dropWhile (· ≠ delim)).tail) := by
  induction s with
  | nil => rfl
  | cons c s ih =>
    rw [CText.strtok, List.dropWhile_cons]
    by_cases same : c = delim
    · rw [if_pos same, if_pos (by simpa using same), ih]
    · rw [if_neg same, if_neg (by simpa using same)]

/-- A scan that a NUL stops goes over the part of the string that does not stop it. -/
theorem Holds.scan {stops : UInt8 → Bool} {b : Buffer size} {off : Nat} {s : CStr}
    (holds : b.Holds off s) (atNul : stops 0 = true) :
    (b.scan stops off : Except ε Nat) = .ok (off + (s.takeWhile fun c => !stops c).length) ∧
      b.Holds (off + (s.takeWhile fun c => !stops c).length) (s.dropWhile fun c => !stops c) := by
  have split : s = (s.takeWhile fun c => !stops c) ++ s.dropWhile fun c => !stops c :=
    List.takeWhile_append_dropWhile.symm
  have passed : ∀ x ∈ s.takeWhile fun c => !stops c, stops x = false := by
    intro x member
    simpa using List.mem_takeWhile_imp member
  constructor
  · obtain ⟨-, rest, found⟩ := holds
    rw [split, List.append_assoc] at found
    have first := List.head?_dropWhile_not (fun c => !stops c) s
    cases isLater : s.dropWhile fun c => !stops c with
    | nil =>
      rw [isLater] at found
      exact scan_ok found passed atNul
    | cons c later =>
      rw [isLater] at found first
      exact scan_ok found passed (by simpa using first)
  · apply Holds.behind
    rw [← split]
    exact holds

/-- A NUL that is stored in a string cuts it in two. -/
theorem Holds.cut {b : Buffer size} {off : Nat} {front s : CStr} {c : UInt8}
    (holds : b.Holds off (front ++ c :: s)) :
    ∃ b', (b.store (off + front.length) 0 : Except ε (Buffer size)) = .ok b' ∧
      b'.Holds off front ∧ b'.Holds (off + front.length + 1) s := by
  obtain ⟨noNul, rest, found⟩ := holds
  rw [List.append_assoc] at found
  obtain ⟨b', store, changed⟩ := @store_at ε _ _ _ _ _ _ _ found 0
  refine ⟨b', store, ⟨fun member => noNul (List.mem_append_left _ member), _, changed⟩,
    fun member => noNul (List.mem_append_right _ (List.mem_cons_of_mem c member)), rest, ?_⟩
  rw [Nat.add_assoc, ← List.drop_drop, changed, ← List.drop_drop, List.drop_left' rfl]
  rfl

/-- A text without NUL is scanned for the delimiter only. -/
theorem span_visible {delim : UInt8} {s : CStr} (noNul : 0 ∉ s) :
    s.takeWhile (fun c => !(c == delim || c == 0)) = s.takeWhile (· ≠ delim) ∧
      s.dropWhile (fun c => !(c == delim || c == 0)) = s.dropWhile (· ≠ delim) := by
  induction s with
  | nil => exact ⟨rfl, rfl⟩
  | cons c s ih =>
    rw [List.mem_cons, not_or] at noNul
    obtain ⟨visible, rest⟩ := noNul
    obtain ⟨sameTake, sameDrop⟩ := ih rest
    by_cases same : c = delim
    · simp [same]
    · have passed : (!(c == delim || c == 0)) = true := by simp [same, Ne.symm visible]
      have passed' : decide (c ≠ delim) = true := by simpa using same
      simp only [List.takeWhile_cons, List.dropWhile_cons, passed, passed', sameTake, sameDrop,
        if_true, and_self]

/-- **In a buffer that holds the rest of the text, `strtok` finds the next token and saves
    where the rest behind it is held.** -/
theorem strtok_holds {delim : UInt8} (visible : delim ≠ 0) {b : Buffer size} {saved : Nat}
    {s : CStr} (holds : b.Holds saved s) :
    ∃ tok b' saved', (b.strtok delim saved : Except ε _) = .ok (tok, b', saved') ∧
      match CText.strtok delim s with
      | none => tok = none
      | some (t, s') => ∃ start, tok = some start ∧ b'.Holds start t ∧ b'.Holds saved' s' := by
  rw [strtok_eq_dropWhile, strtok]
  -- the delimiters in front
  have atNul : ((0 : UInt8) != delim) = true := by simpa using Ne.symm visible
  obtain ⟨skip, later⟩ := @Holds.scan ε _ _ (· != delim) _ _ _ holds atNul
  simp only [bne, Bool.not_not] at skip later
  generalize saved + (s.takeWhile (· == delim)).length = tok at skip later
  have first := List.head?_dropWhile_not (· == delim) s
  cases isLater : s.dropWhile (· == delim) with
  | nil =>
    rw [isLater] at later
    simp only [bne]
    rw [Loop.ok_bind skip, Loop.ok_bind later.load_nil]
    exact ⟨none, b, _, rfl, rfl⟩
  | cons c s' =>
    rw [isLater] at later first
    have notDelim : c ≠ delim := by simpa using first
    have notNul : c ≠ 0 := fun isNul => later.1 (isNul ▸ List.mem_cons_self)
    simp only [bne]
    rw [Loop.ok_bind skip, Loop.ok_bind later.load_cons, if_neg notNul]
    -- the token, up to a delimiter or the NUL
    have whole : c :: s' = (c :: s').takeWhile (· ≠ delim) ++ (c :: s').dropWhile (· ≠ delim) :=
      List.takeWhile_append_dropWhile.symm
    have delimiter := List.head?_dropWhile_not (· ≠ delim) (c :: s')
    have token : (c :: s').takeWhile (· ≠ delim) = c :: s'.takeWhile (· ≠ delim) := by
      simp [notDelim]
    have behind : (c :: s').dropWhile (· ≠ delim) = s'.dropWhile (· ≠ delim) := by
      simp [notDelim]
    obtain ⟨stop, atStop⟩ :=
      @Holds.scan ε _ _ (fun c => c == delim || c == 0) _ _ _ later (by simp)
    obtain ⟨sameTake, sameDrop⟩ := @span_visible delim _ later.1
    rw [sameTake, token] at stop
    rw [sameTake, sameDrop, token, behind] at atStop
    rw [token, behind] at whole
    rw [behind] at delimiter
    rw [Loop.ok_bind stop]
    cases more : s'.dropWhile (· ≠ delim) with
    | nil =>
      rw [more] at atStop whole
      rw [List.append_nil] at whole
      rw [Loop.ok_bind atStop.load_nil]
      exact ⟨_, b, _, rfl, _, rfl, whole ▸ later, atStop⟩
    | cons d more' =>
      rw [more] at atStop whole delimiter
      obtain rfl : d = delim := by simpa using delimiter
      rw [whole] at later
      obtain ⟨b', store, front, rest⟩ := @Holds.cut ε _ _ _ _ _ _ _ later
      rw [Loop.ok_bind atStop.load_cons, if_neg visible, Loop.ok_bind store]
      exact ⟨_, b', _, rfl, _, rfl, front, rest⟩

end Buffer
