import OsmoSysmon.Polls

/-! # The first line of a file

`osysmon_file_read` with its buffer: `fgets` stores a line or a part of one, and a loop puts
a NUL where `strrchr` finds a newline until it finds none.  `dropNewlines_ok` is the loop, from
any buffer with a string in it.
-/

namespace OsmoSysmon

open CText Loop

/-- What `fgets(buf, size, f)` takes from a stream: a line with its newline, as far as there is
    room for it and a NUL. -/
def fgetsLine (size : Nat) (contents : List UInt8) : List UInt8 :=
  let room := contents.take (size - 1)
  match room.findIdx? (· == newline) with
  | some i => room.take (i + 1)
  | none => room

/-- One turn of the loop. -/
def dropNewlineTurn : StateT (Buffer lineBufSize) (Except Fault) (Option Unit) := do
  let buf ← get
  let s ← (buf.text 0 : Except Fault CStr)
  match strrchr newline s with
  | none => return some ()
  | some nl =>
    let buf ← (buf.store nl 0 : Except Fault (Buffer lineBufSize))
    set buf
    return none

/-- How many newlines there are to be found. -/
def newlines (buf : Buffer lineBufSize) : Nat :=
  ((cString? buf.bytes).getD []).count newline

def dropNewlines : StateT (Buffer lineBufSize) (Except Fault) Unit :=
  whileTrue .blocked newlines dropNewlineTurn

/-- What `osysmon_file_read` publishes. -/
def fileValue (buf : Buffer lineBufSize) : Option (List UInt8) → Except Fault CStr
  | none => return ascii "<NOTFOUND>"
  | some [] => return ascii "<EMPTY>"
  | some (b :: bs) => do
    let buf ← buf.storeAll 0 (fgetsLine lineBufSize (b :: bs) ++ [0])
    let buf ← buf.store (lineBufSize - 1) 0
    let (_, buf) ← dropNewlines buf
    buf.text 0

/-! ## The loop -/

theorem takeWhile_cut (front back : CStr) :
    (front ++ newline :: back).takeWhile (· ≠ newline) = front.takeWhile (· ≠ newline) := by
  induction front with
  | nil => simp
  | cons c front ih =>
    rw [List.cons_append, List.takeWhile_cons, List.takeWhile_cons, ih]

theorem dropNewlineTurn_of_none {buf : Buffer lineBufSize} {s : CStr} (holds : buf.Holds 0 s)
    (absent : newline ∉ s) : dropNewlineTurn buf = .ok (some (), buf) := by
  rw [dropNewlineTurn, bind_ok (get_ok buf), bind_ok (lift_ok holds.text buf),
    strrchr_eq_none_iff.mpr absent]
  rfl

/-- The last newline is overwritten. -/
theorem dropNewlineTurn_of_some {buf : Buffer lineBufSize} {s : CStr} (holds : buf.Holds 0 s)
    {i : Nat} (found : strrchr newline s = some i) :
    ∃ front back buf', s = front ++ newline :: back ∧ dropNewlineTurn buf = .ok (none, buf') ∧
      buf'.Holds 0 front := by
  rw [dropNewlineTurn, bind_ok (get_ok buf), bind_ok (lift_ok holds.text buf), found]
  obtain ⟨front, back, rfl, rfl, -⟩ := strrchr_inv found
  obtain ⟨buf', store, cut, -⟩ := @Buffer.Holds.cut Fault _ _ _ _ _ _ _ holds
  rw [Nat.zero_add] at store
  exact ⟨front, back, buf', rfl, (bind_ok (lift_ok store buf) _).trans rfl, cut⟩

theorem newlines_of_holds {buf : Buffer lineBufSize} {s : CStr} (holds : buf.Holds 0 s) :
    newlines buf = s.count newline := by
  obtain ⟨noNul, rest, isBytes⟩ := holds
  rw [List.drop_zero] at isBytes
  rw [newlines, isBytes, cString?_append_nul, takeWhile_ne_zero noNul]
  rfl

theorem dropNewlineTurn_decreases : Decreases newlines dropNewlineTurn := by
  intro buf buf' turn
  have ran := turn
  rw [dropNewlineTurn, bind_ok (get_ok buf)] at turn
  obtain ⟨s, t, text, rest⟩ := bind_inv turn
  obtain ⟨text, rfl⟩ := lift_inv text
  have holds := Buffer.holds_of_text text
  cases found : strrchr newline s with
  | none =>
    rw [found] at rest
    cases rest
  | some i =>
    obtain ⟨front, back, buf'', rfl, run, holds'⟩ := dropNewlineTurn_of_some holds found
    cases ran.symm.trans run
    rw [newlines_of_holds holds, newlines_of_holds holds', List.count_append, List.count_cons_self]
    omega

/-- The loop leaves what comes before the first newline. -/
theorem dropNewlines_ok {buf : Buffer lineBufSize} {s : CStr} (holds : buf.Holds 0 s) :
    ∃ buf', dropNewlines buf = .ok ((), buf') ∧ buf'.Holds 0 (s.takeWhile (· ≠ newline)) := by
  -- on the newlines that are left
  induction many : newlines buf using Nat.strong_induction_on generalizing buf s with
  | _ n ih =>
    cases found : strrchr newline s with
    | none =>
      have absent := strrchr_eq_none_iff.mp found
      refine ⟨buf, whileTrue_leave (dropNewlineTurn_of_none holds absent), ?_⟩
      rwa [List.takeWhile_eq_self_iff.mpr]
      intro c isMem
      simpa using fun isNewline : c = newline => absent (isNewline ▸ isMem)
    | some i =>
      obtain ⟨front, back, buf', rfl, turn, holds'⟩ := dropNewlineTurn_of_some holds found
      have fewer := dropNewlineTurn_decreases buf buf' turn
      obtain ⟨buf'', run, ends⟩ := ih (newlines buf') (many ▸ fewer) holds' rfl
      refine ⟨buf'', ?_, takeWhile_cut front back ▸ ends⟩
      rw [dropNewlines, whileTrue_round dropNewlineTurn_decreases turn]
      exact run

/-! ## The value -/

/-- `fgets` stops behind the first newline. -/
theorem fgetsLine_takeWhile (size : Nat) (contents : List UInt8) :
    (fgetsLine size contents).takeWhile (· ≠ newline) =
      (contents.take (size - 1)).takeWhile (· ≠ newline) := by
  rw [fgetsLine]
  generalize contents.take (size - 1) = room
  cases found : room.findIdx? (· == newline) with
  | none => rfl
  | some i =>
    obtain ⟨inside, isNewline, -⟩ := List.findIdx?_eq_some_iff_getElem.mp found
    rw [beq_iff_eq] at isNewline
    have split : room = room.take i ++ newline :: room.drop (i + 1) := by
      rw [← isNewline, ← List.drop_eq_getElem_cons inside, List.take_append_drop]
    have line : room.take (i + 1) = room.take i ++ newline :: [] := by
      rw [List.take_succ_eq_append_getElem inside, isNewline]
    dsimp only
    rw [line, takeWhile_cut]
    conv_rhs => rw [split, takeWhile_cut]

theorem length_fgetsLine {size : Nat} (nonempty : 0 < size) (contents : List UInt8) :
    (fgetsLine size contents).length < size := by
  have room : (contents.take (size - 1)).length < size := by
    rw [List.length_take]
    omega
  rw [fgetsLine]
  split
  · exact Nat.lt_of_le_of_lt (List.length_take_le' _ _) room
  · exact room

/-- What the buffer holds up to the first newline. -/
theorem fgetsLine_text (b : UInt8) (bs : List UInt8) :
    ((fgetsLine lineBufSize (b :: bs)).takeWhile (· ≠ 0)).takeWhile (· ≠ newline) =
      fileText (some (b :: bs)) := by
  have line := fgetsLine_takeWhile lineBufSize (b :: bs)
  have cut := congrArg (List.takeWhile fun c => decide (c ≠ 0)) line
  rw [List.takeWhile_takeWhile, List.takeWhile_takeWhile] at cut
  have same (l : List UInt8) : l.takeWhile (fun c => decide (c ≠ 0 ∧ c ≠ newline)) =
      l.takeWhile fun c => c != newline && c != 0 := by
    congr 1
    funext c
    rw [Bool.eq_iff_iff]
    simp [and_comm]
  have swapped (l : List UInt8) : l.takeWhile (fun c => decide (c ≠ newline ∧ c ≠ 0)) =
      l.takeWhile fun c => decide (c ≠ 0 ∧ c ≠ newline) := by
    congr 1
    funext c
    rw [decide_eq_decide]
    exact and_comm
  rw [List.takeWhile_takeWhile, fileText, ← same]
  simp only [decide_eq_true_eq] at cut ⊢
  rw [swapped, cut]

theorem fileValue_line (buf : Buffer lineBufSize) (b : UInt8) (bs : List UInt8) :
    fileValue buf (some (b :: bs)) = .ok (fileText (some (b :: bs))) := by
  have short := length_fgetsLine (by decide : 0 < lineBufSize) (b :: bs)
  have room : 0 + (fgetsLine lineBufSize (b :: bs) ++ [0]).length ≤ lineBufSize := by
    rw [List.length_append, List.length_singleton]
    omega
  have found : ∃ rest, (buf.overwrite 0 _ room).bytes.drop 0 =
      fgetsLine lineBufSize (b :: bs) ++ 0 :: rest := by
    exact ⟨buf.bytes.drop ((fgetsLine lineBufSize (b :: bs)).length + 1), by simp [Buffer.overwrite]⟩
  obtain ⟨rest, found⟩ := found
  have stored := Buffer.holds_of_text (@Buffer.text_ok Fault _ _ _ _ _ _ found)
  have inside : 0 + ((fgetsLine lineBufSize (b :: bs)).takeWhile (· ≠ 0)).length ≤
      lineBufSize - 1 := by
    have cut := (List.takeWhile_sublist (l := fgetsLine lineBufSize (b :: bs)) (· ≠ 0)).length_le
    omega
  obtain ⟨buf', ended, holds⟩ := @Buffer.Holds.store_nul Fault _ _ _ _ _ stored _ inside (by decide)
  obtain ⟨buf'', loop, holds'⟩ := dropNewlines_ok holds
  rw [fileValue, ok_bind (Buffer.storeAll_ok room), ok_bind ended, ok_bind loop, ← fgetsLine_text]
  exact holds'.text

/-- **Whatever a file holds, `osysmon_file_read` stays inside its buffer, its loop ends, and it
    publishes the first line, cut at the first NUL and at 511 bytes.** -/
theorem osysmonFileRead_published (buf : Buffer lineBufSize) (contents : Option (List UInt8)) :
    fileValue buf contents = .ok (fileText contents) ∧
      ∀ (file : OsysmonFile) (parent : Option Ptr),
        osysmonFileRead file contents parent = addValues parent [(file.name, fileText contents)] := by
  refine ⟨?_, fun _ _ => rfl⟩
  cases contents with
  | none => rfl
  | some contents =>
    cases contents with
    | nil => rfl
    | cons b bs => exact fileValue_line buf b bs

end OsmoSysmon
