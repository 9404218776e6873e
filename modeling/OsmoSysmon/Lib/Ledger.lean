import Mathlib.Data.Multiset.AddSub

/-! # What is held

A ledger lists what has been acquired and released, newest first.  `settle` works out what
is held in the end; it is defined unless something is released that is not held.
-/

namespace Ledger

inductive Move (ρ : Type) where
  | acquire (r : ρ)
  | release (r : ρ)
deriving DecidableEq, Repr

variable {ρ : Type} [DecidableEq ρ]

/-- What is held after the moves. -/
def settle (start : Multiset ρ) : List (Move ρ) → Option (Multiset ρ)
  | [] => some start
  | .acquire r :: older => (settle start older).map (r ::ₘ ·)
  | .release r :: older =>
    (settle start older).bind fun held => if r ∈ held then some (held.erase r) else none

variable {start held frame : Multiset ρ} {moves newer : List (Move ρ)} {r : ρ}

theorem settle_acquire (settled : settle start moves = some held) :
    settle start (.acquire r :: moves) = some (r ::ₘ held) := by
  rw [settle, settled, Option.map_some]

theorem settle_release (settled : settle start moves = some (r ::ₘ held)) :
    settle start (.release r :: moves) = some held := by
  simp [settle, settled]

theorem settle_append (start : Multiset ρ) (newer moves : List (Move ρ)) :
    settle start (newer ++ moves) = (settle start moves).bind (settle · newer) := by
  induction newer with
  | nil => simp [settle]
  | cons move newer ih =>
    cases move with
    | acquire r =>
      rw [List.cons_append, settle, ih]
      cases settle start moves <;> simp [settle]
    | release r =>
      rw [List.cons_append, settle, ih]
      cases settle start moves <;> simp [settle]

/-- What else is held stays held. -/
theorem settle_frame (settled : settle start moves = some held) (frame : Multiset ρ) :
    settle (start + frame) moves = some (held + frame) := by
  induction moves generalizing held with
  | nil =>
    cases settled
    rfl
  | cons move moves ih =>
    cases move with
    | acquire r =>
      obtain ⟨before, isBefore, rfl⟩ := Option.map_eq_some_iff.mp settled
      rw [settle_acquire (ih isBefore), Multiset.cons_add]
    | release r =>
      obtain ⟨before, isBefore, rest⟩ := Option.bind_eq_some_iff.mp settled
      by_cases mem : r ∈ before
      · rw [if_pos mem, Option.some.injEq] at rest
        subst rest
        have again : settle (start + frame) moves = some (r ::ₘ (before.erase r + frame)) := by
          rw [ih isBefore, ← Multiset.cons_add, Multiset.cons_erase mem]
        exact settle_release again
      · rw [if_neg mem] at rest
        cases rest

/-- Each thing is released as often as it is acquired, except for what is still held. -/
theorem count_settle (settled : settle start moves = some held) (r : ρ) :
    start.count r + moves.count (.acquire r) = moves.count (.release r) + held.count r := by
  induction moves generalizing held with
  | nil =>
    cases settled
    simp
  | cons move moves ih =>
    cases move with
    | acquire s =>
      obtain ⟨before, isBefore, rfl⟩ := Option.map_eq_some_iff.mp settled
      have balance := ih isBefore
      by_cases same : s = r
      · subst same
        simp
        omega
      · simp [same, Ne.symm same, balance]
    | release s =>
      obtain ⟨before, isBefore, rest⟩ := Option.bind_eq_some_iff.mp settled
      have balance := ih isBefore
      by_cases mem : s ∈ before
      · rw [if_pos mem, Option.some.injEq] at rest
        subst rest
        by_cases same : s = r
        · subst same
          have held := Multiset.count_pos.mpr mem
          simp
          omega
        · simp [same, Multiset.count_erase_of_ne (Ne.symm same), balance]
      · rw [if_neg mem] at rest
        cases rest

/-- Everything that has been acquired has been released once, except for what is kept. -/
def Accounted (moves : List (Move ρ)) (kept : Multiset ρ) : Prop :=
  ∀ r, .acquire r ∈ moves → moves.count (.release r) = if r ∈ kept then 0 else 1

/-- With nothing acquired twice, what is held beyond what is kept is what is missing. -/
theorem accounted_iff {kept : Multiset ρ} (settled : settle 0 moves = some held)
    (once : ∀ r, moves.count (.acquire r) ≤ 1) (sub : kept ≤ held) :
    Accounted moves kept ↔ held = kept := by
  have balance := count_settle settled
  constructor
  · intro accounted
    ext r
    have balance := balance r
    have least := Multiset.count_le_of_le r sub
    rw [Multiset.count_zero] at balance
    by_cases mem : .acquire r ∈ moves
    · have released := accounted r mem
      have atMost := once r
      by_cases isKept : r ∈ kept
      · have := Multiset.count_pos.mpr isKept
        omega
      · rw [if_neg isKept] at released
        omega
    · have := List.count_eq_zero.mpr mem
      omega
  · rintro rfl r mem
    have balance := balance r
    have atLeast := List.count_pos_iff.mpr mem
    have atMost := once r
    rw [Multiset.count_zero] at balance
    split
    · next isKept =>
      have := Multiset.count_pos.mpr isKept
      omega
    · next notKept =>
      have := Multiset.count_eq_zero.mpr notKept
      omega

end Ledger
