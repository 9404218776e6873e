import OsmoSysmon.Lib.Loop

/-! # What a program does to the state

Two programs have the same effect if they end in the same state, or with the same error,
whatever results they compute on the way.  The rules follow the structure of a program,
so that a program can be replaced by a simpler one part by part.
-/

namespace Effect

open Loop

variable {σ ε α β γ δ : Type}

def effect (m : StateT σ (Except ε) α) (s : σ) : Except ε σ :=
  match m s with
  | .ok (_, t) => .ok t
  | .error e => .error e

def SameEffect (m : StateT σ (Except ε) α) (n : StateT σ (Except ε) β) : Prop :=
  ∀ s, effect m s = effect n s

theorem effect_of_ok {m : StateT σ (Except ε) α} {s t : σ} {a : α} (run : m s = .ok (a, t)) :
    effect m s = .ok t := by
  rw [effect, run]

theorem effect_of_error {m : StateT σ (Except ε) α} {s : σ} {e : ε} (run : m s = .error e) :
    effect m s = .error e := by
  rw [effect, run]

theorem ok_of_effect {m : StateT σ (Except ε) α} {s t : σ} (ends : effect m s = .ok t) :
    ∃ a, m s = .ok (a, t) := by
  cases run : m s with
  | error e =>
    rw [effect_of_error run] at ends
    cases ends
  | ok p =>
    obtain ⟨a, u⟩ := p
    rw [effect_of_ok run] at ends
    cases ends
    exact ⟨a, rfl⟩

namespace SameEffect

variable {m : StateT σ (Except ε) α} {n : StateT σ (Except ε) β} {k : α → StateT σ (Except ε) γ}
  {l : β → StateT σ (Except ε) δ}

theorem refl (m : StateT σ (Except ε) α) : SameEffect m m := fun _ => rfl

theorem symm (same : SameEffect m n) : SameEffect n m := fun s => (same s).symm

theorem trans {o : StateT σ (Except ε) γ} (first : SameEffect m n) (second : SameEffect n o) :
    SameEffect m o := fun s => (first s).trans (second s)

/-- Only the results the programs do compute matter. -/
theorem seq_of (same : SameEffect m n)
    (rest : ∀ s t a b, m s = .ok (a, t) → n s = .ok (b, t) → effect (k a) t = effect (l b) t) :
    SameEffect (m >>= k) (n >>= l) := by
  intro s
  -- either both stop here, or both go on from one state
  have here := same s
  cases run : m s with
  | error e =>
    rw [effect_of_error run] at here
    rw [effect_of_error (bind_error run k)]
    cases run' : n s with
    | error e' =>
      rw [effect_of_error run'] at here
      rw [effect_of_error (bind_error run' l), here]
    | ok p =>
      rw [effect_of_ok run'] at here
      cases here
  | ok p =>
    obtain ⟨a, t⟩ := p
    rw [effect_of_ok run] at here
    obtain ⟨b, run'⟩ := ok_of_effect here.symm
    rw [effect, bind_ok run k, effect, bind_ok run' l]
    exact rest s t a b run run'

theorem seq (same : SameEffect m n) (rest : ∀ a b, SameEffect (k a) (l b)) :
    SameEffect (m >>= k) (n >>= l) := same.seq_of fun _ t a b _ _ => rest a b t

theorem bind {l : α → StateT σ (Except ε) δ} (rest : ∀ a, SameEffect (k a) (l a)) :
    SameEffect (m >>= k) (m >>= l) := by
  apply (refl m).seq_of
  intro s t a b run run'
  rw [run] at run'
  cases run'
  exact rest a t

/-- What is computed from the results in the end does not matter. -/
theorem ignore (f : α → γ) : SameEffect (m >>= fun a => pure (f a)) m := by
  intro s
  cases run : m s with
  | error e => rw [effect_of_error run, effect_of_error (bind_error run _)]
  | ok p =>
    obtain ⟨a, t⟩ := p
    rw [effect_of_ok run, effect, bind_ok run]
    rfl

end SameEffect

end Effect
