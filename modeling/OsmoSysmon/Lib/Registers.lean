import Mathlib.Data.List.Induction

/-! # Registers

A register is a part of a state that each event either overwrites or leaves alone.  After any
history it holds what the last event to write it has written.
-/

namespace Register

variable {σ ε α : Type}

/-- What a history leaves in a register that held `initial`. -/
def lastWrite (writes : ε → Option α) (initial : α) (events : List ε) : α :=
  (events.filterMap writes).getLast?.getD initial

variable {writes : ε → Option α} {initial : α}

@[simp] theorem lastWrite_nil : lastWrite writes initial [] = initial := rfl

theorem lastWrite_concat (events : List ε) (e : ε) :
    lastWrite writes initial (events ++ [e]) =
      (writes e).getD (lastWrite writes initial events) := by
  cases written : writes e with
  | none => simp [lastWrite, List.filterMap_append, written]
  | some a => simp [lastWrite, List.filterMap_append, written]

/-- The rule for a register: it is enough to look at one event. -/
theorem foldl_eq_lastWrite (read : σ → α) {step : σ → ε → σ}
    (each : ∀ s e, read (step s e) = (writes e).getD (read s)) (s : σ) (events : List ε) :
    read (events.foldl step s) = lastWrite writes (read s) events := by
  induction events using List.reverseRecOn with
  | nil => rfl
  | append_singleton events e ih =>
    rw [List.foldl_append, List.foldl_cons, List.foldl_nil, each, ih, lastWrite_concat]

end Register
