import OsmoSysmon.Lib.Loop

/-! # Machines that may fail, and what they implement

A machine answers each input with an output and may fail instead; what it implements is a
machine that never does.  `Simulates` is about one input.  It gives the whole run:
no input makes the machine fail, and the outputs are those of the other one.
-/

namespace Simulation

open Loop

variable {σ τ υ ι ω ε : Type}

/-- The inputs one after the other. -/
def runs (step : ι → σ → Except ε (ω × σ)) : List ι → σ → Except ε (List ω × σ)
  | [], s => .ok ([], s)
  | i :: is, s => do
    let (output, s) ← step i s
    let (outputs, s) ← runs step is s
    return (output :: outputs, s)

/-- The outputs of a machine that never fails. -/
def outputs (step : ι → τ → ω × τ) : List ι → τ → List ω
  | [], _ => []
  | i :: is, t => (step i t).1 :: outputs step is (step i t).2

/-- Where a machine ends that never fails. -/
def final (step : ι → τ → ω × τ) : List ι → τ → τ
  | [], t => t
  | i :: is, t => final step is (step i t).2

def Simulates (R : σ → τ → Prop) (step : ι → σ → Except ε (ω × σ)) (spec : ι → τ → ω × τ) : Prop :=
  ∀ i s t, R s t → ∃ s', step i s = .ok ((spec i t).1, s') ∧ R s' (spec i t).2

section

variable {R : σ → τ → Prop} {step : ι → σ → Except ε (ω × σ)} {spec : ι → τ → ω × τ}

theorem Simulates.runs (simulates : Simulates R step spec) (is : List ι) {s : σ} {t : τ}
    (related : R s t) :
    ∃ s', Simulation.runs step is s = .ok (outputs spec is t, s') ∧ R s' (final spec is t) := by
  induction is generalizing s t with
  | nil => exact ⟨s, rfl, related⟩
  | cons i is ih =>
    obtain ⟨s', here, related'⟩ := simulates i s t related
    obtain ⟨s'', later, related''⟩ := ih related'
    refine ⟨s'', ?_, related''⟩
    rw [Simulation.runs, ok_bind here]
    show (Simulation.runs step is s' >>= _) = _
    rw [ok_bind later]
    rfl

end

/-! ## Runs of the machine that never fails -/

section

variable {spec : ι → τ → ω × τ}

@[simp] theorem length_outputs (is : List ι) (t : τ) : (outputs spec is t).length = is.length := by
  induction is generalizing t with
  | nil => rfl
  | cons i is ih => rw [outputs, List.length_cons, ih, List.length_cons]

theorem outputs_append (is js : List ι) (t : τ) :
    outputs spec (is ++ js) t = outputs spec is t ++ outputs spec js (final spec is t) := by
  induction is generalizing t with
  | nil => rfl
  | cons i is ih =>
    rw [List.cons_append, outputs, ih, outputs, List.cons_append]
    rfl

/-- The output for an input is that of the state which the inputs before it have led to. -/
theorem getElem?_outputs (before : List ι) (i : ι) (after : List ι) (t : τ) :
    (outputs spec (before ++ i :: after) t)[before.length]? =
      some (spec i (final spec before t)).1 := by
  rw [outputs_append, List.getElem?_append_right (Nat.le_of_eq (length_outputs before t)),
    length_outputs, Nat.sub_self, outputs]
  rfl

end

end Simulation
