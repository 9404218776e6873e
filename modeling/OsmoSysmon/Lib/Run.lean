/-! # Runs of a step relation

A run is listed transition by transition, so that a property of every state reached, or
a condition on every step taken, is a statement about the members of the list.
-/

namespace Run

/-- One step of a run. -/
structure Transition (σ ε : Type) where
  before : σ
  event : ε
  after : σ

variable {σ ε : Type} {step : σ → ε → σ → Prop}

/-- The transitions of a run from a state, in order. -/
inductive Path (step : σ → ε → σ → Prop) : σ → List (Transition σ ε) → Prop
  | stop {s : σ} : Path step s []
  | next {s t : σ} {e : ε} {rest : List (Transition σ ε)} :
      step s e t → Path step t rest → Path step s (⟨s, e, t⟩ :: rest)

variable {s : σ} {path : List (Transition σ ε)}

theorem Path.taken (run : Path step s path) : ∀ x ∈ path, step x.before x.event x.after := by
  induction run with
  | stop => simp
  | next taken _ ih => exact List.forall_mem_cons.mpr ⟨taken, ih⟩

/-- What holds in the beginning and is kept by every step holds in every state. -/
theorem Path.invariant {I : σ → Prop} (run : Path step s path) (start : I s)
    (keeps : ∀ s e t, I s → step s e t → I t) : ∀ x ∈ path, I x.before ∧ I x.after := by
  induction run with
  | stop => simp
  | next taken _ ih =>
    have after := keeps _ _ _ start taken
    intro x mem
    cases mem with
    | head => exact ⟨start, after⟩
    | tail _ later => exact ih after x later

/-- If exactly the good steps keep a property, it holds in every state reached exactly if
    every step is good.  `I` is what the run keeps as long as the property holds. -/
theorem Path.all_iff {I P : σ → Prop} {Good : σ → ε → Prop} (run : Path step s path)
    (start : I s) (here : P s) (keeps : ∀ s e t, I s → step s e t → P t → I t)
    (exact : ∀ s e t, I s → P s → step s e t → (P t ↔ Good s e)) :
    (∀ x ∈ path, P x.after) ↔ ∀ x ∈ path, Good x.before x.event := by
  induction run with
  | stop => simp
  | next taken _ ih =>
    have first := exact _ _ _ start here taken
    simp only [List.forall_mem_cons]
    -- behind a step that is not good neither side holds
    constructor
    · intro all
      exact ⟨first.mp all.1, (ih (keeps _ _ _ start taken all.1) all.1).mp all.2⟩
    · intro good
      have holds := first.mpr good.1
      exact ⟨holds, (ih (keeps _ _ _ start taken holds) holds).mpr good.2⟩

end Run
