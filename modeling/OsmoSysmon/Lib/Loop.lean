/-! # Stateful programs that may fail, and their loops

Programs are `StateT σ (Except ε)`.  `bind_ok` and `bind_inv` run one statement
forwards and backwards.  `whileTrue` is the loop `while (true) body`, where a turn
of the body either leaves the loop with a result or goes round again; it is
executed with a measure of the state as fuel, and `whileTrue_round` unrolls it
whenever the measure drops on every turn that goes round.
-/

namespace Loop

variable {σ ε α β : Type}

/-! ## Statements -/

theorem bind_ok {x : StateT σ (Except ε) α} {s s' : σ} {a : α} (h : x s = .ok (a, s'))
    (f : α → StateT σ (Except ε) β) : (x >>= f) s = f a s' := by
  show (x s >>= fun p => f p.1 p.2) = f a s'
  rw [h]
  rfl

/-- Programs that do the same here can be exchanged in front of others. -/
theorem bind_same {x y : StateT σ (Except ε) α} {s t : σ} (same : x s = y t)
    (f : α → StateT σ (Except ε) β) : (x >>= f) s = (y >>= f) t := by
  show (x s >>= fun p => f p.1 p.2) = (y t >>= fun p => f p.1 p.2)
  rw [same]

theorem bind_error {x : StateT σ (Except ε) α} {s : σ} {e : ε} (h : x s = .error e)
    (f : α → StateT σ (Except ε) β) : (x >>= f) s = .error e := by
  show (x s >>= fun p => f p.1 p.2) = .error e
  rw [h]
  rfl

theorem bind_inv {x : StateT σ (Except ε) α} {f : α → StateT σ (Except ε) β} {s t : σ} {b : β}
    (h : (x >>= f) s = .ok (b, t)) : ∃ a s', x s = .ok (a, s') ∧ f a s' = .ok (b, t) := by
  cases first : x s with
  | error e => rw [bind_error first] at h; cases h
  | ok p =>
    obtain ⟨a, s'⟩ := p
    rw [bind_ok first] at h
    exact ⟨a, s', rfl, h⟩

/-- A statement of a program without state. -/
theorem ok_bind {x : Except ε α} {a : α} (h : x = .ok a) (f : α → Except ε β) :
    (x >>= f) = f a := by
  rw [h]
  rfl

theorem ok_bind_inv {x : Except ε α} {f : α → Except ε β} {b : β} (h : (x >>= f) = .ok b) :
    ∃ a, x = .ok a ∧ f a = .ok b := by
  cases x with
  | error e => cases h
  | ok a => exact ⟨a, rfl, h⟩

/-- A statement for each element of a list. -/
theorem mapM_ok {f : α → Except ε β} {l : List α} (each : ∀ a ∈ l, ∃ b, f a = .ok b) :
    ∃ bs, l.mapM f = .ok bs := by
  induction l with
  | nil => exact ⟨[], rfl⟩
  | cons a l ih =>
    obtain ⟨b, here⟩ := each a List.mem_cons_self
    obtain ⟨bs, later⟩ := ih fun c mem => each c (List.mem_cons_of_mem a mem)
    refine ⟨b :: bs, ?_⟩
    rw [List.mapM_cons, ok_bind here, ok_bind later]
    rfl

@[simp] theorem pure_ok (a : α) (s : σ) : (pure a : StateT σ (Except ε) α) s = .ok (a, s) := rfl

@[simp] theorem throw_error (e : ε) (s : σ) :
    (throw e : StateT σ (Except ε) α) s = .error e := rfl

@[simp] theorem get_ok (s : σ) : (get : StateT σ (Except ε) σ) s = .ok (s, s) := rfl

@[simp] theorem modify_ok (f : σ → σ) (s : σ) :
    (modify f : StateT σ (Except ε) PUnit) s = .ok (⟨⟩, f s) := rfl

/-- A statement that does not touch the state. -/
theorem lift_ok {x : Except ε α} {a : α} (h : x = .ok a) (s : σ) :
    (liftM x : StateT σ (Except ε) α) s = .ok (a, s) := by
  rw [h]
  rfl

theorem lift_inv {x : Except ε α} {a : α} {s t : σ}
    (h : (liftM x : StateT σ (Except ε) α) s = .ok (a, t)) : x = .ok a ∧ t = s := by
  cases value : x with
  | error e =>
    rw [value] at h
    cases h
  | ok b =>
    rw [value] at h
    cases h
    exact ⟨rfl, rfl⟩

/-! ## Invariants -/

/-- A program that returns keeps the invariant. -/
def Keeps (I : σ → Prop) (m : StateT σ (Except ε) α) : Prop :=
  ∀ s a t, I s → m s = .ok (a, t) → I t

theorem Keeps.pure (I : σ → Prop) (a : α) : Keeps I (pure a : StateT σ (Except ε) α) := by
  intro s b t inv run
  cases run
  exact inv

theorem Keeps.bind {I : σ → Prop} {m : StateT σ (Except ε) α} {k : α → StateT σ (Except ε) β}
    (first : Keeps I m) (rest : ∀ a, Keeps I (k a)) : Keeps I (m >>= k) := by
  intro s b u inv run
  obtain ⟨a, t, run, run'⟩ := bind_inv run
  exact rest a t b u (first s a t inv run) run'

/-! ## Loops -/

/-- At most `fuel` turns of the loop. -/
def turns (stuck : ε) (body : StateT σ (Except ε) (Option α)) : Nat → StateT σ (Except ε) α
  | 0 => throw stuck
  | fuel + 1 => do
    match ← body with
    | some a => pure a
    | none => turns stuck body fuel

/-- `while (true) body`. -/
def whileTrue (stuck : ε) (measure : σ → Nat) (body : StateT σ (Except ε) (Option α)) :
    StateT σ (Except ε) α :=
  fun s => turns stuck body (measure s + 1) s

theorem Keeps.whileTrue {I : σ → Prop} {body : StateT σ (Except ε) (Option α)}
    (turn : Keeps I body) (stuck : ε) (measure : σ → Nat) :
    Keeps I (whileTrue stuck measure body) := by
  have each (fuel : Nat) : Keeps I (turns stuck body fuel) := by
    induction fuel with
    | zero => nofun
    | succ fuel ih =>
      apply turn.bind
      intro result
      cases result with
      | some a => exact .pure I a
      | none => exact ih
  intro s
  exact each (measure s + 1) s

/-- Every turn that goes round makes the measure smaller. -/
def Decreases (measure : σ → Nat) (body : StateT σ (Except ε) (Option α)) : Prop :=
  ∀ s s', body s = .ok (none, s') → measure s' < measure s

/-- The states at which the loop from `s` starts a turn. -/
inductive Turn (body : StateT σ (Except ε) (Option α)) (s : σ) : σ → Prop
  | first : Turn body s s
  | next {t u : σ} : Turn body s t → body t = .ok (none, u) → Turn body s u

section

variable {stuck : ε} {measure : σ → Nat} {body : StateT σ (Except ε) (Option α)}

theorem Turn.step {s t u : σ} (h : body s = .ok (none, t)) (rest : Turn body t u) :
    Turn body s u := by
  induction rest with
  | first => exact .next .first h
  | next _ round ih => exact .next ih round

theorem Turn.head {s u : σ} (reached : Turn body s u) : u = s ∨ ∃ t, body s = .ok (none, t) := by
  induction reached with
  | first => exact .inl rfl
  | next _ round ih =>
    right
    rcases ih with rfl | goesRound
    · exact ⟨_, round⟩
    · exact goesRound

theorem turns_eq_of_fuel (decreases : Decreases measure body) {n m : Nat} {s : σ}
    (hn : measure s < n) (hm : measure s < m) :
    turns stuck body n s = turns stuck body m s := by
  induction n generalizing m s with
  | zero => omega
  | succ n ih =>
    obtain ⟨m, rfl⟩ : ∃ k, m = k + 1 := ⟨m - 1, by omega⟩
    cases turn : body s with
    | error e => simp only [turns, bind_error turn]
    | ok result =>
      obtain ⟨done, s'⟩ := result
      simp only [turns, bind_ok turn]
      cases done with
      | some a => rfl
      | none =>
        have smaller := decreases s s' turn
        exact ih (by omega) (by omega)

/-- A turn that leaves the loop ends it with its result. -/
theorem whileTrue_leave {s s' : σ} {a : α} (turn : body s = .ok (some a, s')) :
    whileTrue stuck measure body s = .ok (a, s') := by
  simp only [whileTrue, turns, bind_ok turn, pure_ok]

/-- A turn that goes round is followed by the whole loop again. -/
theorem whileTrue_round (decreases : Decreases measure body) {s s' : σ}
    (turn : body s = .ok (none, s')) :
    whileTrue stuck measure body s = whileTrue stuck measure body s' := by
  have smaller := decreases s s' turn
  simp only [whileTrue]
  rw [turns, bind_ok turn]
  exact turns_eq_of_fuel decreases smaller (by omega)

theorem whileTrue_fail {s : σ} {e : ε} (turn : body s = .error e) :
    whileTrue stuck measure body s = .error e := by
  simp only [whileTrue, turns, bind_error turn]

/-- Turns that do the same start the same loop. -/
theorem whileTrue_congr (decreases : Decreases measure body) {s s' : σ} (same : body s = body s') :
    whileTrue stuck measure body s = whileTrue stuck measure body s' := by
  cases turn : body s' with
  | error e => rw [whileTrue_fail (same.trans turn), whileTrue_fail turn]
  | ok result =>
    obtain ⟨done, t⟩ := result
    cases done with
    | some a => rw [whileTrue_leave (same.trans turn), whileTrue_leave turn]
    | none => rw [whileTrue_round decreases (same.trans turn), whileTrue_round decreases turn]

/-- The loop always ends in a turn that leaves it or fails: it never runs out of
    fuel. -/
theorem whileTrue_ends (stuck : ε) (decreases : Decreases measure body) (s : σ) :
    ∃ t, Turn body s t ∧
      ((∃ a t', body t = .ok (some a, t') ∧ whileTrue stuck measure body s = .ok (a, t')) ∨
        ∃ e, body t = .error e ∧ whileTrue stuck measure body s = .error e) := by
  induction size : measure s using Nat.strongRecOn generalizing s with
  | ind n ih =>
    cases turn : body s with
    | error e => exact ⟨s, .first, .inr ⟨e, turn, whileTrue_fail turn⟩⟩
    | ok result =>
      obtain ⟨done, s'⟩ := result
      cases done with
      | some a => exact ⟨s, .first, .inl ⟨a, s', turn, whileTrue_leave turn⟩⟩
      | none =>
        obtain ⟨t, reached, ending⟩ := ih _ (size ▸ decreases s s' turn) s' rfl
        rw [whileTrue_round decreases turn]
        exact ⟨t, reached.step turn, ending⟩

end

end Loop
