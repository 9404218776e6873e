import Mathlib.Data.List.Nodup

/-! # Finite maps that remember the order of insertion

A map holds data that carry their own key.  Putting a key that is there replaces its data
in place, putting a new one appends it, and dropping a key closes the gap.  What a
history of changes leaves in a map can be said without the map: `latest` is the data of
a key, and `birth` is the time since which it has been there.
-/

@[ext] structure OrderedMap {κ δ : Type} (key : δ → κ) where
  entries : List δ
  distinct : (entries.map key).Nodup

namespace OrderedMap

variable {κ δ : Type} [DecidableEq κ] {key : δ → κ}

def empty : OrderedMap key where
  entries := []
  distinct := List.nodup_nil

def keys (m : OrderedMap key) : List κ := m.entries.map key

def find? (m : OrderedMap key) (k : κ) : Option δ := m.entries.find? fun d => key d == k

/-- Overwrites the data with the same key. -/
def overwrite (key : δ → κ) (new d : δ) : δ := if key d = key new then new else d

theorem key_overwrite (key : δ → κ) (new d : δ) : key (overwrite key new d) = key d := by
  rw [overwrite]
  split
  · next same => exact same.symm
  · rfl

theorem map_key_overwrite (key : δ → κ) (new : δ) (l : List δ) :
    (l.map (overwrite key new)).map key = l.map key := by
  simp [Function.comp_def, key_overwrite]

def put (m : OrderedMap key) (d : δ) : OrderedMap key :=
  if there : key d ∈ m.keys then
    { entries := m.entries.map (overwrite key d)
      distinct := by
        rw [map_key_overwrite]
        exact m.distinct }
  else
    { entries := m.entries ++ [d]
      distinct := by
        rw [List.map_append, List.map_singleton, ← List.concat_eq_append]
        exact m.distinct.concat there }

def drop (m : OrderedMap key) (k : κ) : OrderedMap key where
  entries := m.entries.filter fun d => key d != k
  distinct := m.distinct.sublist (List.filter_sublist.map key)

/-! ## Keys and data after a change -/

theorem find?_eq_none_iff {m : OrderedMap key} {k : κ} : m.find? k = none ↔ k ∉ m.keys := by
  simp [find?, keys, List.find?_eq_none]

theorem key_of_find? {m : OrderedMap key} {k : κ} {d : δ} (found : m.find? k = some d) :
    d ∈ m.entries ∧ key d = k := by
  have isKey := List.find?_some found
  exact ⟨List.mem_of_find?_eq_some found, by simpa using isKey⟩

theorem entries_put_new {m : OrderedMap key} {d : δ} (new : key d ∉ m.keys) :
    (m.put d).entries = m.entries ++ [d] := by
  rw [put, dif_neg new]

theorem mem_put {m : OrderedMap key} {d e : δ} (mem : e ∈ (m.put d).entries) :
    e = d ∨ e ∈ m.entries := by
  rw [put] at mem
  split at mem
  · obtain ⟨old, isOld, rfl⟩ := List.mem_map.mp mem
    rw [overwrite]
    split
    · exact .inl rfl
    · exact .inr isOld
  · exact (List.mem_append.mp mem).symm.imp List.mem_singleton.mp id

theorem mem_drop {m : OrderedMap key} {k : κ} {e : δ} (mem : e ∈ (m.drop k).entries) :
    e ∈ m.entries := List.mem_of_mem_filter mem

theorem keys_put (m : OrderedMap key) (d : δ) :
    (m.put d).keys = if key d ∈ m.keys then m.keys else m.keys ++ [key d] := by
  rw [put]
  split
  · exact map_key_overwrite key d m.entries
  · simp [keys]

theorem keys_drop (m : OrderedMap key) (k : κ) : (m.drop k).keys = m.keys.filter (· != k) := by
  rw [drop, keys, keys, List.filter_map]
  rfl

theorem find?_overwrite (new : δ) (l : List δ) (k : κ) (there : key new ∈ l.map key) :
    (l.map (overwrite key new)).find? (fun d => key d == k) =
      if key new = k then some new else l.find? fun d => key d == k := by
  -- the same entry is found as before
  have sameKey : ((fun d => key d == k) ∘ overwrite key new) = fun d => key d == k := by
    funext d
    rw [Function.comp, key_overwrite key new d]
  rw [List.find?_map, sameKey]
  cases found : l.find? fun d => key d == k with
  | none =>
    obtain ⟨d, mem, isNew⟩ := List.mem_map.mp there
    have missing := List.find?_eq_none.mp found d mem
    rw [isNew, beq_iff_eq] at missing
    simp [missing]
  | some d =>
    have isKey : key d = k := by simpa using List.find?_some found
    by_cases wanted : key new = k
    · simp [overwrite, isKey, wanted]
    · simp [overwrite, isKey, wanted, Ne.symm wanted]

theorem find?_put (m : OrderedMap key) (d : δ) (k : κ) :
    (m.put d).find? k = if key d = k then some d else m.find? k := by
  rw [put]
  split
  · next there => exact find?_overwrite d m.entries k there
  · next new =>
    rw [find?, List.find?_append]
    by_cases wanted : key d = k
    · have missing : m.find? k = none := find?_eq_none_iff.mpr (wanted ▸ new)
      rw [find?] at missing
      simp [wanted, missing]
    · simp [wanted, find?]

/-- Putting what is there changes nothing. -/
theorem put_of_find? {m : OrderedMap key} {d : δ} (there : m.find? (key d) = some d) :
    m.put d = m := by
  obtain ⟨mem, -⟩ := key_of_find? there
  have isKey : key d ∈ m.keys := List.mem_map_of_mem mem
  have same : ∀ e ∈ m.entries, overwrite key d e = id e := by
    intro e isEntry
    by_cases sameKey : key e = key d
    · rw [overwrite, if_pos sameKey, List.inj_on_of_nodup_map m.distinct isEntry mem sameKey, id]
    · rw [overwrite, if_neg sameKey, id]
  rw [put, dif_pos isKey]
  apply OrderedMap.ext
  show m.entries.map (overwrite key d) = m.entries
  rw [List.map_congr_left same, List.map_id]

theorem find?_drop (m : OrderedMap key) (j k : κ) :
    (m.drop j).find? k = if j = k then none else m.find? k := by
  rw [drop, find?, List.find?_filter]
  by_cases wanted : j = k
  · subst wanted
    simp
  · rw [if_neg wanted, find?]
    congr 1
    funext d
    by_cases isKey : key d = k
    · simp [isKey, Ne.symm wanted]
    · simp [isKey]

/-- Dropping the key of an entry leaves the entries around it. -/
theorem entries_drop {m : OrderedMap key} {as bs : List δ} {d : δ} (isMap : m.entries = as ++ d :: bs) :
    (m.drop (key d)).entries = as ++ bs := by
  have distinct := m.distinct
  rw [isMap, List.map_append, List.map_cons, List.nodup_middle, List.nodup_cons,
    ← List.map_append] at distinct
  have others : ∀ e ∈ as ++ bs, (key e != key d) = true := by
    intro e isOther
    rw [bne_iff_ne]
    intro sameKey
    exact distinct.1 (sameKey ▸ List.mem_map_of_mem isOther)
  rw [List.forall_mem_append] at others
  show m.entries.filter (fun e => key e != key d) = as ++ bs
  rw [isMap, List.filter_append, List.filter_cons_of_neg (by simp), List.filter_eq_self.mpr others.1, List.filter_eq_self.mpr others.2]

/-! ## Histories -/

inductive Change (κ δ : Type) where
  | put (d : δ)
  | drop (k : κ)

def apply (m : OrderedMap key) : Change κ δ → OrderedMap key
  | .put d => m.put d
  | .drop k => m.drop k

/-- The map after changes, which are listed newest first. -/
def after : List (Change κ δ) → OrderedMap key
  | [] => empty
  | change :: older => (after older).apply change

/-- The data of the last put of a key that has not been dropped since. -/
def latest (key : δ → κ) (k : κ) : List (Change κ δ) → Option δ
  | [] => none
  | .put d :: older => if key d = k then some d else latest key k older
  | .drop j :: older => if j = k then none else latest key k older

/-- The number of changes before the first put of a key since its last drop. -/
def birth (key : δ → κ) (k : κ) : List (Change κ δ) → Option Nat
  | [] => none
  | .put d :: older =>
    if key d = k then some ((birth key k older).getD older.length) else birth key k older
  | .drop j :: older => if j = k then none else birth key k older

/-- One key has been there for longer than another. -/
def Older (key : δ → κ) (history : List (Change κ δ)) (j k : κ) : Prop :=
  ∃ m n, birth key j history = some m ∧ birth key k history = some n ∧ m < n

theorem find?_after (history : List (Change κ δ)) (k : κ) :
    (after history : OrderedMap key).find? k = latest key k history := by
  induction history with
  | nil => rfl
  | cons change older ih =>
    cases change with
    | put d => rw [after, apply, find?_put, ih, latest]
    | drop j => rw [after, apply, find?_drop, ih, latest]

theorem birth_lt {history : List (Change κ δ)} {k : κ} {n : Nat}
    (born : birth key k history = some n) : n < history.length := by
  induction history generalizing n with
  | nil => cases born
  | cons change older ih =>
    rw [List.length_cons]
    cases change with
    | put d =>
      rw [birth] at born
      split at born
      · cases before : birth key k older with
        | none => simp [before] at born; omega
        | some m =>
          have := ih before
          simp [before] at born
          omega
      · have := ih born
        omega
    | drop j =>
      rw [birth] at born
      split at born
      · cases born
      · have := ih born
        omega

theorem mem_keys_after (history : List (Change κ δ)) (k : κ) :
    k ∈ (after history : OrderedMap key).keys ↔ (birth key k history).isSome = true := by
  induction history with
  | nil => simp [after, birth, keys, empty]
  | cons change older ih =>
    cases change with
    | put d =>
      rw [after, apply, keys_put, birth]
      by_cases isKey : key d = k
      · subst isKey
        by_cases there : key d ∈ (after older : OrderedMap key).keys <;> simp [there]
      · by_cases there : key d ∈ (after older : OrderedMap key).keys
        · simp [there, isKey, ih]
        · simp [there, isKey, Ne.symm isKey, ih]
    | drop j =>
      rw [after, apply, keys_drop, birth]
      by_cases isKey : j = k
      · simp [isKey]
      · simp [isKey, Ne.symm isKey, ih]

/-- The entries are in the order in which their keys have been put. -/
theorem sorted_after (history : List (Change κ δ)) :
    (after history : OrderedMap key).keys.Pairwise (Older key history) := by
  induction history with
  | nil => exact List.Pairwise.nil
  | cons change older ih =>
    cases change with
    | put d =>
      rw [after, apply, keys_put]
      by_cases there : key d ∈ (after older : OrderedMap key).keys
      · -- no key gets a new time
        rw [if_pos there]
        have same : ∀ k, birth key k (.put d :: older) = birth key k older := by
          intro k
          rw [birth]
          split
          · next isKey =>
            subst isKey
            obtain ⟨n, born⟩ := Option.isSome_iff_exists.mp ((mem_keys_after older _).mp there)
            simp [born]
          · rfl
        exact ih.imp fun ⟨m, n, hm, hn, less⟩ => ⟨m, n, (same _).trans hm, (same _).trans hn, less⟩
      · rw [if_neg there, List.pairwise_append]
        have kept : ∀ k ∈ (after older : OrderedMap key).keys,
            birth key k (.put d :: older) = birth key k older := by
          intro k mem
          rw [birth, if_neg]
          rintro rfl
          exact there mem
        refine ⟨?_, List.pairwise_singleton _ _, ?_⟩
        · apply ih.imp_of_mem
          rintro j k memJ memK ⟨m, n, hm, hn, less⟩
          exact ⟨m, n, (kept j memJ).trans hm, (kept k memK).trans hn, less⟩
        · intro j memJ k isNew
          rw [List.mem_singleton] at isNew
          subst isNew
          obtain ⟨m, born⟩ := Option.isSome_iff_exists.mp ((mem_keys_after older j).mp memJ)
          have never : birth key (key d) older = none := by
            rw [← Option.not_isSome_iff_eq_none, ← mem_keys_after]
            exact there
          exact ⟨m, older.length, (kept j memJ).trans born, by simp [birth, never], birth_lt born⟩
    | drop j =>
      rw [after, apply, keys_drop]
      apply (ih.filter _).imp_of_mem
      rintro i k memI memK ⟨m, n, hm, hn, less⟩
      have notI := (List.mem_filter.mp memI).2
      have notK := (List.mem_filter.mp memK).2
      rw [bne_iff_ne] at notI notK
      exact ⟨m, n, by rw [birth, if_neg notI.symm, hm], by rw [birth, if_neg notK.symm, hn], less⟩

end OrderedMap
