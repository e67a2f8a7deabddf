import Mathlib.Logic.Function.Basic
import Mathlib.Data.List.Basic

/-!
Settings in layers.

A source of settings is a list of assignments and the last one to a key wins
(`last`); `apply` lays such a list over what was there before. `Lays` is the
specification of a program that reads such a source into a record: it fails
exactly when some item is refused, and otherwise the record is what it was with
all assignments laid over it in order. Sequencing and loops keep it.
-/

namespace Overlay

variable {κ α β σ ι ε : Type} [DecidableEq κ]

/-- The last assignment to a key. -/
def last (k : κ) : List (κ × α) → Option α
  | [] => none
  | a :: rest => (last k rest).or (if a.1 = k then some a.2 else none)

def apply (f : κ → α) (assignments : List (κ × α)) : κ → α :=
  assignments.foldl (fun f a => Function.update f a.1 a.2) f

theorem apply_append (f : κ → α) (l l' : List (κ × α)) : apply f (l ++ l') = apply (apply f l) l' :=
  List.foldl_append

theorem apply_eq_last (f : κ → α) (l : List (κ × α)) (k : κ) :
    apply f l k = (last k l).getD (f k) := by
  induction l generalizing f with
  | nil => rfl
  | cons a rest ih =>
      have step : apply f (a :: rest) k = apply (Function.update f a.1 a.2) rest k := rfl
      rw [step, ih, last]
      cases last k rest with
      | some v => rfl
      | none =>
          by_cases same : a.1 = k
          · subst same
            simp
          · simp [same, Function.update_of_ne (Ne.symm same)]

theorem mem_of_last {l : List (κ × α)} {k : κ} {v : α} (h : last k l = some v) : (k, v) ∈ l := by
  induction l with
  | nil => cases h
  | cons a rest ih =>
      rw [last] at h
      cases later : last k rest with
      | some w =>
          rw [later] at h
          cases h
          exact List.mem_cons_of_mem _ (ih later)
      | none =>
          rw [later] at h
          split_ifs at h with same
          · cases h
            exact same ▸ List.mem_cons_self
          · cases h

/-- Reading the values of a list that is readable throughout commutes with
taking the last one. -/
theorem last_filterMap {read : κ → β → Option α} {l : List (κ × β)}
    (readable : ∀ a ∈ l, (read a.1 a.2).isSome = true) (k : κ) :
    last k (l.filterMap fun a => (read a.1 a.2).map (a.1, ·)) = (last k l).bind (read k) := by
  induction l with
  | nil => rfl
  | cons a rest ih =>
      obtain ⟨v, eq⟩ := Option.isSome_iff_exists.mp (readable a List.mem_cons_self)
      have tail := ih fun b mem => readable b (List.mem_cons_of_mem _ mem)
      have first : (a :: rest).filterMap (fun a => (read a.1 a.2).map (a.1, ·))
          = (a.1, v) :: rest.filterMap fun a => (read a.1 a.2).map (a.1, ·) :=
        List.filterMap_cons_some (by rw [eq]; rfl)
      rw [first, last, last, tail]
      cases later : last k rest with
      | some u =>
          obtain ⟨w, value⟩ :=
            Option.isSome_iff_exists.mp (readable (k, u) (List.mem_cons_of_mem _ (mem_of_last later)))
          have value' : read k u = some w := value
          simp [value']
      | none =>
          by_cases same : a.1 = k
          · subst same
            simp [eq]
          · simp [same]

/-- A table with one entry for each key that has a value. -/
theorem last_table (e : κ → Option α) (keys : List κ) (k : κ) :
    last k (keys.filterMap fun k => (e k).map (k, ·)) = if k ∈ keys then e k else none := by
  induction keys with
  | nil => rfl
  | cons k' rest ih =>
      cases value : e k' with
      | none =>
          have skip : (k' :: rest).filterMap (fun k => (e k).map (k, ·))
              = rest.filterMap fun k => (e k).map (k, ·) :=
            List.filterMap_cons_none (by rw [value]; rfl)
          rw [skip, ih]
          by_cases same : k = k'
          · subst same
            simp [value]
          · simp [same]
      | some v =>
          have first : (k' :: rest).filterMap (fun k => (e k).map (k, ·))
              = (k', v) :: rest.filterMap fun k => (e k).map (k, ·) :=
            List.filterMap_cons_some (by rw [value]; rfl)
          rw [first, last, ih]
          by_cases same : k = k'
          · subst same
            by_cases later : k ∈ rest <;> simp [later, value]
          · have differs : ¬ k' = k := fun eq => same eq.symm
            by_cases later : k ∈ rest <;> simp [later, same, differs]

/-! ### Programs that lay settings over a record -/

/-- What one item of a source means: `none` if it is refused, otherwise the
assignments it makes. -/
abbrev Part (κ α : Type) := Option (List (κ × α))

/-- `f` fails exactly when one of the parts is refused, and otherwise lays all
of them over the record. -/
def Lays (get : σ → κ → α) (parts : List (Part κ α)) (f : σ → Except ε σ) : Prop :=
  ∀ s, (∃ e, f s = .error e ∧ none ∈ parts) ∨
    ∃ s', f s = .ok s' ∧ none ∉ parts ∧ get s' = apply (get s) (parts.flatMap (·.getD []))

variable {get : σ → κ → α} {parts parts' : List (Part κ α)}

theorem Lays.pure : Lays get [] (Pure.pure : σ → Except ε σ) := fun s =>
  .inr ⟨s, rfl, by simp, rfl⟩

theorem Lays.single {part : Part κ α} {f : σ → Except ε σ}
    (refused : ∀ s, part = none → ∃ e, f s = .error e)
    (accepted : ∀ s l, part = some l → ∃ s', f s = .ok s' ∧ get s' = apply (get s) l) :
    Lays get [part] f := by
  intro s
  cases part with
  | none =>
      obtain ⟨e, eq⟩ := refused s rfl
      exact .inl ⟨e, eq, List.mem_cons_self⟩
  | some l =>
      obtain ⟨s', eq, got⟩ := accepted s l rfl
      exact .inr ⟨s', eq, by simp, by simpa using got⟩

theorem Lays.bind {f g : σ → Except ε σ} (hf : Lays get parts f) (hg : Lays get parts' g) :
    Lays get (parts ++ parts') (fun s => f s >>= g) := by
  intro s
  dsimp only
  rcases hf s with ⟨e, failed, bad⟩ | ⟨s₁, ok, good, got⟩
  · exact .inl ⟨e, by rw [failed]; rfl, List.mem_append_left _ bad⟩
  · have unfolded : (f s >>= g) = g s₁ := by rw [ok]; rfl
    rw [unfolded]
    rcases hg s₁ with ⟨e, failed, bad⟩ | ⟨s', ok', good', got'⟩
    · exact .inl ⟨e, failed, List.mem_append_right _ bad⟩
    · refine .inr ⟨s', ok', ?_, ?_⟩
      · simp only [List.mem_append, not_or]
        exact ⟨good, good'⟩
      · rw [got', got, List.flatMap_append, apply_append]

/-- A loop over items that each lay their part. -/
theorem Lays.foldlM {step : σ → ι → Except ε σ} {meaning : ι → Part κ α}
    {items : List ι} (each : ∀ i ∈ items, Lays get [meaning i] (step · i)) :
    Lays get (items.map meaning) (items.foldlM step) := by
  induction items with
  | nil => exact Lays.pure
  | cons i rest ih =>
      have tail := ih fun j mem => each j (List.mem_cons_of_mem _ mem)
      have both := (each i List.mem_cons_self).bind tail
      intro s
      dsimp only
      rw [List.foldlM_cons]
      exact both s

end Overlay
