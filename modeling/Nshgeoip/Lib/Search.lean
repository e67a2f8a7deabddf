import Mathlib.Data.List.Basic

/-!
The first and the last answer in a list.

A loop that stops at the first entry it can use is `find?`, a loop in which later
entries overwrite earlier ones is the last element of a `filterMap`. Both are
described by where they cut the list.
-/

namespace ListSearch

variable {α β : Type}

/-- The first entry whose image passes. -/
theorem find?_map_eq_some_iff {f : α → β} {p : β → Bool} {l : List α} {x : β} :
    (l.map f).find? p = some x ↔ ∃ before a after, l = before ++ a :: after ∧ x = f a ∧
      p (f a) = true ∧ ∀ b ∈ before, p (f b) = false := by
  rw [List.find?_map]
  constructor
  · intro h
    obtain ⟨a, found, rfl⟩ := Option.map_eq_some_iff.mp h
    obtain ⟨here, before, after, split, earlier⟩ := List.find?_eq_some_iff_append.mp found
    refine ⟨before, a, after, split, rfl, here, ?_⟩
    intro b mem
    simpa using earlier b mem
  · rintro ⟨before, a, after, split, rfl, here, earlier⟩
    refine Option.map_eq_some_iff.mpr ⟨a, List.find?_eq_some_iff_append.mpr ?_, rfl⟩
    refine ⟨here, before, after, split, ?_⟩
    intro b mem
    simpa using earlier b mem

theorem find?_map_eq_none_iff {f : α → β} {p : β → Bool} {l : List α} :
    (l.map f).find? p = none ↔ ∀ a ∈ l, p (f a) = false := by
  simp

/-- The last entry with an answer. -/
theorem getLast?_filterMap_eq_some_iff {f : α → Option β} {l : List α} {x : β} :
    (l.filterMap f).getLast? = some x ↔
      ∃ before a after, l = before ++ a :: after ∧ f a = some x ∧ ∀ b ∈ after, f b = none := by
  constructor
  · intro h
    induction l with
    | nil => cases h
    | cons first rest ih =>
        cases later : (rest.filterMap f).getLast? with
        | some y =>
            have same : y = x := by
              rw [List.filterMap_cons] at h
              cases answer : f first with
              | none => simpa [answer, later] using h
              | some z => simpa [answer, List.getLast?_cons, later] using h
            obtain ⟨before, a, after, split, rest⟩ := ih (later.trans (congrArg some same))
            exact ⟨first :: before, a, after, by rw [split, List.cons_append], rest⟩
        | none =>
            have silent : rest.filterMap f = [] := List.getLast?_eq_none_iff.mp later
            refine ⟨[], first, rest, rfl, ?_, List.filterMap_eq_nil_iff.mp silent⟩
            rw [List.filterMap_cons] at h
            cases answer : f first with
            | none => simp [answer, silent] at h
            | some z => simpa [answer, silent] using h
  · rintro ⟨before, a, after, rfl, answer, silent⟩
    rw [List.filterMap_append, List.filterMap_cons, answer, List.filterMap_eq_nil_iff.mpr silent,
      List.getLast?_concat]

/-- A loop in which an answer replaces what was held before ends with the last one. -/
theorem foldlM_last {σ ε : Type} {step : σ → α → Except ε σ} (get : σ → β) (f : α → Option β)
    (each : ∀ s a s', step s a = .ok s' → get s' = (f a).getD (get s)) {l : List α} {s s' : σ}
    (h : l.foldlM step s = .ok s') : get s' = (l.filterMap f).getLast?.getD (get s) := by
  induction l generalizing s with
  | nil =>
      cases h
      rfl
  | cons a l ih =>
      rw [List.foldlM_cons] at h
      cases first : step s a with
      | error e =>
          rw [first] at h
          cases h
      | ok middle =>
          rw [first] at h
          rw [ih h, each s a middle first, List.filterMap_cons]
          cases f a with
          | none => rfl
          | some x =>
              rw [List.getLast?_cons]
              rfl

/-- The same for a loop that cannot fail. -/
theorem foldl_last {σ : Type} (step : σ → α → σ) (get : σ → β) (f : α → Option β)
    (each : ∀ s a, get (step s a) = (f a).getD (get s)) (l : List α) (s : σ) :
    get (l.foldl step s) = (l.filterMap f).getLast?.getD (get s) := by
  have steps : l.foldlM (fun s a => (pure (step s a) : Except Empty σ)) s = pure (l.foldl step s) :=
    List.foldlM_pure
  refine foldlM_last get f ?_ steps
  intro s a s' eq
  cases eq
  exact each s a

end ListSearch
