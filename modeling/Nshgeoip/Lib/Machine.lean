import Mathlib.Data.List.Basic

/-!
Machines driven by a list of inputs.

A machine is a total function from a state and an input to the next state. Every
list of inputs is a run, so a statement about the state after every list is a
statement about every moment of every run. `Allowed` restricts the inputs of a
run by a condition that may look at the state each of them meets; `run_invariant`
and `run_always` are the inductions, with and without a condition. `Throughout` is a
statement about every moment of one run.
-/

namespace Machine

variable {σ ι : Type}

/-- The state after a list of inputs. -/
def run (next : σ → ι → σ) (s : σ) (inputs : List ι) : σ := inputs.foldl next s

/-- Every input meets the condition in the state it arrives in. -/
def Allowed (next : σ → ι → σ) (ok : σ → ι → Prop) : σ → List ι → Prop
  | _, [] => True
  | s, input :: inputs => ok s input ∧ Allowed next ok (next s input) inputs

instance decidableAllowed {next : σ → ι → σ} {ok : σ → ι → Prop} [∀ s i, Decidable (ok s i)] :
    ∀ s inputs, Decidable (Allowed next ok s inputs)
  | _, [] => isTrue trivial
  | s, input :: inputs =>
      let _ : Decidable (Allowed next ok (next s input) inputs) := decidableAllowed _ _
      inferInstanceAs (Decidable (ok s input ∧ Allowed next ok (next s input) inputs))

/-- **An invariant that each allowed step keeps holds after every allowed run.** -/
theorem run_invariant {next : σ → ι → σ} {ok : σ → ι → Prop} {Inv : σ → Prop}
    (step : ∀ s i, Inv s → ok s i → Inv (next s i)) {s : σ} (start : Inv s) {inputs : List ι}
    (allowed : Allowed next ok s inputs) : Inv (run next s inputs) := by
  induction inputs generalizing s with
  | nil => exact start
  | cons input inputs ih => exact ih (step s input start allowed.1) allowed.2

/-- An invariant that every step keeps holds after every run. -/
theorem run_always {next : σ → ι → σ} {Inv : σ → Prop} (step : ∀ s i, Inv s → Inv (next s i))
    {s : σ} (start : Inv s) (inputs : List ι) : Inv (run next s inputs) := by
  induction inputs generalizing s with
  | nil => exact start
  | cons input inputs ih => exact ih (step s input start)

/-- A run of steps that each lower a measure is no longer than the measure. -/
theorem length_le_of_decreasing {next : σ → ι → σ} {ok : σ → ι → Prop} (measure : σ → ℕ)
    (drops : ∀ s i, ok s i → measure (next s i) < measure s) {s : σ} {inputs : List ι}
    (allowed : Allowed next ok s inputs) : inputs.length ≤ measure s := by
  induction inputs generalizing s with
  | nil => exact Nat.zero_le _
  | cons input inputs ih =>
      have now := drops s input allowed.1
      have later := ih allowed.2
      rw [List.length_cons]
      omega

/-- The states a run passes through, the first and the last included. -/
def Throughout (next : σ → ι → σ) (P : σ → Prop) : σ → List ι → Prop
  | s, [] => P s
  | s, input :: inputs => P s ∧ Throughout next P (next s input) inputs

section Throughout

variable {next : σ → ι → σ} {P : σ → Prop} {s : σ}

theorem throughout_iff {inputs : List ι} :
    Throughout next P s inputs ↔ ∀ done, done <+: inputs → P (run next s done) := by
  induction inputs generalizing s with
  | nil =>
      constructor
      · intro here done begun
        rw [List.prefix_nil.mp begun]
        exact here
      · intro always
        exact always [] (List.prefix_refl [])
  | cons input inputs ih =>
      rw [Throughout, ih]
      constructor
      · rintro ⟨here, later⟩ done begun
        cases done with
        | nil => exact here
        | cons first done =>
            obtain ⟨rfl, rest⟩ := List.cons_prefix_cons.mp begun
            exact later done rest
      · intro always
        refine ⟨always [] List.nil_prefix, fun done begun => ?_⟩
        exact always (input :: done) (List.cons_prefix_cons.mpr ⟨rfl, begun⟩)

theorem Throughout.mono {Q : σ → Prop} (weaker : ∀ s, P s → Q s) {inputs : List ι}
    (h : Throughout next P s inputs) : Throughout next Q s inputs := by
  induction inputs generalizing s with
  | nil => exact weaker s h
  | cons input inputs ih => exact ⟨weaker s h.1, ih h.2⟩

theorem throughout_append {first later : List ι} :
    Throughout next P s (first ++ later) ↔
      Throughout next P s first ∧ Throughout next P (run next s first) later := by
  induction first generalizing s with
  | nil =>
      constructor
      · intro h
        refine ⟨?_, h⟩
        cases later with
        | nil => exact h
        | cons input later => exact h.1
      · exact And.right
  | cons input first ih =>
      rw [List.cons_append, Throughout, Throughout, ih, and_assoc]
      rfl

end Throughout

end Machine
