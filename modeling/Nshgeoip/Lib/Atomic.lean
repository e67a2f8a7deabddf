import Nshgeoip.Lib.Machine
import Mathlib.Data.List.Induction
import Mathlib.Logic.Function.Basic

/-!
Threads made of atomic sections, on a state that others change in between.

A section reads and changes the shared state in one go and decides how its thread goes on.
Any thread may take its turn at any time, and the surroundings may act between two turns; a
run is a list of such events, and a moment of it is the list of the events before. `Follows`
says what a thread makes of the states its sections meet, and `follows_run` that in every
run these are the states at the moments of its turns, one turn after another. What no
section and no act of the surroundings breaks holds between any two moments (`moments_related`).
-/

namespace Atomic

open Machine

variable {σ ρ ι ε μ : Type}

inductive Thread (σ ρ : Type) where
  | done (result : ρ)
  | step (effect : σ → σ) (rest : σ → Thread σ ρ)

/-- A section that changes nothing. -/
def read {α : Type} (value : σ → α) (rest : α → Thread σ ρ) : Thread σ ρ :=
  .step id fun s => rest (value s)

/-- A section that reads nothing. -/
def change (effect : σ → σ) (rest : Thread σ ρ) : Thread σ ρ := .step effect fun _ => rest

/-- Every section the thread may come to has such an effect. -/
def Thread.All (P : (σ → σ) → Prop) : Thread σ ρ → Prop
  | .done _ => True
  | .step effect rest => P effect ∧ ∀ s, (rest s).All P

inductive Event (ι ε : Type) where
  | turn (i : ι)
  | act (e : ε)

structure System (σ ρ ι : Type) where
  shared : σ
  threads : ι → Thread σ ρ

def next [DecidableEq ι] (act : σ → ε → σ) (s : System σ ρ ι) : Event ι ε → System σ ρ ι
  | .turn i =>
      match s.threads i with
      | .done _ => s
      | .step effect rest => ⟨effect s.shared, Function.update s.threads i (rest s.shared)⟩
  | .act e => { s with shared := act s.shared e }

/-! ### One thread -/

/-- The thread `t` becomes `t'` in sections at these moments, each with its state before
and after. -/
inductive Follows (before after : μ → σ) : Thread σ ρ → List μ → Thread σ ρ → Prop where
  | nil {t : Thread σ ρ} : Follows before after t [] t
  | cons {effect : σ → σ} {rest : σ → Thread σ ρ} {m : μ} {ms : List μ} {t : Thread σ ρ} :
      after m = effect (before m) → Follows before after (rest (before m)) ms t →
        Follows before after (.step effect rest) (m :: ms) t

section Follows

variable {before after : μ → σ} {ms : List μ} {t : Thread σ ρ} {result : ρ}

theorem Follows.snoc {effect : σ → σ} {rest : σ → Thread σ ρ} {m : μ}
    (h : Follows before after t ms (.step effect rest)) (here : after m = effect (before m)) :
    Follows before after t (ms ++ [m]) (rest (before m)) := by
  generalize last : Thread.step effect rest = t' at h
  induction h with
  | nil =>
      subst last
      exact .cons here .nil
  | cons first _ ih => exact .cons first (ih last)

/-- A thread with a section ahead of it has been through it when it is done. -/
theorem Follows.step_done {effect : σ → σ} {rest : σ → Thread σ ρ}
    (h : Follows before after (.step effect rest) ms (.done result)) :
    ∃ m later, ms = m :: later ∧ after m = effect (before m) ∧
      Follows before after (rest (before m)) later (.done result) := by
  cases h with
  | cons here later => exact ⟨_, _, rfl, here, later⟩

theorem Follows.read_done {α : Type} {value : σ → α} {rest : α → Thread σ ρ}
    (h : Follows before after (read value rest) ms (.done result)) :
    ∃ m later, ms = m :: later ∧
      Follows before after (rest (value (before m))) later (.done result) := by
  obtain ⟨m, later, rfl, -, follows⟩ := h.step_done
  exact ⟨m, later, rfl, follows⟩

theorem Follows.change_done {effect : σ → σ} {rest : Thread σ ρ}
    (h : Follows before after (change effect rest) ms (.done result)) :
    ∃ m later, ms = m :: later ∧ after m = effect (before m) ∧
      Follows before after rest later (.done result) :=
  h.step_done

theorem Follows.of_done {result' : ρ} (h : Follows before after (.done result) ms (.done result')) :
    ms = [] ∧ result = result' := by
  cases h
  exact ⟨rfl, rfl⟩

end Follows

/-! ### Every run -/

/-- The moments of turns of one thread, one after another, in a run of these events. -/
structure Turns (i : ι) (events : List (Event ι ε)) (ms : List (List (Event ι ε))) : Prop where
  taken : ∀ m ∈ ms, m ++ [.turn i] <+: events
  ordered : ms.Pairwise fun m later => m ++ [.turn i] <+: later

section Turns

variable {i : ι} {events : List (Event ι ε)} {ms : List (List (Event ι ε))}

theorem Turns.extend (h : Turns i events ms) (e : Event ι ε) : Turns i (events ++ [e]) ms :=
  ⟨fun m mem => (h.taken m mem).trans (List.prefix_append _ _), h.ordered⟩

theorem Turns.snoc (h : Turns i events ms) : Turns i (events ++ [.turn i]) (ms ++ [events]) := by
  constructor
  · intro m mem
    rcases List.mem_append.mp mem with before | here
    · exact (h.taken m before).trans (List.prefix_append _ _)
    · obtain rfl := List.mem_singleton.mp here
      exact List.prefix_refl _
  · refine List.pairwise_append.mpr ⟨h.ordered, List.pairwise_singleton _ _, ?_⟩
    intro m mem later here
    rw [List.mem_singleton.mp here]
    exact h.taken m mem

end Turns

section Run

variable [DecidableEq ι] {act : σ → ε → σ} {s : System σ ρ ι}

theorem run_snoc (act : σ → ε → σ) (s : System σ ρ ι) (m : List (Event ι ε)) (e : Event ι ε) :
    run (next act) s (m ++ [e]) = next act (run (next act) s m) e := by
  simp only [run, List.foldl_append, List.foldl_cons, List.foldl_nil]

/-- **A thread follows the states at its turns.** -/
theorem follows_run (act : σ → ε → σ) (s : System σ ρ ι) (i : ι) (events : List (Event ι ε)) :
    ∃ ms, Turns i events ms ∧
      Follows (fun m => (run (next act) s m).shared)
        (fun m => (run (next act) s (m ++ [.turn i])).shared) (s.threads i) ms
        ((run (next act) s events).threads i) := by
  induction events using List.reverseRecOn with
  | nil => exact ⟨[], ⟨fun m mem => absurd mem List.not_mem_nil, .nil⟩, .nil⟩
  | append_singleton events e ih =>
      obtain ⟨ms, turns, follows⟩ := ih
      rw [run_snoc]
      cases e with
      | act e => exact ⟨ms, turns.extend _, follows⟩
      | turn j =>
          rw [next]
          cases thread : (run (next act) s events).threads j with
          | done result => exact ⟨ms, turns.extend _, follows⟩
          | step effect rest =>
              by_cases same : i = j
              · subst same
                rw [thread] at follows
                have here : (run (next act) s (events ++ [.turn i])).shared =
                    effect (run (next act) s events).shared := by
                  rw [run_snoc, next, thread]
                refine ⟨ms ++ [events], turns.snoc, ?_⟩
                simpa only [Function.update_self] using follows.snoc here
              · refine ⟨ms, turns.extend _, ?_⟩
                simpa only [Function.update_of_ne same] using follows

theorem all_next {P : (σ → σ) → Prop} (act : σ → ε → σ) (s : System σ ρ ι) (e : Event ι ε)
    (all : ∀ i, (s.threads i).All P) : ∀ i, ((next act s e).threads i).All P := by
  cases e with
  | act e => exact all
  | turn j =>
      rw [next]
      cases thread : s.threads j with
      | done result => exact all
      | step effect rest =>
          have ahead := all j
          rw [thread] at ahead
          intro i
          dsimp only
          by_cases same : i = j
          · subst same
            rw [Function.update_self]
            exact ahead.2 s.shared
          · rw [Function.update_of_ne same]
            exact all i

/-- What each section and each act of the surroundings does, each event does. -/
theorem event_related {P : (σ → σ) → Prop} {R : σ → σ → Prop} (all : ∀ i, (s.threads i).All P)
    (refl : ∀ s, R s s) (effects : ∀ effect, P effect → ∀ s, R s (effect s))
    (acts : ∀ s e, R s (act s e)) (m : List (Event ι ε)) (e : Event ι ε) :
    R (run (next act) s m).shared (run (next act) s (m ++ [e])).shared := by
  rw [run_snoc]
  cases e with
  | act e => exact acts _ e
  | turn j =>
      rw [next]
      cases thread : (run (next act) s m).threads j with
      | done result => exact refl _
      | step effect rest =>
          have ahead := run_always (all_next act) all m j
          rw [thread] at ahead
          exact effects effect ahead.1 _

/-- A preorder that the events of a run respect holds between its moments. -/
theorem moments_related {α : Type} {R : σ → σ → Prop} (state : List α → σ) (refl : ∀ s, R s s)
    (trans : ∀ {s t u}, R s t → R t u → R s u) {events : List α}
    (step : ∀ m e, m ++ [e] <+: events → R (state m) (state (m ++ [e])))
    {m later : List α} (before : m <+: later) (within : later <+: events) :
    R (state m) (state later) := by
  obtain ⟨tail, rfl⟩ := before
  induction tail using List.reverseRecOn with
  | nil =>
      rw [List.append_nil]
      exact refl _
  | append_singleton tail e ih =>
      rw [← List.append_assoc] at within ⊢
      exact trans (ih ((List.prefix_append _ _).trans within)) (step _ e within)

end Run

end Atomic
