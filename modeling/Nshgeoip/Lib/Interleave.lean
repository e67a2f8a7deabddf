import Mathlib.Algebra.Order.Ring.Nat
import Mathlib.Logic.Relation

/-!
Threads that interleave atomic actions on a shared state.

Each thread has a fixed program, a list of actions; a step lets any one thread
perform its next action. Two facts hold in every reachable configuration and
carry all accounting arguments: no thread leaves its program (`run_program`),
and a wrapping counter has been moved by exactly the actions performed so far
(`run_counter`), in whatever order they came.
-/

namespace Interleave

variable {α σ : Type}

/-- What a thread has done and what it has still to do. -/
structure Thread (α : Type) where
  past : List α
  todo : List α

structure Config (α σ : Type) where
  threads : List (Thread α)
  shared : σ

/-- One thread performs its next action. -/
inductive Step (act : α → σ → σ) : Config α σ → Config α σ → Prop where
  | mk {before after : List (Thread α)} {past todo : List α} {a : α} {s : σ} :
      Step act ⟨before ++ ⟨past, a :: todo⟩ :: after, s⟩
        ⟨before ++ ⟨past ++ [a], todo⟩ :: after, act a s⟩

/-- Every thread at the start of its program. -/
def start (programs : List (List α)) (s : σ) : Config α σ :=
  ⟨programs.map fun program => ⟨[], program⟩, s⟩

/-- `c` is reached when the programs run from `s`. -/
def Run (act : α → σ → σ) (programs : List (List α)) (s : σ) (c : Config α σ) : Prop :=
  Relation.ReflTransGen (Step act) (start programs s) c

/-- A thread that runs alone to its end. -/
theorem run_alone (act : α → σ → σ) (before after : List (Thread α)) (past todo : List α) (s : σ) :
    Relation.ReflTransGen (Step act) ⟨before ++ ⟨past, todo⟩ :: after, s⟩
      ⟨before ++ ⟨past ++ todo, []⟩ :: after, todo.foldl (fun s a => act a s) s⟩ := by
  induction todo generalizing past s with
  | nil =>
      rw [List.append_nil]
      exact .refl
  | cons a todo ih =>
      have rest := ih (past ++ [a]) (act a s)
      rw [List.append_assoc, List.singleton_append] at rest
      exact .head .mk rest

/-- A measure of each thread, summed. -/
def total (measure : Thread α → Nat) (threads : List (Thread α)) : Nat :=
  (threads.map measure).sum

/-- What the actions of a thread weigh so far. -/
def Thread.weighed (weight : α → Nat) (t : Thread α) : Nat := (t.past.map weight).sum

/-- What the actions performed so far weigh. -/
def tally (weight : α → Nat) (threads : List (Thread α)) : Nat := total (Thread.weighed weight) threads

theorem tally_start (weight : α → Nat) (programs : List (List α)) (s : σ) :
    tally weight (start programs s).threads = 0 := by
  induction programs with
  | nil => rfl
  | cons program programs ih => simpa [tally, total, Thread.weighed, start] using ih

/-- A step performs one action of one thread, within its program. -/
theorem Step.spec {act : α → σ → σ} {c c' : Config α σ} (h : Step act c c') :
    c'.threads.map (fun t => t.past ++ t.todo) = c.threads.map (fun t => t.past ++ t.todo) ∧
      ∃ a, c'.shared = act a c.shared ∧
        ∀ weight, tally weight c'.threads = tally weight c.threads + weight a := by
  cases h with
  | @mk before after past todo a s =>
      refine ⟨by simp, a, rfl, ?_⟩
      intro weight
      simp only [tally, total, Thread.weighed, List.map_append, List.map_cons, List.map_nil, List.sum_append,
        List.sum_cons, List.sum_nil]
      omega

/-- A thread's past and future are always its program. -/
theorem run_program {act : α → σ → σ} {programs : List (List α)} {s : σ} {c : Config α σ}
    (run : Run act programs s c) : ∀ t ∈ c.threads, t.past ++ t.todo ∈ programs := by
  have all : c.threads.map (fun t => t.past ++ t.todo) = programs := by
    induction run with
    | refl => simp [start, Function.comp_def]
    | tail _ step ih => exact step.spec.1.trans ih
  intro t mem
  rw [← all]
  exact List.mem_map.mpr ⟨t, mem, rfl⟩

/-- **A wrapping counter counts the actions performed**, modulo its range. -/
theorem run_counter {act : α → σ → σ} {programs : List (List α)} {s : σ} {c : Config α σ}
    {range : Nat} (counter : σ → Nat) {weight : α → Nat} (zero : counter s = 0)
    (move : ∀ a s, counter (act a s) = (counter s + weight a) % range)
    (run : Run act programs s c) : counter c.shared = tally weight c.threads % range := by
  induction run with
  | refl => rw [tally_start, Nat.zero_mod, ← zero]; rfl
  | tail _ step ih =>
      obtain ⟨-, a, shared, moved⟩ := step.spec
      rw [shared, move, ih, moved, Nat.mod_add_mod]

/-- **Per-thread facts add up**: a relation between measures that holds of each
thread and survives addition holds of the totals. -/
theorem total_induction {ι : Type} {measure : ι → Thread α → Nat} {P : (ι → Nat) → Prop}
    (zero : P fun _ => 0) (add : ∀ f g, P f → P g → P fun i => f i + g i)
    {threads : List (Thread α)}
    (each : ∀ t ∈ threads, P fun i => measure i t) : P fun i => total (measure i) threads := by
  induction threads with
  | nil => exact zero
  | cons t threads ih =>
      have rest := ih fun t' mem => each t' (List.mem_cons_of_mem _ mem)
      exact add _ _ (each t List.mem_cons_self) rest

end Interleave
