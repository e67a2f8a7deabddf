import Nshgeoip.ThreadPool.Conservation
import Mathlib.Order.WellFounded

/-!
Shutdown comes to an end.

Once the flag is set, each step is a refused submission, no change at all, or
brings the pool closer to its end (`Step.closer`), and short of the end such a
step is always possible (`exists_closer`): there is no lost wake-up, because a
worker can only fall asleep before the flag is set and `notify_all` comes after.
-/

namespace Nshgeoip

/-- What is left to do at a program point. -/
def Worker.effort {α : Type} : Worker α → Nat
  | .exited => 0
  | .ready => 1
  | .asleep => 2
  | .handling _ todo => todo.length + 2

def Phase.rank : Phase → Nat
  | .running => 3
  | .stopping => 2
  | .joining => 1
  | .joined => 0

namespace ThreadPool

variable {α : Type} {runs : List α → Prop} {isClose : α → Bool} {s t : ThreadPool α}

def effort (workers : List (Worker α)) : Nat := (workers.map Worker.effort).sum

/-- How far the pool is from its end: the queue first, since taking a job brings
any amount of work. -/
def remaining (s : ThreadPool α) : Nat × Nat :=
  (s.queue.length, effort s.workers + s.notifies + s.phase.rank)

def Closer (t s : ThreadPool α) : Prop :=
  Prod.Lex (· < ·) (· < ·) t.remaining s.remaining

theorem closer_wellFounded : WellFounded (Closer (α := α)) :=
  InvImage.wf remaining (wellFounded_lt.prod_lex wellFounded_lt)

theorem closer_of_same_queue (queue : t.queue = s.queue)
    (less : effort t.workers + t.notifies + t.phase.rank <
      effort s.workers + s.notifies + s.phase.rank) : Closer t s := by
  unfold Closer remaining
  rw [queue]
  exact .right _ less

theorem effort_replace (before after : List (Worker α)) {w w' : Worker α}
    (less : w'.effort < w.effort) :
    effort (before ++ w' :: after) < effort (before ++ w :: after) := by
  simp only [effort, List.map_append, List.map_cons, List.sum_append, List.sum_cons]
  omega

theorem effort_map_woken (workers : List (Worker α)) :
    effort (workers.map Worker.woken) ≤ effort workers := by
  induction workers with
  | nil => rfl
  | cons w workers ih =>
      have woken : w.woken.effort ≤ w.effort := by cases w <;> simp [Worker.woken, Worker.effort]
      simp only [effort, List.map_cons, List.sum_cons] at ih ⊢
      omega

theorem closer_of_replace {before after : List (Worker α)} {w w' : Worker α}
    (place : s.workers = before ++ w :: after) (less : w'.effort < w.effort)
    (workers : t.workers = before ++ w' :: after) (queue : t.queue = s.queue)
    (notifies : t.notifies ≤ s.notifies) (phase : t.phase = s.phase) : Closer t s := by
  apply closer_of_same_queue queue
  rw [workers, place, phase]
  have less' := effort_replace before after less
  omega

/-- **After the stop every step counts**, other than a refused submission or one
that changes nothing. -/
theorem Step.closer (h : Step runs isClose s t) (stopped : s.stop = true) :
    t = s.submit ∨ t = s ∨ Closer t s := by
  cases h with
  | submit => exact .inl rfl
  | shutdown => exact .inr (.inl (if_pos stopped))
  | again => exact .inr (.inl rfl)
  | notifyNone pending =>
      refine .inr (.inr (closer_of_same_queue rfl ?_))
      dsimp only
      omega
  | notifyAll stopping =>
      refine .inr (.inr (closer_of_same_queue rfl ?_))
      have woken := effort_map_woken s.workers
      simp only [stopping, Phase.rank]
      omega
  | notifyOne _ place =>
      exact .inr (.inr (closer_of_replace place (by simp [Worker.effort]) rfl rfl (Nat.sub_le _ _) rfl))
  | spurious place | exit place | act place | finish place =>
      exact .inr (.inr (closer_of_replace place (by simp [Worker.effort]) rfl rfl le_rfl rfl))
  | sleep _ turn => exact absurd stopped (by simp [(workerTurn_sleep.mp turn).1])
  | take _ turn =>
      refine .inr (.inr (.left _ _ ?_))
      simp [workerTurn_take.mp turn]
  | join joining left =>
      refine .inr (.inr (closer_of_same_queue rfl ?_))
      simp only [joining, Phase.rank, effort, List.map_nil, List.sum_nil]
      omega

/-- A worker that has not left can take a step once shutdown is joining. -/
theorem exists_worker_step (some_run : ∃ trace, runs trace) (drains : s.Drains)
    (stopped : s.stop = true) (joining : s.phase = .joining) {w : Worker α} (mem : w ∈ s.workers)
    (here : w ≠ .exited) :
    ∃ t, Step runs isClose s t ∧ Closer t s ∧ t.stop = true ∧ t.submissions = s.submissions := by
  obtain ⟨before, after, place⟩ := List.append_of_mem mem
  cases w with
  | exited => exact absurd rfl here
  | asleep => exact absurd mem (drains.awake joining)
  | ready =>
      cases queue : s.queue with
      | nil =>
          have turn := workerTurn_exit.mpr ⟨stopped, queue⟩
          exact ⟨_, .exit place turn, closer_of_replace place (by simp [Worker.effort]) rfl rfl le_rfl rfl,
            stopped, rfl⟩
      | cons job rest =>
          obtain ⟨trace, ran⟩ := some_run
          refine ⟨_, .take place (workerTurn_take.mpr queue) ran, .left _ _ ?_, stopped, rfl⟩
          simp [queue]
  | handling job todo =>
      cases todo with
      | nil =>
          exact ⟨_, .finish place, closer_of_replace place (by simp [Worker.effort]) rfl rfl le_rfl rfl,
            stopped, rfl⟩
      | cons a todo =>
          exact ⟨_, .act place, closer_of_replace place (by simp [Worker.effort]) rfl rfl le_rfl rfl,
            stopped, rfl⟩

/-- **No deadlock**: short of the end, some step brings it closer. -/
theorem exists_closer (some_run : ∃ trace, runs trace) (drains : s.Drains)
    (stopped : s.stop = true) (unfinished : s.phase ≠ .joined) :
    ∃ t, Step runs isClose s t ∧ Closer t s ∧ t.stop = true ∧ t.submissions = s.submissions := by
  cases phase : s.phase with
  | running => exact absurd phase (drains.stopped.mp stopped)
  | joined => exact absurd phase unfinished
  | stopping =>
      refine ⟨_, .notifyAll phase, closer_of_same_queue rfl ?_, stopped, rfl⟩
      have woken := effort_map_woken s.workers
      simp only [phase, Phase.rank]
      omega
  | joining =>
      by_cases left : ∀ w ∈ s.workers, w = .exited
      · refine ⟨_, .join phase left, closer_of_same_queue rfl ?_, stopped, rfl⟩
        simp only [phase, Phase.rank, effort, List.map_nil, List.sum_nil]
        omega
      · push Not at left
        obtain ⟨w, mem, here⟩ := left
        exact exists_worker_step some_run drains stopped phase mem here

/-- **Shutdown can always be completed**, with no submission in between. -/
theorem exists_joined (some_run : ∃ trace, runs trace) (drains : s.Drains) :
    ∃ t, Relation.ReflTransGen (Step runs isClose) s t ∧ t.phase = .joined ∧
      t.submissions = s.submissions := by
  have finish : ∀ s : ThreadPool α, s.Drains → s.stop = true →
      ∃ t, Relation.ReflTransGen (Step runs isClose) s t ∧ t.phase = .joined ∧
        t.submissions = s.submissions := by
    intro s
    induction s using closer_wellFounded.induction with
    | _ s ih =>
        intro drains stopped
        by_cases joined : s.phase = .joined
        · exact ⟨s, .refl, joined, rfl⟩
        · obtain ⟨t, step, closer, stopped', same⟩ := exists_closer some_run drains stopped joined
          obtain ⟨u, run, joined', same'⟩ := ih t closer (step.drains drains) stopped'
          exact ⟨u, .head step run, joined', same'.trans same⟩
  have step : Step runs isClose s s.shutdown := .shutdown s
  have stopped : s.shutdown.stop = true := by
    unfold shutdown
    split <;> simp_all
  have same : s.shutdown.submissions = s.submissions := by
    unfold shutdown
    split <;> rfl
  obtain ⟨t, run, joined, same'⟩ := finish _ (step.drains drains) stopped
  exact ⟨t, .head step run, joined, same'.trans same⟩

end ThreadPool

end Nshgeoip
