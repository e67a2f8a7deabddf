import Nshgeoip.ThreadPool
import Mathlib.Algebra.Order.Ring.Nat

/-!
What the pool does with the descriptors it is given.

Three invariants, each kept by every step: the queue is what is left of the
submissions before the stop, in order (`Ordered`); the closes performed and the
closes the busy workers still owe are one for each job popped or refused
(`Owing`); and a worker leaves only once the flag is set and the queue is empty
(`Draining`), after which nothing can be queued any more.
-/

namespace Nshgeoip

namespace ThreadPool

variable {α : Type} {runs : List α → Prop} {isClose : α → Bool} {s t : ThreadPool α}

/-! ### Turns of a worker -/

theorem workerTurn_sleep {stop : Bool} {queue : List Nat} :
    workerTurn stop queue = .sleep ↔ stop = false ∧ queue = [] := by
  cases stop <;> cases queue <;> simp [workerTurn]

theorem workerTurn_exit {stop : Bool} {queue : List Nat} :
    workerTurn stop queue = .exit ↔ stop = true ∧ queue = [] := by
  cases stop <;> cases queue <;> simp [workerTurn]

theorem workerTurn_take {stop : Bool} {queue rest : List Nat} {job : Nat} :
    workerTurn stop queue = .take job rest ↔ queue = job :: rest := by
  cases stop <;> cases queue <;> simp [workerTurn]

/-! ### Order -/

/-- Submissions come before the stop or after it; the former are queued and
popped in order, the latter refused. -/
def Ordered (s : ThreadPool α) : Prop :=
  ∃ early late,
    s.submissions = List.replicate early false ++ List.replicate late true ∧
      s.dequeued ++ s.queue = List.range early ∧ s.refused = List.range' early late ∧
        (s.stop = false → late = 0)

theorem ordered_submit (h : s.Ordered) : s.submit.Ordered := by
  obtain ⟨early, late, submissions, queued, refused, unstopped⟩ := h
  have length : s.submissions.length = early + late := by simp [submissions]
  unfold submit
  cases stop : s.stop with
  | true =>
      refine ⟨early, late + 1, ?_, queued, ?_, fun running => absurd running (by simp)⟩
      · simp [submissions, List.replicate_succ']
      · simp [refused, length, List.range'_concat]
  | false =>
      obtain rfl := unstopped stop
      refine ⟨early + 1, 0, ?_, ?_, by simpa using refused, fun _ => rfl⟩
      · simp [submissions, List.replicate_succ']
      · simp [← List.append_assoc, queued, length, List.range_succ]

theorem Step.ordered (h : Step runs isClose s t) (ordered : s.Ordered) : t.Ordered := by
  cases h with
  | submit => exact ordered_submit ordered
  | shutdown =>
      unfold ThreadPool.shutdown
      split
      · exact ordered
      · obtain ⟨early, late, submissions, queued, refused, -⟩ := ordered
        exact ⟨early, late, submissions, queued, refused, fun running => absurd running (by simp)⟩
  | take _ turn =>
      obtain ⟨early, late, submissions, queued, refused, unstopped⟩ := ordered
      rw [workerTurn_take.mp turn] at queued
      exact ⟨early, late, submissions, by simpa using queued, refused, unstopped⟩
  | _ => exact ordered

/-! ### Closes -/

/-- The closes of a job that a worker still owes. -/
def owes (isClose : α → Bool) (job : Nat) : Worker α → Nat
  | .handling job' todo => if job' = job then todo.countP isClose else 0
  | _ => 0

def owed (isClose : α → Bool) (job : Nat) (s : ThreadPool α) : Nat :=
  (s.workers.map (owes isClose job)).sum

/-- Performed and owed, there is one close for each job popped or refused. -/
def Owing (isClose : α → Bool) (s : ThreadPool α) : Prop :=
  ∀ job, s.closed.count job + s.owed isClose job = s.dequeued.count job + s.refused.count job

theorem owed_replace (isClose : α → Bool) {before after : List (Worker α)} {w : Worker α}
    (h : s.workers = before ++ w :: after) (w' : Worker α) (job : Nat) :
    ((before ++ w' :: after).map (owes isClose job)).sum + owes isClose job w =
      s.owed isClose job + owes isClose job w' := by
  simp only [owed, h, List.map_append, List.map_cons, List.sum_append, List.sum_cons]
  omega

theorem owes_woken (job : Nat) (w : Worker α) : owes isClose job w.woken = owes isClose job w := by
  cases w <;> rfl

/-- A worker may move between program points that owe the same. -/
theorem Owing.replace {before after : List (Worker α)} {w : Worker α} (owing : s.Owing isClose)
    (h : s.workers = before ++ w :: after) (w' : Worker α)
    (same : ∀ job, owes isClose job w' = owes isClose job w) :
    ({ s with workers := before ++ w' :: after } : ThreadPool α).Owing isClose := by
  intro job
  have moved := owed_replace isClose h w' job
  have balance := owing job
  rw [same job] at moved
  simp only [owed] at balance moved ⊢
  omega

theorem owing_submit (owing : s.Owing isClose) : s.submit.Owing isClose := by
  intro job
  have balance := owing job
  unfold submit
  cases stop : s.stop with
  | true =>
      simp only [if_true, owed, List.count_append] at balance ⊢
      omega
  | false => exact balance

theorem Step.owing (once : ∀ trace, runs trace → trace.countP isClose = 1)
    (h : Step runs isClose s t) (owing : s.Owing isClose) : t.Owing isClose := by
  cases h with
  | submit => exact owing_submit owing
  | shutdown =>
      unfold ThreadPool.shutdown
      split <;> exact owing
  | notifyAll =>
      intro job
      simpa only [owed, List.map_map, Function.comp_def, owes_woken] using owing job
  | notifyNone | again => exact owing
  | notifyOne _ place | spurious place | sleep place | exit place =>
      exact owing.replace place _ fun job => rfl
  | finish place => exact owing.replace place _ fun job => by simp [owes]
  | @take before after job' rest trace place _ ran =>
      intro job
      have moved := owed_replace isClose place (.handling job' trace) job
      have balance := owing job
      simp only [owes, once trace ran] at moved
      simp only [owed, List.count_append, List.count_singleton, beq_iff_eq] at balance moved ⊢
      omega
  | @act before after job' a todo place =>
      intro job
      have moved := owed_replace isClose place (.handling job' todo) job
      have balance := owing job
      simp only [owes, List.countP_cons] at moved
      simp only [owed] at balance moved ⊢
      cases closes : isClose a with
      | false =>
          simp only [closes, Bool.false_eq_true, if_false, Nat.add_zero] at moved ⊢
          omega
      | true =>
          simp only [closes, if_true, List.count_append, List.count_singleton, beq_iff_eq] at moved ⊢
          split at moved <;> split <;> omega
  | join _ left =>
      intro job
      have nothing : s.owed isClose job = 0 := by
        refine List.sum_eq_zero_iff_forall_eq_nat.mpr ?_
        intro n mem
        obtain ⟨w, mem', rfl⟩ := List.mem_map.mp mem
        rw [left w mem']
        rfl
      have balance := owing job
      rw [nothing] at balance
      exact balance

/-! ### Draining -/

/-- Workers leave an empty queue behind, and shutdown waits for all of them. -/
structure Draining (queue : List Nat) (stop : Bool) (workers : List (Worker α)) (phase : Phase) :
    Prop where
  exits : .exited ∈ workers → stop = true ∧ queue = []
  stopped : stop = true ↔ phase ≠ .running
  awake : phase = .joining → .asleep ∉ workers
  joined : phase = .joined → workers = [] ∧ queue = []
  staffed : phase ≠ .joined → workers ≠ []

section

variable {queue : List Nat} {stop : Bool} {workers before after : List (Worker α)}
  {w w' v : Worker α} {phase : Phase}

theorem mem_of_replace (mem : v ∈ before ++ w' :: after) (other : v ≠ w') :
    v ∈ before ++ w :: after := by
  rcases List.mem_append.mp mem with front | back
  · exact List.mem_append_left _ front
  · exact List.mem_append_right _ (List.mem_cons_of_mem _ (List.mem_of_ne_of_mem other back))

/-- A worker moves on; it may leave only when the pool is drained, and sleep
only while shutdown is not joining. -/
theorem Draining.replace (draining : Draining queue stop (before ++ w :: after) phase)
    (leaves : w' = .exited → stop = true ∧ queue = [])
    (sleeps : w' = .asleep → phase ≠ .joining) :
    Draining queue stop (before ++ w' :: after) phase where
  exits mem := by
    by_cases self : .exited = w'
    · exact leaves self.symm
    · exact draining.exits (mem_of_replace mem self)
  stopped := draining.stopped
  awake joining mem := by
    by_cases self : .asleep = w'
    · exact sleeps self.symm joining
    · exact draining.awake joining (mem_of_replace mem self)
  joined joined := absurd (draining.joined joined).1 (by simp)
  staffed _ := by simp

/-- Before the stop nobody has left and nobody is waited for. -/
theorem Draining.of_running (draining : Draining queue stop workers phase)
    (running : ¬ stop = true) : phase = .running ∧ .exited ∉ workers := by
  refine ⟨?_, fun mem => running (draining.exits mem).1⟩
  by_contra other
  exact running (draining.stopped.mpr other)

/-- The queue may change before the stop, and shrink after it. -/
theorem Draining.requeue (draining : Draining queue stop workers phase) {queue' : List Nat}
    (h : stop = true → queue = [] → queue' = []) : Draining queue' stop workers phase where
  exits mem := ⟨(draining.exits mem).1, h (draining.exits mem).1 (draining.exits mem).2⟩
  stopped := draining.stopped
  awake := draining.awake
  joined joined := by
    have stopped := draining.stopped.mpr (by simp [joined])
    exact ⟨(draining.joined joined).1, h stopped (draining.joined joined).2⟩
  staffed := draining.staffed

theorem exited_mem_map_woken : .exited ∈ workers.map Worker.woken ↔ .exited ∈ workers := by
  rw [List.mem_map]
  constructor
  · rintro ⟨w, mem, woken⟩
    cases w <;> simp_all [Worker.woken]
  · intro mem
    exact ⟨.exited, mem, rfl⟩

theorem asleep_not_mem_map_woken : .asleep ∉ workers.map Worker.woken := by
  intro mem
  obtain ⟨w, -, woken⟩ := List.mem_map.mp mem
  cases w <;> simp [Worker.woken] at woken

end

/-- The invariant of a pool. -/
def Drains (s : ThreadPool α) : Prop := Draining s.queue s.stop s.workers s.phase

theorem drains_submit (drains : s.Drains) : s.submit.Drains := by
  unfold submit
  dsimp only
  split
  · exact drains
  · rename_i running
    exact drains.requeue fun stopped => absurd stopped running

theorem drains_shutdown (drains : s.Drains) : s.shutdown.Drains := by
  unfold shutdown
  split
  · exact drains
  · rename_i running
    obtain ⟨phase, nobody⟩ := Draining.of_running drains running
    exact ⟨fun mem => absurd mem nobody, by simp, by simp, by simp,
      fun _ => drains.staffed (by simp [phase])⟩

theorem Step.drains (h : Step runs isClose s t) (drains : s.Drains) : t.Drains := by
  cases h with
  | submit => exact drains_submit drains
  | shutdown => exact drains_shutdown drains
  | notifyOne _ place | spurious place | finish place | act place =>
      unfold Drains at drains
      rw [place] at drains
      exact drains.replace (by simp) (by simp)
  | notifyNone | again => exact drains
  | notifyAll stopping =>
      refine ⟨fun mem => drains.exits (exited_mem_map_woken.mp mem), ?_,
        fun _ => asleep_not_mem_map_woken, by simp, fun _ => ?_⟩
      · simpa [stopping] using drains.stopped
      · simpa using drains.staffed (by simp [stopping])
  | sleep place turn =>
      obtain ⟨running, empty⟩ := workerTurn_sleep.mp turn
      have phase := (Draining.of_running drains (by simp [running])).1
      unfold Drains at drains
      rw [place] at drains
      exact drains.replace (by simp) (by simp [phase])
  | exit place turn =>
      unfold Drains at drains
      rw [place] at drains
      exact drains.replace (fun _ => workerTurn_exit.mp turn) (by simp)
  | @take before after job rest trace place turn ran =>
      have shrinks : s.stop = true → s.queue = [] → rest = [] := fun _ empty =>
        absurd (workerTurn_take.mp turn) (by simp [empty])
      have drains' := Draining.requeue drains shrinks
      rw [place] at drains'
      exact drains'.replace (by simp) (by simp)
  | join joining left =>
      obtain ⟨w, rest, staff⟩ := List.exists_cons_of_ne_nil (drains.staffed (by simp [joining]))
      have gone : .exited ∈ s.workers := by
        rw [← left w (by simp [staff])]
        simp [staff]
      exact ⟨by simp, by simpa [joining] using drains.stopped, by simp,
        fun _ => ⟨rfl, (drains.exits gone).2⟩, by simp⟩

/-! ### Every reachable state -/

section

variable {numThreads : Nat}

theorem Reachable.ordered (h : Reachable runs isClose numThreads s) : s.Ordered := by
  induction h with
  | refl => exact ⟨0, 0, rfl, rfl, rfl, fun _ => rfl⟩
  | tail _ step ih => exact step.ordered ih

theorem Reachable.owing (once : ∀ trace, runs trace → trace.countP isClose = 1)
    (h : Reachable runs isClose numThreads s) : s.Owing isClose := by
  induction h with
  | refl =>
      intro job
      simp [start, owed, owes]
  | tail _ step ih => exact step.owing once ih

theorem Reachable.drains (positive : 0 < numThreads) (h : Reachable runs isClose numThreads s) :
    s.Drains := by
  induction h with
  | refl =>
      refine ⟨?_, by simp [start], by simp [start], by simp [start], fun _ => ?_⟩
      · intro mem
        simp [start] at mem
      · simpa [start] using Nat.pos_iff_ne_zero.mp positive
  | tail _ step ih => exact step.drains ih

end

/-- What the pool guarantees about the descriptors submitted so far. -/
structure Conserved (isClose : α → Bool) (s : ThreadPool α) : Prop where
  /-- A submission before the stop is in the queue or was popped, once; one
  after the stop was refused, and nothing else was. -/
  early : ∀ job, s.submissions[job]? = some false →
    s.queue.count job + s.dequeued.count job = 1 ∧ s.refused.count job = 0
  late : ∀ job, s.submissions[job]? = some true →
    s.queue.count job + s.dequeued.count job = 0 ∧ s.refused.count job = 1
  unknown : ∀ job, s.submissions[job]? = none →
    s.queue.count job + s.dequeued.count job = 0 ∧ s.refused.count job = 0
  /-- Popped or refused, a job is closed once or its one close is still to come. -/
  closes : ∀ job,
    s.closed.count job + s.owed isClose job = s.dequeued.count job + s.refused.count job
  /-- Jobs are popped in the order of their submission. -/
  order : (s.dequeued ++ s.queue).Pairwise (· < ·)
  exits : .exited ∈ s.workers → s.stop = true ∧ s.queue = []
  joined : s.phase = .joined → s.queue = [] ∧ ∀ job, s.owed isClose job = 0

theorem getElem?_split (early late job : Nat) :
    (List.replicate early false ++ List.replicate late true)[job]? =
      if job < early then some false else if job < early + late then some true else none := by
  rw [List.getElem?_append, List.length_replicate]
  split
  · simp [*]
  · rw [List.getElem?_replicate]
    congr 1
    simp only [eq_iff_iff]
    omega

theorem Reachable.conserved (once : ∀ trace, runs trace → trace.countP isClose = 1)
    {numThreads : Nat} (positive : 0 < numThreads) (h : Reachable runs isClose numThreads s) :
    s.Conserved isClose := by
  have drains := h.drains positive
  obtain ⟨early, late, submissions, queued, refused, -⟩ := h.ordered
  have placed : ∀ job, s.submissions[job]? =
      if job < early then some false else if job < early + late then some true else none := by
    intro job
    rw [submissions, getElem?_split]
  have counted : ∀ job,
      s.queue.count job + s.dequeued.count job = if job < early then 1 else 0 := by
    intro job
    rw [Nat.add_comm, ← List.count_append, queued, List.count_range]
  have counted' : ∀ job,
      s.refused.count job = if early ≤ job ∧ job < early + late then 1 else 0 := by
    intro job
    rw [refused, List.count_range_1']
  refine ⟨?_, ?_, ?_, h.owing once, ?_, drains.exits, ?_⟩
  · intro job found
    rw [placed] at found
    rw [counted, counted']
    grind
  · intro job found
    rw [placed] at found
    rw [counted, counted']
    grind
  · intro job found
    rw [placed] at found
    rw [counted, counted']
    grind
  · rw [queued]
    exact List.pairwise_lt_range
  · intro joined
    obtain ⟨nobody, empty⟩ := drains.joined joined
    exact ⟨empty, fun job => by simp [owed, nobody]⟩

end ThreadPool

end Nshgeoip
