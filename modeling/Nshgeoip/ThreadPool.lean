import Mathlib.Data.List.Range
import Mathlib.Logic.Relation

/-!
`thread_pool.cpp`: the worker pool, over any handler.

A submission is named by its number, since the kernel hands out the same
descriptor again once it is closed. Each section under the mutex is one step,
and so is each action of a handler: a `Step` is taken by a caller of `submit`
or `shutdown`, by a worker, or by the condition variable, which may also wake a
worker for no reason. The history fields record what happened and no step reads
them.
-/

namespace Nshgeoip

variable {α : Type}

/-! ### State -/

/-- Where a worker is in `worker_loop`. -/
inductive Worker (α : Type) where
  /-- About to lock the mutex. -/
  | ready
  /-- Blocked in `cv_.wait`. -/
  | asleep
  /-- Inside `handler_`, with the actions still to come. -/
  | handling (job : Nat) (todo : List α)
  | exited

/-- A worker after a wake-up. -/
def Worker.woken : Worker α → Worker α
  | .asleep => .ready
  | w => w

/-- Where the call of `shutdown` that sets the flag is. -/
inductive Phase where
  | running
  | stopping
  | joining
  | joined
  deriving DecidableEq

structure ThreadPool (α : Type) where
  queue : List Nat
  stop : Bool
  workers : List (Worker α)
  /-- Calls of `submit` that are between the unlock and `notify_one`. -/
  notifies : Nat
  phase : Phase
  /-- History: for each submission, whether the flag was set by then. -/
  submissions : List Bool
  /-- History: what the workers popped. -/
  dequeued : List Nat
  /-- History: what `submit` closed itself. -/
  refused : List Nat
  /-- History: every `close`. -/
  closed : List Nat

namespace ThreadPool

/-! ### Sections under the mutex -/

def start (numThreads : Nat) : ThreadPool α :=
  ⟨[], false, List.replicate numThreads .ready, 0, .running, [], [], [], []⟩

def submit (s : ThreadPool α) : ThreadPool α :=
  let job := s.submissions.length
  if s.stop then
    { s with
      submissions := s.submissions ++ [s.stop]
      refused := s.refused ++ [job]
      closed := s.closed ++ [job] }
  else
    { s with
      submissions := s.submissions ++ [s.stop]
      queue := s.queue ++ [job]
      notifies := s.notifies + 1 }

def shutdown (s : ThreadPool α) : ThreadPool α :=
  if s.stop then s else { s with stop := true, phase := .stopping }

/-- What the locked part of `worker_loop` comes to. -/
inductive Turn where
  | sleep
  | exit
  | again
  | take (job : Nat) (rest : List Nat)

def workerTurn (stop : Bool) (queue : List Nat) : Turn :=
  if (stop || !queue.isEmpty) = false then .sleep
  else if stop && queue.isEmpty then .exit
  else
    match queue with
    | [] => .again
    | job :: rest => .take job rest

/-! ### Steps -/

/-- One step of the pool. `runs` are the runs of the handler, and `isClose`
tells which of its actions closes the descriptor. -/
inductive Step (runs : List α → Prop) (isClose : α → Bool) :
    ThreadPool α → ThreadPool α → Prop where
  | submit (s : ThreadPool α) : Step runs isClose s s.submit
  | shutdown (s : ThreadPool α) : Step runs isClose s s.shutdown
  | notifyOne {s : ThreadPool α} {before after : List (Worker α)} :
      0 < s.notifies → s.workers = before ++ .asleep :: after →
        Step runs isClose s
          { s with notifies := s.notifies - 1, workers := before ++ .ready :: after }
  | notifyNone {s : ThreadPool α} :
      0 < s.notifies → .asleep ∉ s.workers →
        Step runs isClose s { s with notifies := s.notifies - 1 }
  | notifyAll {s : ThreadPool α} :
      s.phase = .stopping →
        Step runs isClose s { s with phase := .joining, workers := s.workers.map Worker.woken }
  | spurious {s : ThreadPool α} {before after : List (Worker α)} :
      s.workers = before ++ .asleep :: after →
        Step runs isClose s { s with workers := before ++ .ready :: after }
  | sleep {s : ThreadPool α} {before after : List (Worker α)} :
      s.workers = before ++ .ready :: after → workerTurn s.stop s.queue = .sleep →
        Step runs isClose s { s with workers := before ++ .asleep :: after }
  | exit {s : ThreadPool α} {before after : List (Worker α)} :
      s.workers = before ++ .ready :: after → workerTurn s.stop s.queue = .exit →
        Step runs isClose s { s with workers := before ++ .exited :: after }
  | again {s : ThreadPool α} :
      .ready ∈ s.workers → workerTurn s.stop s.queue = .again → Step runs isClose s s
  | take {s : ThreadPool α} {before after : List (Worker α)} {job : Nat} {rest : List Nat}
      {trace : List α} :
      s.workers = before ++ .ready :: after → workerTurn s.stop s.queue = .take job rest →
        runs trace →
          Step runs isClose s
            { s with
              queue := rest
              workers := before ++ .handling job trace :: after
              dequeued := s.dequeued ++ [job] }
  | act {s : ThreadPool α} {before after : List (Worker α)} {job : Nat} {a : α} {todo : List α} :
      s.workers = before ++ .handling job (a :: todo) :: after →
        Step runs isClose s
          { s with
            workers := before ++ .handling job todo :: after
            closed := if isClose a then s.closed ++ [job] else s.closed }
  | finish {s : ThreadPool α} {before after : List (Worker α)} {job : Nat} :
      s.workers = before ++ .handling job [] :: after →
        Step runs isClose s { s with workers := before ++ .ready :: after }
  | join {s : ThreadPool α} :
      s.phase = .joining → (∀ w ∈ s.workers, w = .exited) →
        Step runs isClose s { s with phase := .joined, workers := [] }

/-- The states of a pool of so many workers. -/
def Reachable (runs : List α → Prop) (isClose : α → Bool) (numThreads : Nat)
    (s : ThreadPool α) : Prop :=
  Relation.ReflTransGen (Step runs isClose) (start numThreads) s

end ThreadPool

end Nshgeoip
