import Nshgeoip.Server.Answer
import Nshgeoip.ThreadPool.Progress

/-!
The worker pool with `handle_connection` as its handler.

Every path of the handler ends in its one `close`, early returns included, so
the pool's accounts come out even: `pool_conservation`.
-/

namespace Nshgeoip

open ThreadPool

def Action.isClose : Action → Bool
  | .close => true
  | _ => false

/-- The runs of the handler: any server view, anything met on the descriptor. -/
def Handles (trace : List Action) : Prop :=
  ∃ (srv : Server) (conn : Connection), trace = srv.handleConnection conn

theorem handles_nonempty : ∃ trace, Handles trace := by
  refine ⟨_, ⟨256, {}, {}, ⟨0, 0, [], fun _ => 0, fun _ => []⟩⟩, ⟨[], []⟩, rfl⟩

/-- **The handler closes its descriptor once**, on every path. -/
theorem countP_isClose_handleConnection (srv : Server) (conn : Connection) :
    (srv.handleConnection conn).countP Action.isClose = 1 := by
  rw [handleConnection_eq]
  cases found : srv.answer conn.events with
  | none => rfl
  | some a =>
      have counted : a.reply.1.countP Action.isClose = 0 := by
        rcases Server.answer_counted found with none | one | one
        · rw [none]
          rfl
        · rw [one]
          rfl
        · rw [one]
          rfl
      simp [Answer.actions, finish, Action.isClose, counted]

theorem Handles.once {trace : List Action} (h : Handles trace) :
    trace.countP Action.isClose = 1 := by
  obtain ⟨srv, conn, rfl⟩ := h
  exact countP_isClose_handleConnection srv conn

/-- **No descriptor is lost or closed twice.** In every state of a pool with at
least one worker, each descriptor is refused after the stop or queued and popped
once in order, and closed at most once; nobody leaves while the queue is not
empty; once shutdown has joined the workers each descriptor has been closed
exactly once, by a handler if it came before the stop; and that point can be
reached from every state. -/
theorem pool_conservation (numThreads : Nat) (positive : 0 < numThreads) (s : ThreadPool Action)
    (run : Reachable Handles Action.isClose numThreads s) :
    (∀ srv conn, (Server.handleConnection srv conn).countP Action.isClose = 1) ∧
      s.Conserved Action.isClose ∧
      (∀ job, s.closed.count job ≤ 1) ∧
      (s.phase = .joined →
        s.queue = [] ∧
        (∀ job, s.submissions[job]? = some false →
          s.dequeued.count job = 1 ∧ s.refused.count job = 0 ∧ s.closed.count job = 1) ∧
        (∀ job, s.submissions[job]? = some true →
          s.dequeued.count job = 0 ∧ s.refused.count job = 1 ∧ s.closed.count job = 1)) ∧
      ∃ t, Relation.ReflTransGen (Step Handles Action.isClose) s t ∧ t.phase = .joined ∧
        t.submissions = s.submissions := by
  have conserved := run.conserved (fun _ => Handles.once) positive
  refine ⟨countP_isClose_handleConnection, conserved, ?_, ?_,
    exists_joined handles_nonempty (run.drains positive)⟩
  · intro job
    have closes := conserved.closes job
    cases known : s.submissions[job]? with
    | none =>
        have nowhere := conserved.unknown job known
        omega
    | some stopped =>
        cases stopped with
        | false =>
            have early := conserved.early job known
            omega
        | true =>
            have late := conserved.late job known
            omega
  · intro joined
    obtain ⟨empty, settled⟩ := conserved.joined joined
    refine ⟨empty, fun job known => ?_, fun job known => ?_⟩
    · have closes := conserved.closes job
      have early := conserved.early job known
      rw [settled job] at closes
      rw [empty, List.count_nil] at early
      omega
    · have closes := conserved.closes job
      have late := conserved.late job known
      rw [settled job] at closes
      omega

/-- Two descriptors queued, the stop, and a third that is refused, all the way to the end. -/
theorem pool_conservation_late_descriptor :
    ∃ s, Reachable Handles Action.isClose 2 s ∧ s.phase = .joined ∧
      s.submissions = [false, false, true] ∧
      (∀ job < 2, s.dequeued.count job = 1 ∧ s.refused.count job = 0 ∧ s.closed.count job = 1) ∧
      s.dequeued.count 2 = 0 ∧ s.refused.count 2 = 1 ∧ s.closed.count 2 = 1 := by
  have stopped : Reachable Handles Action.isClose 2 (start 2).submit.submit.shutdown.submit :=
    (((Relation.ReflTransGen.single (.submit _)).tail (.submit _)).tail (.shutdown _)).tail (.submit _)
  obtain ⟨-, -, -, -, s, later, joined, submitted⟩ := pool_conservation 2 (by decide) _ stopped
  have known : s.submissions = [false, false, true] := submitted
  have run : Reachable Handles Action.isClose 2 s := stopped.trans later
  obtain ⟨-, -, -, finished, -⟩ := pool_conservation 2 (by decide) s run
  obtain ⟨-, early, late⟩ := finished joined
  refine ⟨s, run, joined, known, fun job below => early job ?_, late 2 ?_⟩
  · rw [known]
    match job, below with
    | 0, _ => rfl
    | 1, _ => rfl
  · rw [known]
    rfl

end Nshgeoip
