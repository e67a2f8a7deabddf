import Nshgeoip.Config.Ranges
import Nshgeoip.Process

/-!
What becomes of the connections the main loop accepts.

Seen from the pool, a run of the daemon is a run of the pool, so its accounts hold here.
What the main thread adds is the order of things: it submits everything it accepts before
the next `accept4`, and it sets the stop flag only when it will not submit again. So the
branch of `submit` that closes a connection unanswered is dead (`connections_served`).
-/

namespace Nshgeoip

open ByteText

/-- The commands of the loop that hold no connection. -/
def RunPc.isLooping : RunPc → Bool
  | polling => true
  | draining _ => true
  | reading _ => true
  | reloading _ => true
  | checking _ _ => true
  | _ => false

/-- The connections that are accepted and not yet submitted. -/
def RunPc.holding : RunPc → Nat
  | submitting _ => 1
  | _ => 0

/-- The commands behind the end of `shutdown`. -/
def RunPc.isJoined : RunPc → Bool
  | closing => true
  | returned => true
  | _ => false

namespace RunPc

variable {pc : RunPc}

theorem isStopped_of_isLooping (loops : pc.isLooping = true) : pc.isStopped = false := by
  cases pc <;> first | rfl | cases loops

theorem holding_of_isLooping (loops : pc.isLooping = true) : pc.holding = 0 := by
  cases pc <;> first | rfl | cases loops

theorem isJoined_of_isLooping (loops : pc.isLooping = true) : pc.isJoined = false := by
  cases pc <;> first | rfl | cases loops

end RunPc

namespace Process

variable {cfg : Config} {d d' : Process}

/-! ### What a command can do -/

inductive Command (cfg : Config) (d : Process) : Process → Prop where
  /-- The loop goes on to its next command. -/
  | goOn {pc : RunPc} :
      d.main.isLooping = true → pc.isLooping = true → Command cfg d { d with main := pc }
  | accept {round : Round} :
      d.main = .draining round →
        Command cfg d { d with main := .submitting round, accepted := d.accepted + 1 }
  | submit {round : Round} :
      d.main = .submitting round →
        Command cfg d { d with main := .draining round, pool := d.pool.submit }
  | reload {round : Round} (opened : Db → Option Mmdb) :
      d.main = .reloading round →
        Command cfg d
          { d with
            main := .checking round true
            life := d.life.reloadDatabases cfg opened
            reloads := d.reloads ++ [opened] }
  | interrupted (now : Int) : d.main = .polling → Command cfg d (d.endRound cfg (.interrupted now))
  | failed (now : Int) : d.main = .polling → Command cfg d (d.endRound cfg (.failed now))
  | served {round : Round} {running : Bool} (now written : Int) (server : Server)
      (outcome : WriteOutcome) :
      d.main = .checking round running →
        Command cfg d
          ((d.writeMetrics cfg (.served round.now now written running) server outcome).endRound cfg
            (.served round.now now written running))
  | stop : d.main = .stopping → Command cfg d { d with main := .joining, pool := d.pool.shutdown }
  | join :
      d.main = .joining → d.pool.phase = .joined →
        Command cfg d { d with main := .closing, life := d.life.stopPool }
  | close :
      d.main = .closing →
        Command cfg d
          { d with
            main := .returned
            life := d.life.closeListenFd.closeTcpListenFds.unlinkSocket.closeSignalFd }

theorem command_polled {now : Int} {result : PollResult} (here : d.main = .polling) :
    Command cfg d (d.polled cfg now result) := by
  cases result with
  | interrupted => exact .interrupted now here
  | failed => exact .failed now here
  | returned pollIn signal => exact .goOn (by rw [here]; rfl) rfl

theorem command_accept4 {round : Round} {result : AcceptResult} (here : d.main = .draining round) :
    Command cfg d (d.accept4 round result) := by
  cases result with
  | connection => exact .accept here
  | interrupted | again | failed => exact .goOn (by rw [here]; rfl) rfl

theorem command_handleSignal {round : Round} {info : Option Signal} (here : d.main = .reading round) :
    Command cfg d (d.handleSignal round info) := by
  cases info with
  | none => exact .goOn (by rw [here]; rfl) rfl
  | some signal =>
      cases signal with
      | term | int | hup | other => exact .goOn (by rw [here]; rfl) rfl

theorem command_cases {input : MainInput} (h : d.command cfg input = some d') : Command cfg d d' := by
  unfold command at h
  split at h
  next now result here =>
    cases h
    exact command_polled here
  next round result here =>
    split_ifs at h
    cases h
    exact command_accept4 here
  next round here =>
    split_ifs at h
    cases h
    exact .goOn (by rw [here]; rfl) rfl
  next round here =>
    cases h
    exact .submit here
  next round here =>
    split_ifs at h
    cases h
    exact .goOn (by rw [here]; rfl) rfl
  next round info here =>
    split_ifs at h
    cases h
    exact command_handleSignal here
  next round opened here =>
    cases h
    exact .reload opened here
  next round running now written server outcome here =>
    cases h
    exact .served now written server outcome here
  next here =>
    cases h
    exact .stop here
  next here =>
    split_ifs at h with joined
    cases h
    exact .join here joined
  next here =>
    cases h
    exact .close here
  next => cases h

/-- Commands of the main thread in a row. -/
theorem run_of_commands {inputs : List MainInput} (h : inputs.foldlM (command cfg) d = some d') :
    Relation.ReflTransGen (Step cfg) d d' := by
  induction inputs generalizing d with
  | nil =>
      obtain rfl := Option.some.inj h
      exact .refl
  | cons input inputs ih =>
      obtain ⟨next, first, rest⟩ := Option.bind_eq_some_iff.mp h
      exact .head (.main input first) (ih rest)

/-! ### The pool inside the process -/

theorem submissions_submit (pool : ThreadPool Action) (running : pool.stop = false) :
    pool.submit.submissions = pool.submissions ++ [false] ∧ pool.submit.stop = false := by
  unfold ThreadPool.submit
  simp [running]

theorem submissions_shutdown (pool : ThreadPool Action) :
    pool.shutdown.submissions = pool.submissions ∧ pool.shutdown.stop = true := by
  unfold ThreadPool.shutdown
  split_ifs with stopped
  · exact ⟨rfl, stopped⟩
  · exact ⟨rfl, rfl⟩

@[simp] theorem endRound_pool (tick : Tick) : (d.endRound cfg tick).pool = d.pool := rfl

@[simp] theorem endRound_accepted (tick : Tick) : (d.endRound cfg tick).accepted = d.accepted := rfl

@[simp] theorem endRound_life (tick : Tick) : (d.endRound cfg tick).life = d.life := rfl

@[simp] theorem endRound_reloads (tick : Tick) : (d.endRound cfg tick).reloads = d.reloads := rfl

theorem endRound_main (tick : Tick) :
    (d.endRound cfg tick).main = .polling ∨ (d.endRound cfg tick).main = .stopping := by
  unfold endRound
  cases tick.continues with
  | true => exact .inl rfl
  | false => exact .inr rfl

section Writing

variable {tick : Tick} {server : Server} {outcome : WriteOutcome}

@[simp] theorem writeMetrics_pool : (d.writeMetrics cfg tick server outcome).pool = d.pool := by
  unfold writeMetrics
  split_ifs <;> rfl

@[simp] theorem writeMetrics_accepted :
    (d.writeMetrics cfg tick server outcome).accepted = d.accepted := by
  unfold writeMetrics
  split_ifs <;> rfl

@[simp] theorem writeMetrics_life : (d.writeMetrics cfg tick server outcome).life = d.life := by
  unfold writeMetrics
  split_ifs <;> rfl

@[simp] theorem writeMetrics_reloads :
    (d.writeMetrics cfg tick server outcome).reloads = d.reloads := by
  unfold writeMetrics
  split_ifs <;> rfl

end Writing

/-- Where the main thread is, told from the pool. -/
structure Accounted (d : Process) : Prop where
  stopped : d.pool.stop = d.main.isStopped
  submitted : d.pool.submissions = List.replicate d.pool.submissions.length false
  held : d.pool.submissions.length + d.main.holding = d.accepted
  joined : d.main.isJoined = true → d.pool.phase = .joined

/-- The end of a round concerns neither the pool nor the connections. -/
theorem Accounted.endRound (h : d.Accounted) (loops : d.main.isLooping = true) (pool : d'.pool = d.pool)
    (accepted : d'.accepted = d.accepted) (tick : Tick) : (d'.endRound cfg tick).Accounted := by
  have stopped := h.stopped
  have held := h.held
  rw [RunPc.isStopped_of_isLooping loops] at stopped
  rw [RunPc.holding_of_isLooping loops] at held
  rcases @endRound_main cfg d' tick with main | main
  · refine ⟨?_, ?_, ?_, ?_⟩ <;> simp [main, pool, accepted, stopped, ← held, RunPc.isStopped,
      RunPc.holding, RunPc.isJoined, ← h.submitted]
  · refine ⟨?_, ?_, ?_, ?_⟩ <;> simp [main, pool, accepted, stopped, ← held, RunPc.isStopped,
      RunPc.holding, RunPc.isJoined, ← h.submitted]

theorem Command.accounted (h : Command cfg d d') (account : d.Accounted) : d'.Accounted := by
  obtain ⟨stopped, submitted, held, joined⟩ := account
  cases h with
  | goOn here there =>
      rw [RunPc.isStopped_of_isLooping here, ← RunPc.isStopped_of_isLooping there] at stopped
      rw [RunPc.holding_of_isLooping here, ← RunPc.holding_of_isLooping there] at held
      refine ⟨stopped, submitted, held, fun joins => ?_⟩
      rw [RunPc.isJoined_of_isLooping there] at joins
      cases joins
  | accept here =>
      rw [here] at stopped held
      exact ⟨stopped, submitted, congrArg (· + 1) held, nofun⟩
  | submit here =>
      rw [here] at stopped held
      obtain ⟨more, running⟩ := submissions_submit d.pool stopped
      refine ⟨running, ?_, ?_, nofun⟩
      · dsimp only
        rw [more, List.length_append, List.length_singleton, List.replicate_succ', ← submitted]
      · dsimp only
        rw [more, List.length_append, List.length_singleton, ← held]
        rfl
  | reload opened here =>
      rw [here] at stopped held
      exact ⟨stopped, submitted, held, nofun⟩
  | interrupted now here =>
      exact Accounted.endRound ⟨stopped, submitted, held, joined⟩ (by rw [here]; rfl) rfl rfl _
  | failed now here =>
      exact Accounted.endRound ⟨stopped, submitted, held, joined⟩ (by rw [here]; rfl) rfl rfl _
  | served now written server outcome here =>
      exact Accounted.endRound ⟨stopped, submitted, held, joined⟩ (by rw [here]; rfl)
        writeMetrics_pool writeMetrics_accepted _
  | stop here =>
      rw [here] at held
      obtain ⟨same, stops⟩ := submissions_shutdown d.pool
      refine ⟨stops, ?_, ?_, nofun⟩
      · dsimp only
        rw [same, ← submitted]
      · dsimp only
        rw [same, ← held]
        rfl
  | join here finished =>
      rw [here] at stopped held
      exact ⟨stopped, submitted, held, fun _ => finished⟩
  | close here =>
      rw [here] at stopped held joined
      exact ⟨stopped, submitted, held, fun _ => joined rfl⟩

/-- Once the workers are joined, nothing starts again. -/
theorem joined_of_step {pool next : ThreadPool Action} {runs : List Action → Prop}
    {isClose : Action → Bool} (h : ThreadPool.Step runs isClose pool next)
    (same : next.stop = pool.stop) (joined : pool.phase = .joined) : next.phase = .joined := by
  cases h with
  | submit =>
      unfold ThreadPool.submit
      dsimp only
      split_ifs <;> exact joined
  | shutdown =>
      unfold ThreadPool.shutdown at same ⊢
      split_ifs at same ⊢ with stopped
      · exact joined
      · exact absurd same.symm stopped
  | notifyAll stopping =>
      rw [joined] at stopping
      cases stopping
  | join => rfl
  | _ => exact joined

theorem Step.accounted (h : Step cfg d d') (account : d.Accounted) : d'.Accounted := by
  cases h with
  | main input answered => exact (command_cases answered).accounted account
  | pool step submissions stop =>
      obtain ⟨stopped, submitted, held, joined⟩ := account
      refine ⟨stop.trans stopped, ?_, ?_, fun joins => joined_of_step step stop (joined joins)⟩
      · dsimp only
        rwa [submissions]
      · dsimp only
        rwa [submissions]

theorem Accounted.steps (account : d.Accounted) (later : Relation.ReflTransGen (Step cfg) d d') :
    d'.Accounted := by
  induction later with
  | refl => exact account
  | tail _ step ih => exact step.accounted ih

/-- A command concerns the pool only through `submit` and `shutdown`. -/
theorem Command.pool_cases (h : Command cfg d d') :
    d'.pool = d.pool ∨ d'.pool = d.pool.submit ∨ d'.pool = d.pool.shutdown := by
  cases h with
  | goOn | accept | reload | interrupted | failed | join | close => exact .inl rfl
  | served => exact .inl (by simp)
  | submit => exact .inr (.inl rfl)
  | stop => exact .inr (.inr rfl)

section Run

variable {life : Life} {clock : Int}

/-- **A run of the process is a run of its pool.** -/
theorem Reachable.pool (run : Reachable cfg life clock d) :
    ThreadPool.Reachable Handles Action.isClose (toSize cfg.threads) d.pool := by
  induction run with
  | refl => exact .refl
  | @tail d d' _ step ih =>
      cases step with
      | main input answered =>
          rcases (command_cases answered).pool_cases with same | submitted | stopped
          · rwa [same]
          · rw [submitted]
            exact ih.tail (.submit d.pool)
          · rw [stopped]
            exact ih.tail (.shutdown d.pool)
      | pool step => exact ih.tail step

theorem Reachable.accounted (run : Reachable cfg life clock d) : d.Accounted := by
  have first : (start cfg life clock).Accounted := ⟨rfl, rfl, rfl, nofun⟩
  exact first.steps run

/-- Nothing is refused, and what is queued or taken is everything submitted, in order. -/
theorem Reachable.order (run : Reachable cfg life clock d) :
    d.pool.refused = [] ∧ d.pool.dequeued ++ d.pool.queue = List.range d.pool.submissions.length := by
  obtain ⟨early, late, submissions, queued, refused, -⟩ := run.pool.ordered
  have submitted := run.accounted.submitted
  have none' : late = 0 := by
    by_contra some'
    have mem : true ∈ d.pool.submissions := by
      rw [submissions, List.mem_append, List.mem_replicate, List.mem_replicate]
      exact .inr ⟨some', rfl⟩
    rw [submitted] at mem
    exact absurd (List.eq_of_mem_replicate mem) (by decide)
  subst none'
  have length : d.pool.submissions.length = early := by simp [submissions]
  exact ⟨refused, by rw [queued, length]⟩

end Run

/-! ### The join -/

/-- While the main thread waits in `shutdown`, the workers can always come to their end. -/
theorem exists_joined (drains : d.pool.Drains) (stopped : d.pool.stop = true) :
    ∃ pool, Relation.ReflTransGen (Step cfg) d { d with pool := pool } ∧ pool.phase = .joined := by
  have finish : ∀ pool : ThreadPool Action, pool.Drains → pool.stop = true →
      ∃ pool', Relation.ReflTransGen (Step cfg) { d with pool := pool } { d with pool := pool' } ∧
        pool'.phase = .joined := by
    intro pool
    induction pool using ThreadPool.closer_wellFounded.induction with
    | _ pool ih =>
        intro drains stopped
        by_cases joined : pool.phase = .joined
        · exact ⟨pool, .refl, joined⟩
        · obtain ⟨next, step, closer, stopped', same⟩ :=
            ThreadPool.exists_closer handles_nonempty drains stopped joined
          obtain ⟨last, run, joined'⟩ := ih next closer (step.drains drains) stopped'
          have first : Step cfg { d with pool := pool } { d with pool := next } :=
            .pool step same (stopped'.trans stopped.symm)
          exact ⟨last, .head first run, joined'⟩
  exact finish d.pool drains stopped

theorem Reachable.exists_closing {life : Life} {clock : Int} (run : Reachable cfg life clock d)
    (positive : 0 < toSize cfg.threads) (here : d.main = .joining) :
    ∃ pool, Reachable cfg life clock
      { d with main := .closing, life := d.life.stopPool, pool := pool } := by
  have stopped := run.accounted.stopped
  rw [here] at stopped
  obtain ⟨pool, waits, joined⟩ := exists_joined (run.pool.drains positive) stopped
  refine ⟨pool, (Relation.ReflTransGen.trans run waits).tail (.main .step ?_)⟩
  unfold command
  rw [here]
  exact if_pos joined

section Started

variable {detected : UInt32} {path : Bytes} {explicitPath : Bool} {file : ConfigFile}
  {env : Environment} {regularFileExists : Bytes → Bool} {life : Life} {clock : Int}

theorem threads_pos
    (started : startupConfig detected path explicitPath file env regularFileExists = .ok cfg) :
    0 < toSize cfg.threads := by
  have threads := (startupConfig_inRange started).threads
  have size := toSize_eq_self (n := cfg.threads) (by omega) (by omega)
  omega

/-- **Every connection the daemon accepts is served, once.** In every state of a run the
connections are handed to the handler in the order of `accept4`, none is refused, none is
closed twice or before a handler has it; and when `shutdown` has returned each of them has
been handled and closed, the ones still queued at the stop included. -/
theorem connections_served
    (started : startupConfig detected path explicitPath file env regularFileExists = .ok cfg)
    (run : Reachable cfg life clock d) :
    d.pool.refused = [] ∧
      d.pool.dequeued ++ d.pool.queue = List.range d.pool.submissions.length ∧
      d.pool.submissions.length + d.main.holding = d.accepted ∧
      (∀ conn, d.pool.closed.count conn ≤ d.pool.dequeued.count conn ∧
        d.pool.dequeued.count conn ≤ 1) ∧
      (d.main.isJoined = true →
        d.pool.dequeued = List.range d.accepted ∧
          ∀ conn < d.accepted, d.pool.closed.count conn = 1) := by
  obtain ⟨refused, order⟩ := run.order
  have account := run.accounted
  have conserved := run.pool.conserved (fun _ => Handles.once) (threads_pos started)
  have nobody : ∀ conn, d.pool.refused.count conn = 0 := by simp [refused]
  have counted : ∀ conn, d.pool.dequeued.count conn + d.pool.queue.count conn =
      if conn < d.pool.submissions.length then 1 else 0 := by
    intro conn
    rw [← List.count_append, order, List.count_range]
  refine ⟨refused, order, account.held, ?_, ?_⟩
  · intro conn
    have closes := conserved.closes conn
    have once := counted conn
    rw [nobody] at closes
    split_ifs at once <;> omega
  · intro joins
    obtain ⟨empty, settled⟩ := conserved.joined (account.joined joins)
    have all : d.pool.submissions.length = d.accepted := by
      have free : d.main.holding = 0 := by
        cases main : d.main with
        | submitting round =>
            rw [main] at joins
            cases joins
        | _ => rfl
      rw [← account.held, free, Nat.add_zero]
    rw [empty, List.append_nil, all] at order
    refine ⟨order, fun conn accepted => ?_⟩
    have closes := conserved.closes conn
    rw [settled, nobody, order, List.count_range, if_pos accepted] at closes
    exact closes

end Started

/-- A configuration without a file. -/
def defaultConfig : Config := Config.default 4

theorem startupConfig_default :
    startupConfig 4 (ascii "/etc/nshgeoip/nshgeoip.conf") false .absent (fun _ => none)
      (fun _ => false) = .ok defaultConfig := by
  decide +kernel

/-- Two clients on the UNIX socket in the first round, and SIGTERM in the second. -/
def twoClients : List MainInput :=
  [.polled 0 (.returned (· == 0) false), .accept4 .connection, .step, .accept4 .connection, .step,
    .accept4 .again, .step, .step, .checked 0 0 idleServer fullDisk,
    .polled 0 (.returned (fun _ => false) true), .step, .read (some .term),
    .checked 0 0 idleServer fullDisk, .step]

/-- Both are served before the workers are joined. -/
theorem connections_served_twoClients :
    ∃ d, Reachable defaultConfig {} 0 d ∧ d.main = .closing ∧ d.pool.dequeued = [0, 1] ∧
      ∀ conn < 2, d.pool.closed.count conn = 1 := by
  obtain ⟨d, ran⟩ : ∃ d, twoClients.foldlM (command defaultConfig) (start defaultConfig {} 0) =
      some d := ⟨_, rfl⟩
  have main : d.main = .joining ∧ d.accepted = 2 := by
    obtain rfl := Option.some.inj ran
    exact ⟨rfl, rfl⟩
  have run : Reachable defaultConfig {} 0 d := run_of_commands ran
  obtain ⟨pool, joined⟩ := run.exists_closing (threads_pos startupConfig_default) main.1
  obtain ⟨-, -, -, -, served⟩ := connections_served startupConfig_default joined
  dsimp only at served
  rw [main.2] at served
  exact ⟨_, joined, rfl, served rfl⟩

end Process

end Nshgeoip
