import Nshgeoip.Process.Connections

/-!
The end of the process.

Once the main thread has read a stop signal, each of its turns brings the end closer, and
behind the stop flag every step that changes anything does, whoever takes it; until `run`
has returned there is such a step. So `cleanup` comes to its end (`shutdown_terminates`).
It waits for nobody but the workers, and these take no new connection that was not
accepted before.
-/

namespace Nshgeoip

open ByteText

/-- A stop signal has been read, or `poll` has failed. -/
def RunPc.isEnding : RunPc → Bool
  | checking _ running => !running
  | stopping => true
  | pc => pc.isStopped

/-- How many commands are left to a main thread on its way to the end. -/
def RunPc.left : RunPc → Nat
  | checking _ _ => 4
  | stopping => 3
  | joining => 2
  | closing => 1
  | _ => 0

namespace Process

variable {cfg : Config} {d d' : Process}

/-- A step that changes something. -/
def Moves (cfg : Config) (d d' : Process) : Prop := Step cfg d d' ∧ d' ≠ d

/-- The main thread waits while the others take steps. -/
def Waits (cfg : Config) : Process → Process → Prop :=
  Relation.ReflTransGen fun d d' => Step cfg d d' ∧ d'.main = d.main

/-- What brings the end closer: behind the stop flag any step that changes something,
before it a command of the main thread. An idle worker may wake up for no reason, so ahead
of the flag the others have no bound on their steps and the main thread has to get its turn. -/
inductive Advances (cfg : Config) (d d' : Process) : Prop where
  | step : d.main.isStopped = true → Moves cfg d d' → Advances cfg d d'
  | turn {before : Process} (input : MainInput) :
      Waits cfg d before → before.command cfg input = some d' → Advances cfg d d'

/-- The commands of the main thread first, the pool second. -/
def remaining (d : Process) : Nat × Nat × Nat := (d.main.left, d.pool.remaining)

def Closer (d' d : Process) : Prop :=
  Prod.Lex (· < ·) (Prod.Lex (· < ·) (· < ·)) d'.remaining d.remaining

theorem closer_wellFounded : WellFounded Closer :=
  InvImage.wf remaining (wellFounded_lt.prod_lex (wellFounded_lt.prod_lex wellFounded_lt))

/-- The loop ends with a stop signal and with no other. -/
theorem isEnding_handleSignal (round : Round) (info : Option Signal) :
    (d.handleSignal round info).main.isEnding = true ↔ info = some .term ∨ info = some .int := by
  cases info with
  | none => simp [handleSignal, RunPc.isEnding]
  | some signal => cases signal <;> simp [handleSignal, RunPc.isEnding, RunPc.isStopped]

/-- **Every turn of the main thread counts** on the way to the end. -/
theorem command_ending {input : MainInput} (h : d.command cfg input = some d')
    (ending : d.main.isEnding = true) :
    d'.main.left < d.main.left ∧ d'.main.isEnding = true ∧ d'.accepted = d.accepted := by
  unfold command at h
  cases main : d.main with
  | polling | draining | submitting | reading | reloading =>
      rw [main] at ending
      cases ending
  | checking round running =>
      rw [main] at h ending
      have stops : running = false := by simpa [RunPc.isEnding] using ending
      subst stops
      cases input with
      | checked now written server outcome =>
          obtain rfl := Option.some.inj h
          exact ⟨Nat.lt_succ_self 3, rfl, writeMetrics_accepted⟩
      | step | polled | accept4 | read | mmdbOpen => cases h
  | stopping =>
      rw [main] at h
      cases input with
      | step =>
          obtain rfl := Option.some.inj h
          exact ⟨Nat.lt_succ_self 2, rfl, rfl⟩
      | polled | accept4 | read | mmdbOpen | checked => cases h
  | joining =>
      rw [main] at h
      cases input with
      | step =>
          dsimp only at h
          split_ifs at h
          obtain rfl := Option.some.inj h
          exact ⟨Nat.lt_succ_self 1, rfl, rfl⟩
      | polled | accept4 | read | mmdbOpen | checked => cases h
  | closing =>
      rw [main] at h
      cases input with
      | step =>
          obtain rfl := Option.some.inj h
          exact ⟨Nat.lt_succ_self 0, rfl, rfl⟩
      | polled | accept4 | read | mmdbOpen | checked => cases h
  | returned =>
      rw [main] at h
      cases input <;> cases h

theorem Step.stays_ending (h : Step cfg d d') (ending : d.main.isEnding = true) :
    d'.main.isEnding = true ∧ d'.accepted = d.accepted := by
  cases h with
  | pool => exact ⟨ending, rfl⟩
  | main input answered => exact (command_ending answered ending).2

theorem stays_ending_of_steps (later : Relation.ReflTransGen (Step cfg) d d')
    (ending : d.main.isEnding = true) : d'.main.isEnding = true ∧ d'.accepted = d.accepted := by
  induction later with
  | refl => exact ⟨ending, rfl⟩
  | tail _ step ih =>
      obtain ⟨stays, same⟩ := step.stays_ending ih.1
      exact ⟨stays, same.trans ih.2⟩

theorem Waits.steps (h : Waits cfg d d') :
    Relation.ReflTransGen (Step cfg) d d' ∧ d'.main = d.main := by
  induction h with
  | refl => exact ⟨.refl, rfl⟩
  | tail _ step ih => exact ⟨ih.1.tail step.1, step.2.trans ih.2⟩

theorem Advances.steps (h : Advances cfg d d') : Relation.ReflTransGen (Step cfg) d d' := by
  cases h with
  | step _ moves => exact .single moves.1
  | turn input waits answered => exact waits.steps.1.tail (.main input answered)

/-- **Behind the flag every step counts.** -/
theorem Moves.closer (h : Moves cfg d d') (account : d.Accounted) (ending : d.main.isEnding = true)
    (stopped : d.main.isStopped = true) : Closer d' d := by
  obtain ⟨step, moved⟩ := h
  cases step with
  | main input answered => exact .left _ _ (command_ending answered ending).1
  | pool step submissions stop =>
      rcases step.closer (account.stopped.trans stopped) with submitted | same | closer
      · rw [submitted] at submissions
        have length := congrArg List.length submissions
        unfold ThreadPool.submit at length
        dsimp only at length
        split_ifs at length <;> simp at length
      · rw [same] at moved
        exact absurd rfl moved
      · exact .right _ closer

theorem Advances.closer (h : Advances cfg d d') (account : d.Accounted)
    (ending : d.main.isEnding = true) : Closer d' d := by
  cases h with
  | step stopped moves => exact moves.closer account ending stopped
  | turn input waits answered =>
      have same := waits.steps.2
      refine .left _ _ ?_
      rw [← same] at ending ⊢
      exact (command_ending answered ending).1

theorem finite_of_ending (account : d.Accounted) (ending : d.main.isEnding = true) :
    Acc (fun after before => Advances cfg before after) d := by
  induction d using closer_wellFounded.induction with
  | _ d ih =>
      refine ⟨d, fun d' advances => ?_⟩
      exact ih d' (advances.closer account ending) (account.steps advances.steps)
        (stays_ending_of_steps advances.steps ending).1

/-- **No deadlock** short of the return. -/
theorem exists_advances (account : d.Accounted) (drains : d.pool.Drains)
    (ending : d.main.isEnding = true) (unfinished : d.main ≠ .returned) :
    ∃ d', Advances cfg d d' := by
  cases main : d.main with
  | polling | draining | submitting | reading | reloading =>
      rw [main] at ending
      cases ending
  | returned => exact absurd main unfinished
  | checking round running =>
      exact ⟨_, .turn (.checked 0 0 idleServer ⟨false, [], false, [], false, false⟩) .refl
        (by unfold command; rw [main])⟩
  | stopping | closing => exact ⟨_, .turn .step .refl (by unfold command; rw [main])⟩
  | joining =>
      by_cases joined : d.pool.phase = .joined
      · exact ⟨_, .turn .step .refl (by unfold command; rw [main]; exact if_pos joined)⟩
      · have stopped : d.main.isStopped = true := by rw [main]; rfl
        have flagged := account.stopped.trans stopped
        obtain ⟨p, step, closer, stop, submissions⟩ :=
          ThreadPool.exists_closer handles_nonempty drains flagged joined
        refine ⟨{ d with pool := p }, .step stopped
          ⟨.pool step submissions (stop.trans flagged.symm), fun same => ?_⟩⟩
        have pool : p = d.pool := congrArg Process.pool same
        rw [pool] at closer
        exact ThreadPool.closer_wellFounded.irrefl.irrefl _ closer

section Started

variable {detected : UInt32} {path : Bytes} {explicitPath : Bool} {file : ConfigFile}
  {env : Environment} {regularFileExists : Bytes → Bool} {life : Life} {clock : Int}

/-- **Shutdown comes to an end under every schedule** in which the main thread gets its
turn. Once a stop signal is read, no run of the process goes on for ever that way, no
connection is accepted any more, and where nothing can be done `run` has returned and every
worker is joined. -/
theorem shutdown_terminates
    (started : startupConfig detected path explicitPath file env regularFileExists = .ok cfg)
    (run : Reachable cfg life clock d) (ending : d.main.isEnding = true) :
    Acc (fun after before => Advances cfg before after) d ∧
      ∀ d', Relation.ReflTransGen (Step cfg) d d' →
        d'.main.isEnding = true ∧ d'.accepted = d.accepted ∧
          ((∀ d'', ¬ Advances cfg d' d'') → d'.main = .returned ∧ d'.pool.phase = .joined) := by
  refine ⟨finite_of_ending run.accounted ending, fun d' later => ?_⟩
  obtain ⟨stays, same⟩ := stays_ending_of_steps later ending
  have whole : Reachable cfg life clock d' := Relation.ReflTransGen.trans run later
  refine ⟨stays, same, fun stuck => ?_⟩
  have returned : d'.main = .returned := by
    by_contra unfinished
    obtain ⟨d'', advances⟩ : ∃ d'', Advances cfg d' d'' :=
      exists_advances whole.accounted (whole.pool.drains (threads_pos started)) stays unfinished
    exact stuck d'' advances
  refine ⟨returned, whole.accounted.joined ?_⟩
  rw [returned]
  rfl

end Started

/-- A stop signal in the first round, just read. -/
theorem shutdown_terminates_signalled :
    ∃ d, Reachable defaultConfig {} 0 d ∧ d.pool.stop = false ∧
      Acc (fun after before => Advances defaultConfig before after) d := by
  obtain ⟨d, ran⟩ : ∃ d, [.polled 0 (.returned (fun _ => false) true), .step].foldlM
      (command defaultConfig) (start defaultConfig {} 0) = some d := ⟨_, rfl⟩
  have main : d.main = .reading ⟨0, [], true⟩ ∧ d.pool.stop = false := by
    obtain rfl := Option.some.inj ran
    exact ⟨rfl, rfl⟩
  have signalled : d.command defaultConfig (.read (some .term)) =
      some (d.handleSignal ⟨0, [], true⟩ (some .term)) := by
    unfold command
    rw [main.1]
    rfl
  have run : Reachable defaultConfig {} 0 (d.handleSignal ⟨0, [], true⟩ (some .term)) :=
    (run_of_commands ran).tail (.main _ signalled)
  have ending := (isEnding_handleSignal (d := d) ⟨0, [], true⟩ (some .term)).mpr (.inl rfl)
  exact ⟨_, run, main.2, (shutdown_terminates startupConfig_default run ending).1⟩

end Process

end Nshgeoip
