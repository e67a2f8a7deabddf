import Nshgeoip.Process.Connections
import Nshgeoip.Server.Resources
import Nshgeoip.Server.SocketPath

/-!
The rounds of the main loop, against the two coarser models of it.

`Server.RunLoop` and `Server.MetricsFile` know the loop as a list of ticks, and
`Server.Lifecycle` as a list of reloads with `cleanup` behind it. A run of the process is
one of each: `Reachable.rounds` and `Reachable.life_eq`. What is proved of those carries
over, and the cadence of the metrics writes can be read off the ticks (`metrics_cadence`).
-/

namespace Nshgeoip

open ByteText Filing Lifetime Program

/-- The loop is left. -/
def RunPc.isOver : RunPc → Bool
  | stopping => true
  | pc => pc.isStopped

/-- What `cleanup` has done to the members so far. -/
def RunPc.cleaned : RunPc → Life → Life
  | closing, s => s.stopPool
  | returned, s => s.cleanup
  | _, s => s

namespace RunPc

variable {pc : RunPc}

theorem isOver_of_isLooping (loops : pc.isLooping = true) : pc.isOver = false := by
  cases pc <;> first | rfl | cases loops

theorem cleaned_of_isLooping (loops : pc.isLooping = true) (s : Life) : pc.cleaned s = s := by
  cases pc <;> first | rfl | cases loops

theorem cleaned_sound (pc : RunPc) {s : Life} (h : Life.Sound [] s) :
    Life.Sound [] (pc.cleaned s) := by
  cases pc with
  | closing => exact Life.stopPool_sound h
  | returned => exact Life.cleanup_sound h
  | polling | draining | submitting | reading | reloading | checking | stopping | joining => exact h

theorem cleaned_of_not_isJoined (working : pc.isJoined = false) (s : Life) : pc.cleaned s = s := by
  cases pc <;> first | rfl | cases working

end RunPc

/-- `next_metrics_write` after some rounds. -/
def deadline (cfg : Config) (start : Int) (ticks : List Tick) : Int :=
  ticks.foldl (nextMetricsWrite cfg) start

/-- Behind rounds that went on, the writes go on from the deadline these led to. -/
theorem metricsWrites_append {cfg : Config} {start : Int} {its : List Iteration}
    (rest : List Iteration) (going : ∀ tick ∈ its.map (·.tick), tick.continues = true) :
    metricsWrites cfg start (its ++ rest) = metricsWrites cfg start its ++
      metricsWrites cfg (deadline cfg start (its.map (·.tick))) rest := by
  induction its generalizing start with
  | nil => rfl
  | cons first its ih =>
      obtain ⟨goesOn, later⟩ := List.forall_mem_cons.mp going
      rw [List.cons_append, metricsWrites, metricsWrites, if_pos goesOn, if_pos goesOn, ih later,
        List.append_assoc]
      rfl

/-- Later rounds take no write back. -/
theorem metricsWrites_grows {cfg : Config} {start : Int} {its : List Iteration}
    (rest : List Iteration) : metricsWrites cfg start its <+: metricsWrites cfg start (its ++ rest) := by
  induction its generalizing start with
  | nil => exact List.nil_prefix
  | cons first its ih =>
      rw [List.cons_append, metricsWrites, metricsWrites, List.prefix_append_right_inj]
      split_ifs
      · exact ih
      · exact List.nil_prefix

/-- One more round writes if the deadline has come. -/
theorem metricsWrites_concat {cfg : Config} {start : Int} {its : List Iteration} (it : Iteration)
    (going : ∀ tick ∈ its.map (·.tick), tick.continues = true) :
    metricsWrites cfg start (its ++ [it]) = metricsWrites cfg start its ++
      if metricsDue cfg (deadline cfg start (its.map (·.tick))) it.tick then [it] else [] := by
  simp [metricsWrites_append [it] going, metricsWrites]

namespace Process

variable {cfg : Config} {d d' : Process} {life : Life} {clock : Int}

/-! ### Rounds -/

/-- The process against the ticks of its rounds. -/
structure Rounds (cfg : Config) (clock : Int) (d : Process) : Prop where
  next : d.next = deadline cfg clock d.ticks
  /-- The last tick, and no other, ends the loop. -/
  going : ∀ tick ∈ d.ticks.dropLast, tick.continues = true
  last : ∀ tick ∈ d.ticks.getLast?, tick.continues = !d.main.isOver
  calls : ∃ its : List Iteration, its.map (·.tick) = d.ticks ∧ d.calls = metricsCalls cfg clock its

/-- What a round that writes nothing would have rendered does not matter. -/
def unwritten (tick : Tick) : Iteration := ⟨tick, idleServer, ⟨false, [], false, [], false, false⟩⟩

theorem Rounds.all_going (h : d.Rounds cfg clock) (loops : d.main.isOver = false) :
    ∀ tick ∈ d.ticks, tick.continues = true := by
  intro tick mem
  rcases List.eq_nil_or_concat' d.ticks with none' | ⟨before, final, eq⟩
  · simp [none'] at mem
  · have going := h.going
    have last := h.last
    rw [eq] at mem going last
    simp only [List.dropLast_concat, List.getLast?_concat, Option.mem_def,
      Option.some.injEq, forall_eq', loops, Bool.not_false] at going last
    rcases List.mem_append.mp mem with early | here
    · exact going tick early
    · rw [List.mem_singleton.mp here]
      exact last

theorem isOver_endRound (tick : Tick) : (d.endRound cfg tick).main.isOver = !tick.continues := by
  unfold endRound
  cases tick.continues <;> rfl

/-- One more round, with the calls of its write. -/
theorem Rounds.endRound (h : d.Rounds cfg clock) (loops : d.main.isOver = false) (it : Iteration)
    (next : d'.next = d.next) (ticks : d'.ticks = d.ticks)
    (calls : d'.calls = d.calls ++ if metricsDue cfg d.next it.tick then
      writeMetricsFile cfg.metricsFile it.server.metricsText it.outcome else []) :
    (d'.endRound cfg it.tick).Rounds cfg clock := by
  obtain ⟨its, made, written⟩ := h.calls
  have going := h.all_going loops
  refine ⟨?_, ?_, ?_, its ++ [it], ?_, ?_⟩
  · show nextMetricsWrite cfg d'.next it.tick = deadline cfg clock (d'.ticks ++ [it.tick])
    rw [next, ticks, h.next, deadline, deadline, List.foldl_append]
    rfl
  · show ∀ tick ∈ (d'.ticks ++ [it.tick]).dropLast, tick.continues = true
    rwa [List.dropLast_concat, ticks]
  · show ∀ tick ∈ (d'.ticks ++ [it.tick]).getLast?, _
    rw [List.getLast?_concat, isOver_endRound, Bool.not_not]
    rintro tick ⟨⟩
    rfl
  · show (its ++ [it]).map (·.tick) = d'.ticks ++ [it.tick]
    rw [List.map_append, made, ticks]
    rfl
  · show d'.calls = _
    rw [calls, written, metricsCalls, metricsCalls, metricsWrites_concat it (made ▸ going),
      List.flatMap_append, made, ← h.next]
    split_ifs <;> simp

theorem metricsDue_interrupted (next now : Int) : metricsDue cfg next (.interrupted now) = false := rfl

theorem metricsDue_failed (next now : Int) : metricsDue cfg next (.failed now) = false := rfl

theorem Command.rounds (h : Command cfg d d') (rounds : d.Rounds cfg clock) :
    d'.Rounds cfg clock := by
  obtain ⟨next, going, last, calls⟩ := rounds
  cases h with
  | goOn here there =>
      rw [RunPc.isOver_of_isLooping here, ← RunPc.isOver_of_isLooping there] at last
      exact ⟨next, going, last, calls⟩
  | accept here | submit here | reload opened here | stop here | join here finished | close here =>
      rw [here] at last
      exact ⟨next, going, last, calls⟩
  | interrupted now here =>
      exact Rounds.endRound ⟨next, going, last, calls⟩ (by rw [here]; rfl) (unwritten (.interrupted now))
        rfl rfl (by simp [unwritten, metricsDue_interrupted])
  | failed now here =>
      exact Rounds.endRound ⟨next, going, last, calls⟩ (by rw [here]; rfl) (unwritten (.failed now))
        rfl rfl (by simp [unwritten, metricsDue_failed])
  | @served round running now written server outcome here =>
      refine Rounds.endRound ⟨next, going, last, calls⟩ (by rw [here]; rfl)
        ⟨.served round.now now written running, server, outcome⟩ ?_ ?_ ?_
      · unfold writeMetrics
        split_ifs <;> rfl
      · unfold writeMetrics
        split_ifs <;> rfl
      · unfold writeMetrics
        split_ifs <;> simp

/-- **A run of the process is a run of the timing model**: the deadline is the one its
ticks lead to, the loop goes on until a round that ends it, and the file system calls are
those of the metrics writes of these rounds. -/
theorem Reachable.rounds (run : Reachable cfg life clock d) : d.Rounds cfg clock := by
  induction run with
  | refl => exact ⟨rfl, by simp [start], by simp [start], [], rfl, rfl⟩
  | tail _ step ih =>
      cases step with
      | main input answered => exact (command_cases answered).rounds ih
      | pool => exact ⟨ih.next, ih.going, ih.last, ih.calls⟩

/-! ### Members -/

theorem cleaned_endRound (tick : Tick) (s : Life) : (d.endRound cfg tick).main.cleaned s = s := by
  unfold endRound
  cases tick.continues <;> rfl

theorem Command.members_eq (h : Command cfg d d')
    (members : d.life = d.main.cleaned (d.reloads.foldl (Life.reloadDatabases cfg) life)) :
    d'.life = d'.main.cleaned (d'.reloads.foldl (Life.reloadDatabases cfg) life) := by
  cases h with
  | goOn here there =>
      rw [RunPc.cleaned_of_isLooping here] at members
      exact members.trans (RunPc.cleaned_of_isLooping there _).symm
  | accept here | submit here | stop here =>
      rw [here] at members
      exact members
  | reload opened here =>
      rw [here] at members
      dsimp only
      rw [members, List.foldl_append]
      rfl
  | interrupted now here | failed now here =>
      rw [here] at members
      rw [endRound_life, endRound_reloads, cleaned_endRound, members]
      rfl
  | served now written server outcome here =>
      rw [here] at members
      rw [endRound_life, endRound_reloads, writeMetrics_life, writeMetrics_reloads,
        cleaned_endRound, members]
      rfl
  | join here finished =>
      rw [here] at members
      dsimp only
      rw [members]
      rfl
  | close here =>
      rw [here] at members
      dsimp only
      rw [members]
      rfl

/-- The members of the server at every moment of a run. -/
theorem Reachable.life_eq (run : Reachable cfg life clock d) :
    d.life = d.main.cleaned (d.reloads.foldl (Life.reloadDatabases cfg) life) := by
  induction run with
  | refl => rfl
  | tail _ step ih =>
      cases step with
      | main input answered => exact (command_cases answered).members_eq ih
      | pool => exact ih

theorem serving_of_init {calls : Calls} (up : exec (Server.init cfg calls) {} = (.ok (), life))
    (reloads : List (Db → Option Mmdb)) : Serving (reloads.foldl (Life.reloadDatabases cfg) life) := by
  have started := init_serving cfg calls {} rfl
  rw [up] at started
  exact Serving.reloads started cfg reloads

/-- **The whole loop holds what the coarse lifecycle holds**, whatever the workers do
beside it. At every moment the members are those that `init`, the reloads so far and the
part of `cleanup` behind the main thread lead to, and each descriptor, database handle and
the pool acquired and not given back is named by them; until every worker is joined no
listener is closed; and when `run` has returned and the server is destroyed, everything has
been given back exactly once. -/
theorem run_resources {calls : Calls} (up : exec (Server.init cfg calls) {} = (.ok (), life))
    (run : Reachable cfg life clock d) :
    d.life = d.main.cleaned (d.reloads.foldl (Life.reloadDatabases cfg) life) ∧
      Life.Sound [] d.life ∧
      (d.main.isJoined = false → ∀ kind n, FdKind.isListener kind = true →
        .release (.fd kind n) ∉ d.life.log) ∧
      (d.main = .returned →
        d.life.destroy = lifecycle cfg calls d.reloads ∧
          (∀ r, .acquire r ∈ d.life.destroy.log → d.life.destroy.log.count (.release r) = 1) ∧
          d.life.destroy.held = [] ∧ d.life.destroy.socketCreated = false) := by
  have members := run.life_eq
  have serving := serving_of_init up d.reloads
  refine ⟨members, ?_, ?_, ?_⟩
  · rw [members]
    exact RunPc.cleaned_sound d.main serving.sound
  · intro working kind n listener
    rw [members, RunPc.cleaned_of_not_isJoined working]
    exact serving.quiet kind n listener
  · intro returned
    rw [returned] at members
    have same : d.life.destroy = lifecycle cfg calls d.reloads := by
      rw [members, lifecycle, up]
      rfl
    obtain ⟨sound, nothing, gone, -⟩ := lifecycle_end cfg calls d.reloads
    have owned := sound.owned
    rw [nothing] at owned
    rw [same]
    exact ⟨rfl, fun r => owned.released_once, nothing, gone⟩

/-- A daemon that came up on a free path, reloads its database and ends when `poll` fails. -/
theorem run_resources_smooth :
    ∃ life d, exec (Server.init World.plainConfig World.smoothCalls) {} = (.ok (), life) ∧
      Reachable World.plainConfig life 0 d ∧ d.main = .returned ∧ d.reloads.length = 1 ∧
        d.life.destroy = lifecycle World.plainConfig World.smoothCalls d.reloads ∧
        d.life.destroy.held = [] := by
  let life := (exec (Server.init World.plainConfig World.smoothCalls) {}).2
  have up : exec (Server.init World.plainConfig World.smoothCalls) {} = (.ok (), life) := rfl
  obtain ⟨d, ran⟩ : ∃ d, [.polled 0 (.returned (fun _ => false) true), .step, .read (some .hup),
      .mmdbOpen fun _ => some .zeroed, .checked 0 0 idleServer fullDisk, .polled 0 .failed,
      .step].foldlM (command World.plainConfig) (start World.plainConfig life 0) = some d := ⟨_, rfl⟩
  have main : d.main = .joining ∧ d.reloads.length = 1 := by
    obtain rfl := Option.some.inj ran
    exact ⟨rfl, rfl⟩
  have run : Reachable World.plainConfig life 0 d := run_of_commands ran
  obtain ⟨pool, closing⟩ := run.exists_closing (by decide) main.1
  have returned := closing.tail (.main .step rfl)
  obtain ⟨-, -, -, closed⟩ := run_resources up returned
  obtain ⟨same, -, nothing, -⟩ := closed rfl
  exact ⟨life, _, up, returned, rfl, main.2, same, nothing⟩

end Process

/-! ### The cadence of the metrics -/

/-- The reading a deadline is checked against. -/
def Tick.checked : Tick → Int
  | served _ checked _ _ => checked
  | tick => tick.now

/-- The interval in the unit of the clock. -/
def Config.intervalNs (cfg : Config) : Int := cfg.metricsIntervalSeconds * 1000000000

/-- The readings of one round do not go back. -/
def Tick.forward (tick : Tick) : Prop := tick.readings.Pairwise (· ≤ ·)

/-- The reading behind a write. -/
def Tick.written : Tick → Int
  | served _ _ written _ => written
  | tick => tick.now

theorem Tick.forward.checked_le_written {tick : Tick} (h : tick.forward) :
    tick.checked ≤ tick.written := by
  cases tick with
  | served now checked written running =>
      simp only [Tick.forward, Tick.readings, List.pairwise_cons, List.mem_cons] at h
      exact h.2.1 written (.inl rfl)
  | interrupted | failed => exact le_rfl

theorem nextMetricsWrite_eq (cfg : Config) (next : Int) (tick : Tick) :
    nextMetricsWrite cfg next tick =
      if metricsDue cfg next tick then tick.written + cfg.intervalNs else next := by
  cases tick with
  | served now checked written running =>
      simp [nextMetricsWrite, metricsDue, Tick.written, Config.intervalNs]
  | interrupted | failed => rfl

theorem checked_of_metricsDue {cfg : Config} {next : Int} {tick : Tick}
    (due : metricsDue cfg next tick = true) : next ≤ tick.checked := by
  cases tick with
  | served now checked written running => exact (of_decide_eq_true due).2
  | interrupted | failed => cases due

/-- The writes of some rounds against the deadline behind them. -/
structure Paced (cfg : Config) (start : Int) (its : List Iteration) : Prop where
  spaced : (metricsWrites cfg start its).Pairwise fun w later =>
    w.tick.written + cfg.intervalNs ≤ later.tick.checked
  passed : ∀ w ∈ metricsWrites cfg start its,
    w.tick.written + cfg.intervalNs ≤ deadline cfg start (its.map (·.tick))
  /-- The deadline is the first one, or an interval behind a write. -/
  attained : metricsWrites cfg start its = [] ∧ deadline cfg start (its.map (·.tick)) = start ∨
    ∃ w ∈ metricsWrites cfg start its,
      deadline cfg start (its.map (·.tick)) = w.tick.written + cfg.intervalNs

theorem Paced.concat {cfg : Config} {start : Int} {its : List Iteration} (h : Paced cfg start its)
    (interval : 0 ≤ cfg.intervalNs) (going : ∀ tick ∈ its.map (·.tick), tick.continues = true)
    {it : Iteration} (forward : it.tick.forward) : Paced cfg start (its ++ [it]) := by
  obtain ⟨spaced, passed, attained⟩ := h
  have writes : metricsWrites cfg start (its ++ [it]) = _ := metricsWrites_concat it going
  have moved : deadline cfg start ((its ++ [it]).map (·.tick)) =
      nextMetricsWrite cfg (deadline cfg start (its.map (·.tick))) it.tick := by
    rw [List.map_append, deadline, List.foldl_append]
    rfl
  rw [nextMetricsWrite_eq] at moved
  cases due : metricsDue cfg (deadline cfg start (its.map (·.tick))) it.tick with
  | false =>
      rw [due, if_neg Bool.false_ne_true] at writes moved
      rw [List.append_nil] at writes
      exact ⟨by rwa [writes], by rwa [writes, moved], by rwa [writes, moved]⟩
  | true =>
      rw [due, if_pos rfl] at writes moved
      have reached := checked_of_metricsDue due
      have order := forward.checked_le_written
      refine ⟨?_, ?_, .inr ⟨it, ?_, moved⟩⟩
      · rw [writes, List.pairwise_append]
        refine ⟨spaced, List.pairwise_singleton _ _, fun w mem later here => ?_⟩
        rw [List.mem_singleton.mp here]
        exact (passed w mem).trans reached
      · intro w mem
        rw [writes] at mem
        rw [moved]
        rcases List.mem_append.mp mem with before | here
        · have bound := passed w before
          omega
        · rw [List.mem_singleton.mp here]
      · rw [writes]
        exact List.mem_append_right _ List.mem_cons_self

theorem paced {cfg : Config} (start : Int) {its : List Iteration} (interval : 0 ≤ cfg.intervalNs)
    (going : ∀ tick ∈ (its.map (·.tick)).dropLast, tick.continues = true)
    (forward : ∀ it ∈ its, it.tick.forward) : Paced cfg start its := by
  induction its using List.reverseRecOn with
  | nil => exact ⟨List.Pairwise.nil, by simp [metricsWrites], .inl ⟨rfl, rfl⟩⟩
  | append_singleton its it ih =>
      rw [List.map_append, List.map_singleton, List.dropLast_concat] at going
      have before := ih (fun tick mem => going tick (List.mem_of_mem_dropLast mem))
        fun it mem => forward it (List.mem_append_left _ mem)
      exact before.concat interval going (forward it (List.mem_append_right _ List.mem_cons_self))

/-- A deadline has come when every write so far is an interval ago. -/
theorem Paced.deadline_le_iff {cfg : Config} {start : Int} {its : List Iteration}
    (h : Paced cfg start its) {now : Int} (later : start ≤ now) :
    deadline cfg start (its.map (·.tick)) ≤ now ↔
      ∀ w ∈ metricsWrites cfg start its, w.tick.written + cfg.intervalNs ≤ now := by
  constructor
  · intro reached w mem
    exact (h.passed w mem).trans reached
  · intro ago
    rcases h.attained with ⟨-, first⟩ | ⟨w, mem, behind⟩
    · rwa [first]
    · rw [behind]
      exact ago w mem

/-- `poll` is never asked to wait past the deadline. -/
theorem remainingMs_le (next now : Int) : now + remainingMs next now * 1000000 ≤ max now next := by
  unfold remainingMs
  dsimp only
  split_ifs with left
  · have ahead : 0 ≤ next - now := by
      by_contra past
      have flipped : 0 ≤ (-(next - now)).tdiv 1000000 := Int.tdiv_nonneg (by omega) (by decide)
      rw [Int.neg_tdiv] at flipped
      omega
    rw [Int.tdiv_eq_ediv_of_nonneg ahead]
    omega
  · omega

namespace Process

variable {cfg : Config} {d : Process} {life : Life} {clock : Int}

theorem forward_of_monotonic {ticks : List Tick} (forward : MonotonicClock clock ticks) :
    ∀ tick ∈ ticks, tick.forward ∧ clock ≤ tick.checked := by
  obtain ⟨later, pairs⟩ := List.pairwise_cons.mp forward
  intro tick mem
  have inside : ∀ r ∈ tick.readings, r ∈ ticks.flatMap Tick.readings :=
    fun r here => List.mem_flatMap.mpr ⟨tick, mem, here⟩
  refine ⟨(List.pairwise_flatMap.mp pairs).1 tick mem, later _ (inside _ ?_)⟩
  cases tick <;> simp [Tick.checked, Tick.now, Tick.readings]

/-- **The cadence of the metrics file.** With a clock that never goes back, each write is
checked for no earlier than an interval after every write before it; a round that gets past
`poll` writes if and only if an interval has passed since every write so far; and `poll` is
never asked to sleep past the deadline. -/
theorem metrics_cadence {detected : UInt32} {path : Bytes} {explicitPath : Bool} {file : ConfigFile}
    {env : Environment} {regularFileExists : Bytes → Bool}
    (started : startupConfig detected path explicitPath file env regularFileExists = .ok cfg)
    (run : Reachable cfg life clock d) (forward : MonotonicClock clock d.ticks) :
    ∃ its : List Iteration, its.map (·.tick) = d.ticks ∧ d.calls = metricsCalls cfg clock its ∧
      ((metricsWrites cfg clock its).Pairwise fun w later =>
        w.tick.written + cfg.intervalNs ≤ later.tick.checked) ∧
      (cfg.metricsFile ≠ [] → ∀ (before : List Iteration) (it : Iteration) (after : List Iteration),
        its = before ++ it :: after → ∀ now checked written running,
          it.tick = .served now checked written running →
            metricsWrites cfg clock (before ++ [it]) = metricsWrites cfg clock before ++
              (if ∀ w ∈ metricsWrites cfg clock before, w.tick.written + cfg.intervalNs ≤ checked
                then [it] else []) ∧
            metricsWrites cfg clock (before ++ [it]) <+: metricsWrites cfg clock its) ∧
      ∀ top ∈ runLoop cfg clock d.ticks, cfg.metricsFile ≠ [] →
        top.2 + pollTimeoutMs cfg top.1 top.2 * 1000000 ≤ max top.2 top.1 := by
  have rounds := run.rounds
  obtain ⟨its, made, calls⟩ := rounds.calls
  have seconds := (startupConfig_inRange started).metricsIntervalSeconds
  have interval : 0 ≤ cfg.intervalNs := by
    unfold Config.intervalNs
    omega
  have each : ∀ it ∈ its, it.tick.forward ∧ clock ≤ it.tick.checked := fun it mem =>
    forward_of_monotonic forward it.tick (made ▸ List.mem_map.mpr ⟨it, mem, rfl⟩)
  have going := made ▸ rounds.going
  refine ⟨its, made, calls, ?_, ?_, ?_⟩
  · exact (paced clock interval going fun it mem => (each it mem).1).spaced
  · rintro enabled before it after rfl now checked written running tick
    rw [List.map_append, List.map_cons, List.dropLast_append_of_ne_nil (List.cons_ne_nil _ _)]
      at going
    have goesOn : ∀ t ∈ before.map (·.tick), t.continues = true :=
      fun t mem => going t (List.mem_append_left _ mem)
    have early : Paced cfg clock before := by
      refine paced clock interval (fun t mem => goesOn t (List.mem_of_mem_dropLast mem)) ?_
      exact fun it mem => (each it (List.mem_append_left _ mem)).1
    have later : clock ≤ checked := by
      have here := (each it (List.mem_append_right _ List.mem_cons_self)).2
      rwa [tick] at here
    have due : metricsDue cfg (deadline cfg clock (before.map (·.tick))) it.tick =
        decide (∀ w ∈ metricsWrites cfg clock before, w.tick.written + cfg.intervalNs ≤ checked) := by
      rw [tick, metricsDue, decide_eq_decide, early.deadline_le_iff later, and_iff_right enabled]
    have writes : metricsWrites cfg clock (before ++ [it]) = _ := metricsWrites_concat it goesOn
    rw [due] at writes
    simp only [decide_eq_true_eq] at writes
    refine ⟨writes, ?_⟩
    rw [List.append_cons before it after]
    exact metricsWrites_grows after
  · intro top mem enabled
    have near : top.1 - top.2 ≤ 86400 * 1000000000 :=
      iterations_near (by omega) (by omega) forward top mem
    obtain ⟨low, high⟩ := remainingMs_bounds near
    rw [pollTimeoutMs, if_neg enabled, toInt_eq_self low (by omega)]
    exact remainingMs_le top.1 top.2

/-- A file that is written once a day. -/
def dailyConfig : Config :=
  { Config.default 4 with metricsFile := ascii "/run/m", metricsIntervalSeconds := 86400 }

/-- A round without clients and signals. -/
def quietRound (now checked written : Int) : List MainInput :=
  [.polled now (.returned (fun _ => false) false), .step, .step,
    .checked checked written idleServer fullDisk]

/-- Three rounds: one at the start, one an hour later, one a day later. -/
def dailyTicks : List Tick :=
  [.served 7 9 11 true, .served 12 3600000000000 3600000000000 true,
    .served 3600000000001 86400000000011 86400000000020 true]

/-- The second of them is too early, the other two write. -/
theorem metrics_cadence_daily :
    ∃ d its, Reachable dailyConfig {} 5 d ∧ d.ticks = dailyTicks ∧ its.map (·.tick) = dailyTicks ∧
      d.calls = metricsCalls dailyConfig 5 its ∧
      (metricsWrites dailyConfig 5 its).map (·.tick) =
        [.served 7 9 11 true, .served 3600000000001 86400000000011 86400000000020 true] := by
  have started : startupConfig 4 (ascii "/etc/nshgeoip/nshgeoip.conf") false
      (.text (ascii "metrics_file = /run/m\nmetrics_interval_seconds = 86400\n")) (fun _ => none)
      (fun _ => false) = .ok dailyConfig := by
    decide +kernel
  obtain ⟨d, ran⟩ : ∃ d, (quietRound 7 9 11 ++ quietRound 12 3600000000000 3600000000000 ++
      quietRound 3600000000001 86400000000011 86400000000020).foldlM (command dailyConfig)
        (start dailyConfig {} 5) = some d := ⟨_, rfl⟩
  have ticks : d.ticks = dailyTicks := by
    obtain rfl := Option.some.inj ran
    rfl
  have run : Reachable dailyConfig {} 5 d := run_of_commands ran
  have forward : MonotonicClock 5 d.ticks := by
    rw [ticks]
    unfold MonotonicClock
    decide
  obtain ⟨its, made, calls, -, due, -⟩ := metrics_cadence started run forward
  rw [ticks] at made
  obtain ⟨first, its, rfl, morning, rest⟩ := List.map_eq_cons_iff.mp made
  obtain ⟨second, its, rfl, hour, rest⟩ := List.map_eq_cons_iff.mp rest
  obtain ⟨third, its, rfl, day, rest⟩ := List.map_eq_cons_iff.mp rest
  obtain rfl := List.map_eq_nil_iff.mp rest
  have enabled : dailyConfig.metricsFile ≠ [] := by decide
  have interval : dailyConfig.intervalNs = 86400000000000 := rfl
  have one := (due enabled [] first [second, third] rfl _ _ _ _ morning).1
  have two := (due enabled [first] second [third] rfl _ _ _ _ hour).1
  have three := (due enabled [first, second] third [] rfl _ _ _ _ day).1
  have none' : metricsWrites dailyConfig 5 [] = [] := rfl
  simp only [List.nil_append, none', List.not_mem_nil, false_imp_iff, implies_true, if_true] at one
  simp only [List.cons_append, List.nil_append, one, List.mem_singleton, forall_eq, morning,
    Tick.written, interval] at two
  rw [if_neg (by decide)] at two
  simp only [List.cons_append, List.nil_append, two, List.mem_singleton, forall_eq,
    morning, Tick.written, interval] at three
  rw [if_pos (by decide)] at three
  refine ⟨d, _, run, ticks, made, calls, ?_⟩
  rw [three, List.map_cons, List.map_singleton, morning, day]

end Process

end Nshgeoip
