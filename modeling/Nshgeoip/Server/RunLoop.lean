import Nshgeoip.Config

/-!
The timing of `Server::run`: the poll timeout and the deadline it comes from.

A `Tick` is one iteration of the loop, with what the steady clock showed each
time it was read. The deadline starts at the clock and is moved one interval
past the clock after each write, so with a clock that never goes back it is
never more than an interval ahead of it, and the time left until it fits the
`int` that `poll` takes.
-/

namespace Nshgeoip

/-- One iteration, with the clock readings it makes (in nanoseconds). -/
inductive Tick where
  /-- `poll` was interrupted. -/
  | interrupted (now : Int)
  /-- `poll` failed, which ends the loop. -/
  | failed (now : Int)
  /-- `poll` returned; the clock is read for the check of the deadline and again
  after a write. A stop signal clears `running`. -/
  | served (now checked written : Int) (running : Bool)

namespace Tick

/-- The reading the poll timeout is computed from. -/
def now : Tick → Int
  | interrupted now => now
  | failed now => now
  | served now _ _ _ => now

def readings : Tick → List Int
  | interrupted now => [now]
  | failed now => [now]
  | served now checked written _ => [now, checked, written]

/-- Whether another iteration follows. -/
def continues : Tick → Bool
  | interrupted _ => true
  | failed _ => false
  | served _ _ _ running => running

end Tick

/-- The milliseconds left until the deadline, cut off at zero; `duration_cast`
rounds toward zero. -/
def remainingMs (next now : Int) : Int :=
  let ms := (next - now).tdiv 1000000
  if ms > 0 then ms else 0

def pollTimeoutMs (cfg : Config) (next now : Int) : Int :=
  if cfg.metricsFile = [] then -1 else toInt (remainingMs next now)

/-- `next_metrics_write` at the end of an iteration. -/
def nextMetricsWrite (cfg : Config) (next : Int) : Tick → Int
  | .served _ checked written _ =>
      if cfg.metricsFile ≠ [] ∧ next ≤ checked then
        written + cfg.metricsIntervalSeconds * 1000000000
      else next
  | _ => next

/-- The deadline and the clock at the top of each iteration. -/
def iterations (cfg : Config) (next : Int) : List Tick → List (Int × Int)
  | [] => []
  | tick :: ticks =>
      (next, tick.now) ::
        if tick.continues then iterations cfg (nextMetricsWrite cfg next tick) ticks else []

/-- The loop from the first reading of the clock on. -/
def runLoop (cfg : Config) (start : Int) (ticks : List Tick) : List (Int × Int) :=
  iterations cfg start ticks

/-- The clock never goes back. -/
def MonotonicClock (start : Int) (ticks : List Tick) : Prop :=
  (start :: ticks.flatMap Tick.readings).Pairwise (· ≤ ·)

/-! ### The deadline stays near -/

theorem Tick.now_mem_readings (tick : Tick) : tick.now ∈ tick.readings := by
  cases tick <;> exact List.mem_cons_self

/-- What one iteration keeps: seen from the last reading it made, the deadline
is at most an interval away. -/
theorem nextMetricsWrite_near {cfg : Config} {next clock bound : Int} {tick : Tick}
    (interval : cfg.metricsIntervalSeconds * 1000000000 ≤ bound) (near : next ≤ clock + bound)
    (forward : (clock :: tick.readings).Pairwise (· ≤ ·)) :
    ∃ last ∈ clock :: tick.readings, (∀ r ∈ clock :: tick.readings, r ≤ last) ∧
      nextMetricsWrite cfg next tick ≤ last + bound := by
  cases tick with
  | interrupted now =>
      have later : clock ≤ now := by simpa [Tick.readings] using forward
      refine ⟨now, by simp [Tick.readings], by simp [Tick.readings, later], ?_⟩
      exact near.trans (by omega)
  | failed now =>
      have later : clock ≤ now := by simpa [Tick.readings] using forward
      refine ⟨now, by simp [Tick.readings], by simp [Tick.readings, later], ?_⟩
      exact near.trans (by omega)
  | served now checked written running =>
      have order : (clock ≤ now ∧ clock ≤ checked ∧ clock ≤ written) ∧
          (now ≤ checked ∧ now ≤ written) ∧ checked ≤ written := by
        simpa [Tick.readings] using forward
      refine ⟨written, by simp [Tick.readings], by simp [Tick.readings, order], ?_⟩
      dsimp only [nextMetricsWrite]
      split_ifs with due
      · omega
      · omega

theorem iterations_near {cfg : Config} {bound : Int}
    (interval : cfg.metricsIntervalSeconds * 1000000000 ≤ bound) {ticks : List Tick}
    {next clock : Int} (near : next ≤ clock + bound)
    (forward : (clock :: ticks.flatMap Tick.readings).Pairwise (· ≤ ·)) :
    ∀ top ∈ iterations cfg next ticks, top.1 - top.2 ≤ bound := by
  induction ticks generalizing next clock with
  | nil => simp [iterations]
  | cons tick ticks ih =>
      rw [List.flatMap_cons, ← List.cons_append, List.pairwise_append] at forward
      obtain ⟨here, rest, across⟩ := forward
      have now : clock ≤ tick.now := List.rel_of_pairwise_cons here tick.now_mem_readings
      refine List.forall_mem_cons.mpr ⟨?_, ?_⟩
      · show next - tick.now ≤ bound
        omega
      · split_ifs
        · obtain ⟨last, mem, -, near'⟩ := nextMetricsWrite_near interval near here
          refine ih near' (List.pairwise_cons.mpr ⟨?_, rest⟩)
          intro r later
          exact across last mem r later
        · simp

/-- The time left until a deadline at most a day away fits an `int`. -/
theorem remainingMs_bounds {next now : Int} (near : next - now ≤ 86400 * 1000000000) :
    0 ≤ remainingMs next now ∧ remainingMs next now ≤ 86400000 := by
  unfold remainingMs
  dsimp only
  split_ifs with left
  · refine ⟨Int.le_of_lt left, ?_⟩
    have ahead : 0 ≤ next - now := by
      by_contra past
      have flipped : 0 ≤ (-(next - now)).tdiv 1000000 := Int.tdiv_nonneg (by omega) (by decide)
      rw [Int.neg_tdiv] at flipped
      omega
    rw [Int.tdiv_eq_ediv_of_nonneg ahead]
    omega
  · exact ⟨Int.le_refl 0, by decide⟩

end Nshgeoip
