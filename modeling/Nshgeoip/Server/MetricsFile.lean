import Nshgeoip.Lib.CText
import Nshgeoip.Lib.Files
import Nshgeoip.Metrics.Ending
import Nshgeoip.Server
import Nshgeoip.Server.RunLoop

/-!
`write_metrics_file`, as the main loop calls it.

The text goes through a stream into a temporary file, which is then renamed. The stream
may keep the text back and find out only when it is closed that it cannot be written;
it is closed where its block ends, behind the last look at its state, and the rename
follows whatever became of the close. `wholeThroughout_iff` says which failures reach
the file that way.
-/

namespace Nshgeoip

open ByteText Filing Machine

/-- What the file is for, and what `/metrics` serves. -/
def Server.metricsText (srv : Server) : Bytes :=
  renderPrometheusMetrics srv.metrics srv.collectDbInfos nshgeoipVersion srv.host.mmdbLibVersion
    srv.uptimeSeconds

/-! ### One write -/

/-- What the stream and the file system make of one write. -/
structure WriteOutcome where
  opens : Bool
  /-- The sizes of the pieces written while `out << text` runs. -/
  inserted : List Nat
  /-- `!out` behind the insertion. -/
  insertFails : Bool
  /-- The sizes of the pieces written while the stream is closed. -/
  flushed : List Nat
  /-- The stream is closed without the rest. -/
  flushFails : Bool
  renames : Bool

/-- A text cut into pieces of the given sizes, and what is left of it. -/
def pieces : List Nat → Bytes → List Bytes × Bytes
  | [], text => ([], text)
  | size :: sizes, text =>
      let later := pieces sizes (text.drop size)
      (text.take size :: later.1, later.2)

/-- `tmp_path`. -/
def tmpPath (path : Bytes) : Bytes := path ++ ascii ".tmp"

/-- The calls of `write_metrics_file` that succeed, in order. The destructor of the
stream writes what it can in either branch; only the flush of a whole text is sure to
have written everything. -/
def writeMetricsFile (path text : Bytes) (o : WriteOutcome) : List (Call Bytes UInt8) :=
  let tmp := cString (tmpPath path)
  let inserted := pieces o.inserted text
  let flushed := pieces o.flushed inserted.2
  if o.opens = false then []
  else if o.insertFails then
    .truncate tmp :: (inserted.1.map (.append tmp) ++ flushed.1.map (.append tmp))
  else
    .truncate tmp :: (inserted.1.map (.append tmp) ++ flushed.1.map (.append tmp)
      ++ (if o.flushFails then [] else [.append tmp flushed.2])
      ++ (if o.renames then [.rename tmp (cString path)] else []))

/-! ### The main loop -/

/-- One iteration: its clock readings, the state a write would render, and how the write
would go. -/
structure Iteration where
  tick : Tick
  server : Server
  outcome : WriteOutcome

/-- The check of the deadline, at the end of an iteration. -/
def metricsDue (cfg : Config) (next : Int) : Tick → Bool
  | .served _ checked _ _ => decide (cfg.metricsFile ≠ [] ∧ next ≤ checked)
  | _ => false

/-- The iterations that write the file. -/
def metricsWrites (cfg : Config) (next : Int) : List Iteration → List Iteration
  | [] => []
  | it :: rest =>
      (if metricsDue cfg next it.tick then [it] else []) ++
        if it.tick.continues then metricsWrites cfg (nextMetricsWrite cfg next it.tick) rest else []

/-- What the loop does to the file system, call by call. -/
def metricsCalls (cfg : Config) (start : Int) (its : List Iteration) : List (Call Bytes UInt8) :=
  (metricsWrites cfg start its).flatMap fun it =>
    writeMetricsFile cfg.metricsFile it.server.metricsText it.outcome

/-! ### What is promised -/

/-- What there was before, or a complete text. -/
def Whole (before now : Option Bytes) : Prop := now = before ∨ ∃ text, now = some text ∧ IsRendered text

/-- **The file is never partial**: after every call of the run it is what it was before
the daemon started, or a complete text. -/
def WholeThroughout (cfg : Config) (start : Int) (its : List Iteration) (fs : Files Bytes UInt8) :
    Prop :=
  ∀ done, done <+: metricsCalls cfg start its →
    Whole (fs.read (cString cfg.metricsFile)) ((run apply fs done).read (cString cfg.metricsFile))

/-- The rename is reached, and works. -/
def WriteOutcome.publishes (o : WriteOutcome) : Bool := o.opens && !o.insertFails && o.renames

/-- What has reached the temporary file when the stream is closed. -/
def WriteOutcome.delivered (o : WriteOutcome) (text : Bytes) : Bytes :=
  if o.flushFails then text.take (o.inserted.sum + o.flushed.sum) else text

/-- A write that is torn on the way: closing the stream loses the end of the text, the
rename works, and the file does not happen to have held just what arrived. -/
def Iteration.Tears (before : Option Bytes) (it : Iteration) : Prop :=
  it.outcome.publishes = true ∧ it.outcome.flushFails = true ∧
    it.outcome.inserted.sum + it.outcome.flushed.sum < it.server.metricsText.length ∧
    before ≠ some (it.server.metricsText.take (it.outcome.inserted.sum + it.outcome.flushed.sum))

/-! ### A write as a replacement -/

theorem pieces_eq (sizes : List Nat) (text : Bytes) :
    (pieces sizes text).1.flatten = text.take sizes.sum ∧ (pieces sizes text).2 = text.drop sizes.sum := by
  induction sizes generalizing text with
  | nil => simp [pieces]
  | cons size sizes ih =>
      obtain ⟨front, back⟩ := ih (text.drop size)
      constructor
      · rw [pieces, List.flatten_cons, front, List.sum_cons, List.take_add]
      · rw [pieces, back, List.drop_drop, List.sum_cons]

/-- The pieces that reach the temporary file. -/
def WriteOutcome.written (o : WriteOutcome) (text : Bytes) : List Bytes :=
  let inserted := pieces o.inserted text
  let flushed := pieces o.flushed inserted.2
  inserted.1 ++ flushed.1 ++ if o.insertFails || o.flushFails then [] else [flushed.2]

/-- One write, if it gets as far as the file. -/
def WriteOutcome.replacements (o : WriteOutcome) (text : Bytes) : List (Replacement UInt8) :=
  if o.opens then [⟨o.written text, o.publishes⟩] else []

theorem writeMetricsFile_eq (path text : Bytes) (o : WriteOutcome) :
    writeMetricsFile path text o =
      (o.replacements text).flatMap (·.calls (cString (tmpPath path)) (cString path)) := by
  obtain ⟨opens, inserted, insertFails, flushed, flushFails, renames⟩ := o
  cases opens with
  | false => rfl
  | true =>
      cases insertFails with
      | true => simp [writeMetricsFile, WriteOutcome.replacements, WriteOutcome.written,
          WriteOutcome.publishes, Replacement.calls]
      | false =>
          cases flushFails with
          | true => simp [writeMetricsFile, WriteOutcome.replacements, WriteOutcome.written,
              WriteOutcome.publishes, Replacement.calls]
          | false => simp [writeMetricsFile, WriteOutcome.replacements, WriteOutcome.written,
              WriteOutcome.publishes, Replacement.calls]

/-- What a write without a failed insertion has put into its file. -/
theorem flatten_written {o : WriteOutcome} (inserts : o.insertFails = false) (text : Bytes) :
    (o.written text).flatten = o.delivered text := by
  obtain ⟨front, back⟩ := pieces_eq o.inserted text
  obtain ⟨front', back'⟩ := pieces_eq o.flushed (text.drop o.inserted.sum)
  unfold WriteOutcome.written WriteOutcome.delivered
  dsimp only
  rw [back, inserts, Bool.false_or, List.flatten_append, List.flatten_append, front, front',
    ← List.take_add]
  cases o.flushFails with
  | true => simp
  | false => simp [back', List.drop_drop]

theorem publishes_iff {o : WriteOutcome} : o.publishes = true ↔
    o.opens = true ∧ o.insertFails = false ∧ o.renames = true := by
  rw [WriteOutcome.publishes, Bool.and_eq_true, Bool.and_eq_true, Bool.not_eq_true', and_assoc]

/-- The published replacement of a write, and what it shows. -/
theorem forall_replacements_iff {o : WriteOutcome} {text : Bytes} {P : Option Bytes → Prop} :
    (∀ r ∈ o.replacements text, r.publishes = true → P (some r.pieces.flatten)) ↔
      (o.publishes = true → P (some (o.delivered text))) := by
  unfold WriteOutcome.replacements
  cases opens : o.opens with
  | false =>
      have silent : o.publishes ≠ true := by
        rw [Ne, publishes_iff, opens]
        exact fun h => Bool.false_ne_true h.1
      simp [silent]
  | true =>
      simp only [if_true, List.mem_singleton, forall_eq]
      refine forall_congr' fun published => ?_
      rw [flatten_written (publishes_iff.mp published).2.1]

/-! ### The run -/

section Run

variable {cfg : Config} {start : Int} {its : List Iteration} {fs : Files Bytes UInt8}

/-- A path without NUL bytes names its own temporary file. -/
theorem apart_tmpPath (nulFree : 0 ∉ cfg.metricsFile)
    (unlinked : ∀ file, fs.entry (tmpPath cfg.metricsFile) = some file →
      fs.entry cfg.metricsFile ≠ some file) :
    Apart fs (cString (tmpPath cfg.metricsFile)) (cString cfg.metricsFile) := by
  have whole : 0 ∉ tmpPath cfg.metricsFile := by
    rw [tmpPath, List.mem_append]
    exact not_or.mpr ⟨nulFree, by decide⟩
  rw [cString_eq_self nulFree, cString_eq_self whole]
  refine ⟨fun same => ?_, unlinked⟩
  have length := congrArg List.length same
  simp [tmpPath, ascii] at length

/-- What readers of the file come across is what the published writes delivered. -/
theorem wholeThroughout_iff_delivered
    (apart : Apart fs (cString (tmpPath cfg.metricsFile)) (cString cfg.metricsFile)) :
    WholeThroughout cfg start its fs ↔
      ∀ it ∈ metricsWrites cfg start its, it.outcome.publishes = true →
        Whole (fs.read (cString cfg.metricsFile))
          (some (it.outcome.delivered it.server.metricsText)) := by
  have calls : metricsCalls cfg start its =
      ((metricsWrites cfg start its).flatMap fun it =>
        it.outcome.replacements it.server.metricsText).flatMap
          (·.calls (cString (tmpPath cfg.metricsFile)) (cString cfg.metricsFile)) := by
    simp only [metricsCalls, writeMetricsFile_eq, List.flatMap_assoc]
  have moments : WholeThroughout cfg start its fs ↔
      Throughout apply (fun now => Whole (fs.read (cString cfg.metricsFile))
        (now.read (cString cfg.metricsFile))) fs (metricsCalls cfg start its) := by
    rw [throughout_iff]
    rfl
  rw [moments, calls, throughout_replacements_iff _ apart]
  simp only [List.mem_flatMap, forall_exists_index, and_imp]
  constructor
  · rintro ⟨-, each⟩ it mem
    exact forall_replacements_iff.mp fun r inside => each r it mem inside
  · intro each
    refine ⟨.inl rfl, fun r it mem inside => ?_⟩
    exact forall_replacements_iff.mpr (each it mem) r inside

/-- A beginning of a complete text passes for whole only when it is all of it, or what the
file held before. -/
theorem whole_take_iff {before : Option Bytes} {text : Bytes} (complete : IsRendered text) (n : Nat) :
    Whole before (some (text.take n)) ↔ text.length ≤ n ∨ before = some (text.take n) := by
  constructor
  · rintro (same | ⟨whole, eq, rendered⟩)
    · exact .inr same.symm
    · left
      rw [← Option.some.inj eq] at rendered
      exact List.take_eq_self_iff text |>.mp (rendered.eq_of_prefix complete (List.take_prefix n text))
  · rintro (long | same)
    · rw [List.take_of_length_le long]
      exact .inr ⟨text, rfl, complete⟩
    · exact .inl same.symm

theorem Server.isRendered_metricsText (srv : Server) : IsRendered srv.metricsText :=
  ⟨_, _, _, _, _, rfl⟩

theorem mem_of_mem_metricsWrites {it : Iteration} (mem : it ∈ metricsWrites cfg start its) :
    it ∈ its := by
  induction its generalizing start with
  | nil => exact mem
  | cons first rest ih =>
      rw [metricsWrites] at mem
      rcases List.mem_append.mp mem with here | later
      · split_ifs at here
        · exact List.mem_singleton.mp here ▸ List.mem_cons_self
        · exact (List.not_mem_nil here).elim
      · split_ifs at later
        · exact List.mem_cons_of_mem _ (ih later)
        · exact (List.not_mem_nil later).elim

end Run

/-- **When the metrics file is never partial**: in every run whose writes are not torn, the
path having a temporary file of its own. -/
theorem wholeThroughout_iff (cfg : Config) (start : Int) (its : List Iteration)
    (fs : Files Bytes UInt8) (nulFree : 0 ∉ cfg.metricsFile)
    (unlinked : ∀ file, fs.entry (tmpPath cfg.metricsFile) = some file →
      fs.entry cfg.metricsFile ≠ some file) :
    WholeThroughout cfg start its fs ↔
      ∀ it ∈ metricsWrites cfg start its, ¬ it.Tears (fs.read (cString cfg.metricsFile)) := by
  rw [wholeThroughout_iff_delivered (apart_tmpPath nulFree unlinked)]
  refine forall_congr' fun it => forall_congr' fun _ => ?_
  have complete := it.server.isRendered_metricsText
  unfold Iteration.Tears WriteOutcome.delivered
  cases it.outcome.flushFails with
  | false =>
      have whole : Whole (fs.read (cString cfg.metricsFile)) (some it.server.metricsText) :=
        .inr ⟨_, rfl, complete⟩
      simp [whole]
  | true =>
      simp only [if_true, whole_take_iff complete, true_and, not_and, not_not]
      refine forall_congr' fun _ => ?_
      rw [or_iff_not_imp_left, Nat.not_le]

/-- A disk that fills up while the stream is closed: six bytes are written, the rest is
lost, and the rename works. -/
def fullDisk : WriteOutcome := ⟨true, [], false, [6], true, true⟩

def noFiles : Files Bytes UInt8 := ⟨fun _ => none, fun _ => [], 0, by simp⟩

def metricsConfig : Config := { Config.default 4 with metricsFile := ascii "/run/m.prom" }

def idleServer : Server := ⟨8192, {}, {}, ⟨0, 0, ascii "1.9.1", fun _ => 0, fun _ => []⟩⟩

/-- An iteration of a running daemon that starts on the second. -/
def iteration (second : Int) (o : WriteOutcome) : Iteration :=
  ⟨.served (second * 1000000000) (second * 1000000000) (second * 1000000000) true, idleServer, o⟩

/-- The file ends up with the first six bytes of the text. -/
theorem fullDisk_counterexample :
    ¬ WholeThroughout metricsConfig 0 [iteration 0 fullDisk] noFiles := by
  intro whole
  have apart := @apart_tmpPath metricsConfig noFiles (by decide +kernel) (by simp [noFiles])
  have writes : metricsWrites metricsConfig 0 [iteration 0 fullDisk] = [iteration 0 fullDisk] := rfl
  have torn := (wholeThroughout_iff_delivered apart).mp whole (iteration 0 fullDisk)
    (writes ▸ List.mem_singleton.mpr rfl) rfl
  have complete := idleServer.isRendered_metricsText
  have mark : 6 < endMark.length := by decide +kernel
  have long := mark.trans complete.ends.length_lt
  rcases (whole_take_iff complete 6).mp torn with short | before
  · omega
  · cases before

/-- A write that fails in time, followed by one that works. -/
theorem wholeThroughout_fullThenFree :
    WholeThroughout metricsConfig 0
      [iteration 0 ⟨true, [6], true, [], true, true⟩,
        iteration 60 ⟨true, [4096], false, [4096], false, true⟩] noFiles := by
  refine (wholeThroughout_iff _ _ _ _ (by decide +kernel) (by simp [noFiles])).mpr ?_
  intro it mem
  rcases List.mem_cons.mp (mem_of_mem_metricsWrites mem) with rfl | other
  · rintro ⟨published, -⟩
    cases published
  · obtain rfl := List.mem_singleton.mp other
    rintro ⟨-, failed, -⟩
    cases failed

end Nshgeoip
