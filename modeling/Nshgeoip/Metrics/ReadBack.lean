import Nshgeoip.Metrics
import Nshgeoip.Lib.Prometheus

/-!
`/metrics` read back.

`exposition` is the document `render_prometheus_metrics` means to write: eight families
of samples, each with its help text, its kind, its labels and its numbers as values.
`parse_renderPrometheusMetrics` says that a reader of the text format gets exactly that
document, in that order and with no other line, whatever bytes the names and the
version strings hold.

A NaN is left out: the text format writes it without a sign and a stream writes the sign
it has. Neither number that could be one is: the uptime and the ages are quotients of
clock readings.
-/

namespace Nshgeoip

open ByteText PromText

/-- What stands in front of the samples of a metric. -/
structure MetricHeader where
  name : String
  help : String
  kind : MetricKind

/-- The samples of one metric. -/
structure MetricFamily extends MetricHeader where
  samples : List (List (Bytes × Bytes) × Number)

/-- Its lines: the help text and the kind come first. -/
def MetricFamily.lines (f : MetricFamily) : List Line :=
  .help (ascii f.name) (ascii f.help) :: .type (ascii f.name) f.kind ::
    f.samples.map fun s => .sample ⟨ascii f.name, s.1, s.2, none⟩

/-- The samples of the databases that have a value, in the order of the databases. -/
def dbValues (value : MetricsDbInfo → Option Number) (dbs : List MetricsDbInfo) :
    List (List (Bytes × Bytes) × Number) :=
  dbs.filterMap fun db => (value db).map fun v => ([(ascii "db", db.name)], v)

def counterValue (label value : String) (n : UInt64) : List (Bytes × Bytes) × Number :=
  ([(ascii label, ascii value)], .num n.toNat)

def exposition (m : Metrics) (dbs : List MetricsDbInfo) (version mmdbLibVersion : Bytes)
    (uptimeSeconds : Binary64) : List MetricFamily :=
  [{ name := "nshgeoip_build_info"
     help := "nshgeoip build information."
     kind := .gauge
     samples :=
      [([(ascii "version", version), (ascii "libmaxminddb_version", mmdbLibVersion)], .num 1)] },
    { name := "nshgeoip_uptime_seconds"
      help := "Seconds since the daemon started."
      kind := .gauge
      samples := [([], shown 0 uptimeSeconds)] },
    { name := "nshgeoip_db_open"
      help := "Whether a database is currently open (1) or not (0)."
      kind := .gauge
      samples := dbs.map fun db => ([(ascii "db", db.name)], .num (if db.isOpen then 1 else 0)) },
    { name := "nshgeoip_db_build_epoch_seconds"
      help := "Database build time as a Unix timestamp."
      kind := .gauge
      samples := dbValues (fun db => db.metadata.map fun info => .num info.buildEpoch.toNat) dbs },
    { name := "nshgeoip_db_age_seconds"
      help := "Seconds since the database was built."
      kind := .gauge
      samples := dbValues
        (fun db => db.metadata.map fun info => shown 0 (info.ageDays.mul (.ofInt 86400))) dbs },
    { name := "nshgeoip_requests_total"
      help := "Total HTTP requests received, by path."
      kind := .counter
      samples :=
        [counterValue "path" "lookup" m.lookupRequestsTotal,
          counterValue "path" "health" m.healthRequestsTotal,
          counterValue "path" "metrics" m.metricsRequestsTotal,
          counterValue "path" "other" m.otherRequestsTotal] },
    { name := "nshgeoip_http_responses_total"
      help := "HTTP responses sent, by status code."
      kind := .counter
      samples :=
        [counterValue "code" "200" m.responses200, counterValue "code" "400" m.responses400,
          counterValue "code" "404" m.responses404, counterValue "code" "405" m.responses405,
          counterValue "code" "500" m.responses500] },
    { name := "nshgeoip_lookup_results_total"
      help := "/lookup outcomes, by result."
      kind := .counter
      samples :=
        [counterValue "result" "found" m.lookupFoundTotal,
          counterValue "result" "not_found" m.lookupNotFoundTotal] }]

/-! ### Samples -/

/-- The escaped label value denotes the string it was made from. -/
theorem quoted_escapeLabelValue (s : Bytes) : Quoted s (escapeLabelValue s) := by
  induction s with
  | nil => exact .nil
  | cons c s ih =>
      rw [escapeLabelValue, List.flatMap_cons]
      by_cases backslash : c = 92
      · rw [if_pos backslash, backslash]
        exact .escape rfl ih
      by_cases quote : c = 34
      · rw [if_neg backslash, if_pos quote, quote]
        exact .escape rfl ih
      by_cases newline : c = 10
      · rw [if_neg backslash, if_neg quote, if_pos newline, newline]
        exact .escape rfl ih
      · rw [if_neg backslash, if_neg quote, if_neg newline]
        exact .plain backslash quote newline ih

/-- The labels of the fixed texts stand for themselves. -/
theorem quoted_ascii {s : String}
    (h : (ascii s).all (fun b => !decide (b = 92 ∨ b = 34 ∨ b = 10)) = true) :
    Quoted (ascii s) (ascii s) := by
  generalize ascii s = text at h
  induction text with
  | nil => exact .nil
  | cons b bs ih =>
      simp only [List.all_cons, Bool.and_eq_true, Bool.not_eq_true', decide_eq_false_iff_not,
        not_or] at h
      exact .plain h.1.1 h.1.2.1 h.1.2.2 (ih h.2)

section Continued

-- Each lemma puts one piece of the body in front of a document that goes on with `lines`.
variable {lines : List Line} {rest : Bytes}

theorem sample_isDocument {metric label d value number : Bytes} {v : Number}
    (named : isName isMetricStart metric = true) (labelled : isName isLabelStart label = true)
    (quoted : Quoted d value) (written : NumberText v number) (more : IsDocument lines rest) :
    IsDocument (.sample ⟨metric, [(label, d)], v, none⟩ :: lines)
      (sample metric label value number ++ rest) := by
  have line := LineText.labelled named (.last labelled quoted) written
  have text : sample metric label value number ++ rest =
      metric ++ 123 :: (label ++ 61 :: 34 :: (value ++ [34, 125]) ++ 32 :: number) ++ 10 :: rest := by
    simp [sample, ascii]
  rw [text]
  exact .cons line more

theorem counter_isDocument {metric label : Bytes} (named : isName isMetricStart metric = true)
    (labelled : isName isLabelStart label = true) {value : String}
    (plain : (ascii value).all (fun b => !decide (b = 92 ∨ b = 34 ∨ b = 10)) = true) (n : UInt64)
    (more : IsDocument lines rest) :
    IsDocument (.sample ⟨metric, [(label, ascii value)], .num n.toNat, none⟩ :: lines)
      (sample metric label (ascii value) (counterText n) ++ rest) :=
  sample_isDocument named labelled (quoted_ascii plain) (.dec n.toNat) more

theorem dbSamples_isDocument {metric : Bytes} (named : isName isMetricStart metric = true)
    {value : MetricsDbInfo → Option Number} {number : MetricsDbInfo → Option Bytes}
    {dbs : List MetricsDbInfo} (written : ∀ db ∈ dbs, Option.Rel NumberText (value db) (number db))
    (more : IsDocument lines rest) :
    IsDocument ((dbValues value dbs).map (fun s => .sample ⟨metric, s.1, s.2, none⟩) ++ lines)
      (dbSamples metric number dbs ++ rest) := by
  induction dbs with
  | nil => exact more
  | cons db dbs ih =>
      obtain ⟨first, others⟩ := List.forall_mem_cons.mp written
      have samples := ih others
      rw [dbSamples, List.flatMap_cons, List.append_assoc, dbValues, List.filterMap_cons]
      revert first
      rcases value db with _ | v <;> rcases number db with _ | n <;> intro first
      · exact samples
      · cases first
      · cases first
      · obtain ⟨number⟩ := first
        exact sample_isDocument named rfl (quoted_escapeLabelValue db.name) number samples

/-- The two lines `help` and `type` announce the metric. -/
def MetricHeader.announced (h : MetricHeader) (help type : String) : Bool :=
  decide (help = "# HELP " ++ h.name ++ " " ++ h.help ++ "\n")
    && decide (type = "# TYPE " ++ h.name ++ " " ++ h.kind.word ++ "\n")
    && isName isMetricStart (ascii h.name) && isPlainHelp (ascii h.help)

theorem family_isDocument {h : MetricHeader} {help type : String}
    (announced : h.announced help type = true)
    {samples : List (List (Bytes × Bytes) × Number)}
    (more : IsDocument (samples.map (fun s => .sample ⟨ascii h.name, s.1, s.2, none⟩) ++ lines)
      rest) :
    IsDocument ((MetricFamily.mk h samples).lines ++ lines)
      (ascii help ++ (ascii type ++ rest)) := by
  obtain ⟨⟨⟨helpLine, typeLine⟩, named⟩, plain⟩ := by
    simpa only [MetricHeader.announced, Bool.and_eq_true, decide_eq_true_eq] using announced
  have blank : ascii " " = [32] := rfl
  have newline : ascii "\n" = [10] := rfl
  have text : ascii help ++ (ascii type ++ rest) =
      ascii "# HELP " ++ (ascii h.name ++ 32 :: ascii h.help) ++ 10 ::
        (ascii "# TYPE " ++ (ascii h.name ++ 32 :: h.kind.text) ++ 10 :: rest) := by
    simp [helpLine, typeLine, ascii_append, blank, newline, MetricKind.text]
  rw [text]
  exact .cons (.help named plain) (.cons (.type h.kind named) more)

end Continued

/-! ### The whole body -/

theorem buildInfo_isDocument (version mmdbLibVersion : Bytes) {lines : List Line} {rest : Bytes}
    (more : IsDocument lines rest) :
    IsDocument (.sample ⟨ascii "nshgeoip_build_info",
        [(ascii "version", version), (ascii "libmaxminddb_version", mmdbLibVersion)], .num 1, none⟩
          :: lines)
      (ascii "nshgeoip_build_info\x7bversion=\"" ++ (escapeLabelValue version
        ++ (ascii "\",libmaxminddb_version=\"" ++ (escapeLabelValue mmdbLibVersion
          ++ (ascii "\"\x7d 1\n" ++ rest))))) := by
  have line := @LineText.labelled (ascii "nshgeoip_build_info") _ _ _ _ rfl
    (@LabelsText.more (ascii "version") _ _ _ _ rfl (quoted_escapeLabelValue version)
      (@LabelsText.last (ascii "libmaxminddb_version") _ _ rfl
        (quoted_escapeLabelValue mmdbLibVersion)))
    (NumberText.dec 1)
  have text : ascii "nshgeoip_build_info\x7bversion=\"" ++ (escapeLabelValue version
        ++ (ascii "\",libmaxminddb_version=\"" ++ (escapeLabelValue mmdbLibVersion
          ++ (ascii "\"\x7d 1\n" ++ rest)))) =
      ascii "nshgeoip_build_info" ++ 123 ::
        (ascii "version" ++ 61 :: 34 :: (escapeLabelValue version ++ 34 :: 44 ::
          (ascii "libmaxminddb_version" ++ 61 :: 34 :: (escapeLabelValue mmdbLibVersion
            ++ [34, 125]))) ++ 32 :: dec 1) ++ 10 :: rest := by
    simp [ascii, show dec 1 = [49] from rfl]
  rw [text]
  simpa using IsDocument.cons line more

theorem uptime_isDocument {d : Binary64} (real : d.isNan = false) {lines : List Line} {rest : Bytes}
    (more : IsDocument lines rest) :
    IsDocument (.sample ⟨ascii "nshgeoip_uptime_seconds", [], shown 0 d, none⟩ :: lines)
      (ascii "nshgeoip_uptime_seconds " ++ (d.formatF 0 ++ (ascii "\n" ++ rest))) := by
  have line := @LineText.bare (ascii "nshgeoip_uptime_seconds") _ _ rfl (NumberText.formatF real 0)
  have text : ascii "nshgeoip_uptime_seconds " ++ (d.formatF 0 ++ (ascii "\n" ++ rest)) =
      ascii "nshgeoip_uptime_seconds" ++ 32 :: d.formatF 0 ++ 10 :: rest := by
    simp [ascii]
  rw [text]
  exact .cons line more

theorem openFlag_text (isOpen : Bool) :
    NumberText (.num (if isOpen then 1 else 0)) (if isOpen then ascii "1" else ascii "0") := by
  have zero : dec 0 = ascii "0" := rfl
  have one : dec 1 = ascii "1" := rfl
  cases isOpen with
  | false => simpa [zero] using NumberText.dec 0
  | true => simpa [one] using NumberText.dec 1

theorem openValues_eq (dbs : List MetricsDbInfo) :
    (dbs.map fun db => ([(ascii "db", db.name)], Number.num (if db.isOpen then 1 else 0))) =
      dbValues (fun db => some (.num (if db.isOpen then 1 else 0))) dbs := by
  simp [dbValues]

/-- An age in seconds is a number when the age in days is. -/
theorem age_isNan {info : GeoIpDbMetadata} (real : info.ageDays.isNan = false) :
    (info.ageDays.mul (.ofInt 86400)).isNan = false :=
  Binary64.mul_isNan real (by decide +kernel) (by decide +kernel)

theorem renderPrometheusMetrics_isDocument (m : Metrics) {dbs : List MetricsDbInfo}
    (version mmdbLibVersion : Bytes) {uptimeSeconds : Binary64}
    (ticking : uptimeSeconds.isNan = false)
    (aged : ∀ db ∈ dbs, ∀ info ∈ db.metadata, info.ageDays.isNan = false) :
    IsDocument ((exposition m dbs version mmdbLibVersion uptimeSeconds).flatMap MetricFamily.lines)
      (renderPrometheusMetrics m dbs version mmdbLibVersion uptimeSeconds) := by
  unfold renderPrometheusMetrics exposition
  simp only [List.append_assoc, List.flatMap_cons, List.flatMap_nil, openValues_eq,
    counterValue]
  -- one sample each: the build and the uptime
  refine family_isDocument (by decide +kernel) ?_
  simp only [List.map_cons, List.map_nil, List.cons_append, List.nil_append]
  refine buildInfo_isDocument _ _ ?_
  refine family_isDocument (by decide +kernel) ?_
  simp only [List.map_cons, List.map_nil, List.cons_append, List.nil_append]
  refine uptime_isDocument ticking ?_
  -- a sample for every database, then twice one for those with metadata
  refine family_isDocument (by decide +kernel) ?_
  refine dbSamples_isDocument (by decide +kernel) ?_ ?_
  · exact fun db _ => .some (openFlag_text db.isOpen)
  refine family_isDocument (by decide +kernel) ?_
  refine dbSamples_isDocument (by decide +kernel) ?_ ?_
  · intro db _
    cases db.metadata with
    | none => exact .none
    | some info => exact .some (NumberText.dec _)
  refine family_isDocument (by decide +kernel) ?_
  refine dbSamples_isDocument (by decide +kernel) ?_ ?_
  · intro db mem
    have real := aged db mem
    cases metadata : db.metadata with
    | none => exact .none
    | some info => exact .some (NumberText.formatF (age_isNan (real info metadata)) 0)
  -- the eleven counters
  refine family_isDocument (by decide +kernel) ?_
  simp only [List.map_cons, List.map_nil, List.cons_append, List.nil_append]
  have requests : isName isMetricStart (ascii "nshgeoip_requests_total") = true := by
    decide +kernel
  refine counter_isDocument requests rfl rfl _ ?_
  refine counter_isDocument requests rfl rfl _ ?_
  refine counter_isDocument requests rfl rfl _ ?_
  refine counter_isDocument requests rfl rfl _ ?_
  refine family_isDocument (by decide +kernel) ?_
  simp only [List.map_cons, List.map_nil, List.cons_append, List.nil_append]
  have responses : isName isMetricStart (ascii "nshgeoip_http_responses_total") = true := by
    decide +kernel
  refine counter_isDocument responses rfl rfl _ ?_
  refine counter_isDocument responses rfl rfl _ ?_
  refine counter_isDocument responses rfl rfl _ ?_
  refine counter_isDocument responses rfl rfl _ ?_
  refine counter_isDocument responses rfl rfl _ ?_
  refine family_isDocument (by decide +kernel) ?_
  simp only [List.map_cons, List.map_nil, List.cons_append, List.nil_append]
  have results : isName isMetricStart (ascii "nshgeoip_lookup_results_total") = true := by
    decide +kernel
  refine counter_isDocument results rfl rfl _ ?_
  have last := @counter_isDocument _ _ _ (ascii "result") results rfl "not_found" rfl
    m.lookupNotFoundTotal .nil
  rwa [List.append_nil] at last

/-- **The metrics text reads back exactly.** A reader of the text format gets the eight
families, each behind its `HELP` and `TYPE` lines, and nothing else: the version strings
and the database names as they were, a sample of `nshgeoip_db_open` for every database in
its order, build time and age for those with metadata, and the eleven counters. -/
theorem parse_renderPrometheusMetrics (m : Metrics) {dbs : List MetricsDbInfo}
    (version mmdbLibVersion : Bytes) {uptimeSeconds : Binary64}
    (ticking : uptimeSeconds.isNan = false)
    (aged : ∀ db ∈ dbs, ∀ info ∈ db.metadata, info.ageDays.isNan = false) :
    parse (renderPrometheusMetrics m dbs version mmdbLibVersion uptimeSeconds) =
      some ((exposition m dbs version mmdbLibVersion uptimeSeconds).flatMap MetricFamily.lines) :=
  parse_of_isDocument (renderPrometheusMetrics_isDocument m version mmdbLibVersion ticking aged)

/-- Names with a quote, a backslash, a newline and a byte that is not ASCII, one database
with metadata and one without. -/
def awkwardDbs : List MetricsDbInfo :=
  [⟨ascii "ci\"ty\\n\n" ++ [0xff], true,
      some ⟨ascii "GeoLite2-City", 18446744073709551615, ascii "never", .ofInt 3, 0, 0⟩⟩,
    ⟨ascii "asn", false, none⟩]

theorem parse_renderPrometheusMetrics_awkward :
    parse (renderPrometheusMetrics { lookupFoundTotal := 18446744073709551615 } awkwardDbs
        (ascii "1.0\"\x7d 9\n") (ascii "\\") (.ofInt 60)) =
      some ((exposition { lookupFoundTotal := 18446744073709551615 } awkwardDbs
        (ascii "1.0\"\x7d 9\n") (ascii "\\") (.ofInt 60)).flatMap MetricFamily.lines) :=
  parse_renderPrometheusMetrics _ _ _ (by decide +kernel) (by decide +kernel)

end Nshgeoip
