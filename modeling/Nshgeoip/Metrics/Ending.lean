import Nshgeoip.Lib.Lines
import Nshgeoip.Metrics.ReadBack

/-!
Where a metrics text ends.

`render_prometheus_metrics` always ends with the counter of lookups that found nothing,
and no line before that one starts as it does, whatever the databases are called. So no
proper beginning of a complete text is a complete text (`IsRendered.eq_of_prefix`).
-/

namespace Nshgeoip

open ByteText

/-- A text `render_prometheus_metrics` returns. -/
def IsRendered (text : Bytes) : Prop :=
  ∃ m dbs version mmdbLibVersion uptimeSeconds,
    text = renderPrometheusMetrics m dbs version mmdbLibVersion uptimeSeconds

/-- How the last line starts. -/
def endMark : Bytes := ascii "nshgeoip_lookup_results_total\x7bresult=\"not_found\"\x7d "

/-- A beginning of lines that differs from the mark before either ends. -/
def isOther (start : Bytes) : Bool := !start.isPrefixOf endMark && !endMark.isPrefixOf start

theorem not_endMark {start : Bytes} (other : isOther start = true) (rest : Bytes) :
    ¬ endMark <+: start ++ rest := by
  intro marked
  simp only [isOther, Bool.and_eq_true, Bool.not_eq_true', ← Bool.not_eq_true,
    List.isPrefixOf_iff_prefix] at other
  rcases List.prefix_or_prefix_of_prefix marked (List.prefix_append start rest) with short | long
  · exact other.2 short
  · exact other.1 long

section Lines

variable {text : Bytes}

theorem ends_line {start rest : Bytes} (other : isOther start = true) (fresh : 10 ∉ start ++ rest)
    (more : Ends endMark text) : Ends endMark (start ++ (rest ++ 10 :: text)) := by
  rw [← List.append_assoc]
  exact .line fresh (not_endMark other rest) more

/-- A whole line of the program's own text. -/
def isOtherLine (line : Bytes) : Bool :=
  line.getLast? == some 10 && !line.dropLast.contains 10 && isOther line.dropLast

theorem ends_literal {line : Bytes} (other : isOtherLine line = true) (more : Ends endMark text) :
    Ends endMark (line ++ text) := by
  simp only [isOtherLine, Bool.and_eq_true, beq_iff_eq, Bool.not_eq_true', ← Bool.not_eq_true,
    List.contains_iff_mem] at other
  obtain ⟨⟨ended, fresh⟩, differs⟩ := other
  have shape : line ++ text = line.dropLast ++ ([] ++ 10 :: text) := by
    conv_lhs => rw [← List.dropLast_append_getLast? 10 ended, List.append_assoc]
    rfl
  rw [shape]
  exact ends_line differs (by rwa [List.append_nil]) more

/-- A sample of one of the other metrics, with any label value. -/
theorem ends_sample {metric label value number : Bytes}
    (other : isOther (metric ++ ascii "\x7b") = true) (named : 10 ∉ metric ++ label)
    (quoted : 10 ∉ value) (written : 10 ∉ number) (more : Ends endMark text) :
    Ends endMark (sample metric label value number ++ text) := by
  have shape : sample metric label value number ++ text = (metric ++ ascii "\x7b") ++
      ((label ++ ascii "=\"" ++ value ++ ascii "\"\x7d " ++ number) ++ 10 :: text) := by
    simp [sample, ascii]
  rw [shape]
  refine ends_line other ?_ more
  rw [List.mem_append, not_or] at named
  simp [ascii, named, quoted, written]

theorem ends_dbSamples {metric : Bytes} (other : isOther (metric ++ ascii "\x7b") = true)
    (named : 10 ∉ metric ++ ascii "db") {number : MetricsDbInfo → Option Bytes} {dbs : List MetricsDbInfo}
    (written : ∀ db ∈ dbs, ∀ n ∈ number db, 10 ∉ n) (more : Ends endMark text) :
    Ends endMark (dbSamples metric number dbs ++ text) := by
  induction dbs with
  | nil => exact more
  | cons db dbs ih =>
      obtain ⟨here, later⟩ := List.forall_mem_cons.mp written
      have rest := ih later
      rw [dbSamples, List.flatMap_cons, List.append_assoc]
      cases shown : number db with
      | none => exact rest
      | some n =>
          have quoted := (quoted_escapeLabelValue db.name).no_newline
          exact ends_sample other named quoted (here n shown) rest

theorem newline_not_mem_dec (n : Nat) : 10 ∉ dec n := by
  intro mem
  exact absurd (dec_noControl n 10 mem) (by decide)

theorem newline_not_mem_formatF (places : Nat) (d : Binary64) : 10 ∉ d.formatF places := by
  intro mem
  have solid := Binary64.format_noControl (Binary64.literalF_wf places) d
  exact absurd (solid 10 mem) (by decide)

end Lines

section Samples

variable {text : Bytes}

theorem ends_buildInfo (version mmdbLibVersion : Bytes) (more : Ends endMark text) :
    Ends endMark (ascii "nshgeoip_build_info\x7bversion=\"" ++ (escapeLabelValue version ++
      (ascii "\",libmaxminddb_version=\"" ++ (escapeLabelValue mmdbLibVersion ++
        (ascii "\"\x7d 1\n" ++ text))))) := by
  have shape : escapeLabelValue version ++ (ascii "\",libmaxminddb_version=\"" ++
      (escapeLabelValue mmdbLibVersion ++ (ascii "\"\x7d 1\n" ++ text))) =
        (escapeLabelValue version ++ ascii "\",libmaxminddb_version=\"" ++
          escapeLabelValue mmdbLibVersion ++ ascii "\"\x7d 1") ++ 10 :: text := by
    simp [ascii]
  have quoted := (quoted_escapeLabelValue version).no_newline
  have quoted' := (quoted_escapeLabelValue mmdbLibVersion).no_newline
  rw [shape]
  refine ends_line rfl ?_ more
  simp [ascii, quoted, quoted']

theorem ends_uptime (uptimeSeconds : Binary64) (more : Ends endMark text) :
    Ends endMark (ascii "nshgeoip_uptime_seconds " ++ (uptimeSeconds.formatF 0 ++
      (ascii "\n" ++ text))) := by
  have written := newline_not_mem_formatF 0 uptimeSeconds
  refine @ends_line text _ _ rfl ?_ more
  simp [ascii, written]

theorem ends_counter {metric label value : String} (n : UInt64)
    (other : isOther (ascii metric ++ ascii "\x7b") = true)
    (plain : (ascii metric ++ ascii label ++ ascii value).contains 10 = false)
    (more : Ends endMark text) :
    Ends endMark (sample (ascii metric) (ascii label) (ascii value) (counterText n) ++ text) := by
  rw [← Bool.not_eq_true, List.contains_iff_mem, List.mem_append, not_or] at plain
  exact ends_sample other plain.1 plain.2 (newline_not_mem_dec n.toNat) more

/-- The counter that shares its metric with the last line, but not its label. -/
theorem ends_found (n : UInt64) (more : Ends endMark text) :
    Ends endMark (sample (ascii "nshgeoip_lookup_results_total") (ascii "result") (ascii "found")
      (counterText n) ++ text) := by
  have shape : sample (ascii "nshgeoip_lookup_results_total") (ascii "result") (ascii "found")
      (counterText n) ++ text =
        ascii "nshgeoip_lookup_results_total\x7bresult=\"found\"\x7d " ++ (counterText n ++ 10 :: text) := by
    simp [sample, ascii]
  have written := newline_not_mem_dec n.toNat
  rw [shape]
  refine ends_line rfl ?_ more
  simp [ascii, counterText, written]

theorem ends_notFound (n : UInt64) :
    Ends endMark (sample (ascii "nshgeoip_lookup_results_total") (ascii "result")
      (ascii "not_found") (counterText n)) := by
  have shape : sample (ascii "nshgeoip_lookup_results_total") (ascii "result") (ascii "not_found")
      (counterText n) = endMark ++ counterText n ++ [10] := by
    simp [sample, ascii, endMark]
  have written := newline_not_mem_dec n.toNat
  rw [shape]
  refine .last ?_
  simp [ascii, endMark, counterText, written]

end Samples

/-- A complete text ends with the marked line, whatever it reports. -/
theorem ends_renderPrometheusMetrics (m : Metrics) (dbs : List MetricsDbInfo)
    (version mmdbLibVersion : Bytes) (uptimeSeconds : Binary64) :
    Ends endMark (renderPrometheusMetrics m dbs version mmdbLibVersion uptimeSeconds) := by
  unfold renderPrometheusMetrics
  simp only [List.append_assoc]
  -- the build and the uptime
  refine ends_literal (by decide +kernel) (ends_literal (by decide +kernel) ?_)
  refine ends_buildInfo _ _ ?_
  refine ends_literal (by decide +kernel) (ends_literal (by decide +kernel) ?_)
  refine ends_uptime _ ?_
  -- a sample for every database, then twice one for those with metadata
  refine ends_literal (by decide +kernel) (ends_literal (by decide +kernel) ?_)
  refine ends_dbSamples (by decide +kernel) (by decide +kernel) ?_ ?_
  · intro db _ n shown
    obtain rfl := Option.some.inj shown
    cases db.isOpen <;> decide
  refine ends_literal (by decide +kernel) (ends_literal (by decide +kernel) ?_)
  refine ends_dbSamples (by decide +kernel) (by decide +kernel) ?_ ?_
  · intro db _ n shown
    obtain ⟨info, -, rfl⟩ := Option.map_eq_some_iff.mp shown
    exact newline_not_mem_dec _
  refine ends_literal (by decide +kernel) (ends_literal (by decide +kernel) ?_)
  refine ends_dbSamples (by decide +kernel) (by decide +kernel) ?_ ?_
  · intro db _ n shown
    obtain ⟨info, -, rfl⟩ := Option.map_eq_some_iff.mp shown
    exact newline_not_mem_formatF 0 _
  -- the counters
  refine ends_literal (by decide +kernel) (ends_literal (by decide +kernel) ?_)
  refine ends_counter _ (by decide +kernel) (by decide +kernel) ?_
  refine ends_counter _ (by decide +kernel) (by decide +kernel) ?_
  refine ends_counter _ (by decide +kernel) (by decide +kernel) ?_
  refine ends_counter _ (by decide +kernel) (by decide +kernel) ?_
  refine ends_literal (by decide +kernel) (ends_literal (by decide +kernel) ?_)
  refine ends_counter _ (by decide +kernel) (by decide +kernel) ?_
  refine ends_counter _ (by decide +kernel) (by decide +kernel) ?_
  refine ends_counter _ (by decide +kernel) (by decide +kernel) ?_
  refine ends_counter _ (by decide +kernel) (by decide +kernel) ?_
  refine ends_counter _ (by decide +kernel) (by decide +kernel) ?_
  refine ends_literal (by decide +kernel) (ends_literal (by decide +kernel) ?_)
  exact ends_found _ (ends_notFound _)

theorem IsRendered.ends {text : Bytes} (h : IsRendered text) : Ends endMark text := by
  obtain ⟨m, dbs, version, mmdbLibVersion, uptimeSeconds, eq⟩ := h
  have ends := ends_renderPrometheusMetrics m dbs version mmdbLibVersion uptimeSeconds
  rwa [← eq] at ends

/-- **No proper beginning of a complete text is a complete text.** -/
theorem IsRendered.eq_of_prefix {text text' : Bytes} (h : IsRendered text) (h' : IsRendered text')
    (begins : text <+: text') : text = text' :=
  h.ends.eq_of_prefix h'.ends begins

end Nshgeoip
