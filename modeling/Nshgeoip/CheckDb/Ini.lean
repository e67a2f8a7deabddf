import Nshgeoip.CheckDb
import Nshgeoip.Lib.Lines

/-!
The lines of `--check-db --format ini`.

Every value that comes from the file passes `sanitize_header_value`, so it cannot leave
its line. The key of a description line is made from the language code of the
description, which comes from the file as well and is printed as it is: with a newline
in it the file writes lines of its own.
-/

namespace Nshgeoip

open ByteText

/-! ### The lines that are meant -/

/-- The keys of the output, in order. -/
def iniKeys (metadata : MmdbMetadata) : List Bytes :=
  [ascii "path", ascii "libmaxminddb_version", ascii "database_type", ascii "ip_version",
    ascii "binary_format_major_version", ascii "binary_format_minor_version", ascii "node_count",
    ascii "record_size", ascii "build_epoch", ascii "build_date", ascii "age_days", ascii "age_ms",
    ascii "age_ns"]
    ++ (if metadata.languages = [] then [] else [ascii "languages"])
    ++ [ascii "description"]
    ++ metadata.description.map fun d => ascii "description_" ++ d.language

/-- A line starts with its key and holds no control byte. -/
def LineOf (key line : Bytes) : Prop := key ++ ascii "=" <+: line ∧ NoControl line

/-- **No forged line**: the output is fourteen lines, one for the languages if there are any
and one for each description, each with its key, in order. -/
def NoForgedLine (db : CheckedDb) : Prop :=
  ∃ lines, (printMetadataIni db).splitOn 10 = lines ++ [[]] ∧
    lines.length = 14 + (if db.metadata.languages = [] then 0 else 1)
      + db.metadata.description.length ∧
    List.Forall₂ LineOf (iniKeys db.metadata) lines

/-- What `print_db_metadata` hands to the format. -/
def checkedDb (host : Host) (libVersion : CStr) (path : Bytes) (mmdb : Mmdb)
    (metadata : MmdbMetadata) : CheckedDb :=
  ⟨path, libVersion, mmdb, metadata, makeMetadata host mmdb⟩

/-! ### The rows that are printed -/

/-- Keys and values as printed. -/
def iniRows (db : CheckedDb) : List (Bytes × Bytes) :=
  [(ascii "path", cString (sanitizeHeaderValue db.path)),
    (ascii "libmaxminddb_version", db.libVersion),
    (ascii "database_type", cString (sanitizeHeaderValue db.info.databaseType)),
    (ascii "ip_version", dec db.metadata.ipVersion.toNat),
    (ascii "binary_format_major_version", dec db.metadata.binaryFormatMajorVersion.toNat),
    (ascii "binary_format_minor_version", dec db.metadata.binaryFormatMinorVersion.toNat),
    (ascii "node_count", dec db.metadata.nodeCount.toNat),
    (ascii "record_size", dec db.metadata.recordSize.toNat),
    (ascii "build_epoch", dec db.mmdb.buildEpoch.toNat),
    (ascii "build_date", cString db.info.buildTime),
    (ascii "age_days", db.info.ageDays.formatF 1),
    (ascii "age_ms", dec db.info.ageMs.toNat),
    (ascii "age_ns", dec db.info.ageNs.toNat)]
    ++ (if db.metadata.languages = [] then []
      else [(ascii "languages",
        cString (sanitizeHeaderValue (joinLanguages db.metadata (ascii ","))))])
    ++ [(ascii "description", cString (sanitizeHeaderValue (englishDescription db.metadata)))]
    ++ db.metadata.description.map fun d =>
      (ascii "description_" ++ d.language, cString (sanitizeHeaderValue d.description))

def rowLine (row : Bytes × Bytes) : Bytes := row.1 ++ ascii "=" ++ row.2

theorem iniRow_eq (key value : Bytes) : iniRow key value = terminated [rowLine (key, value)] := by
  simp [iniRow, rowLine, terminated, ascii]

theorem printMetadataIni_eq (db : CheckedDb) :
    printMetadataIni db = terminated ((iniRows db).map rowLine) := by
  have join : ∀ a b, terminated a ++ terminated b = terminated (a ++ b) :=
    fun a b => (terminated_append a b).symm
  have languages : (if db.metadata.languages = [] then []
        else terminated [rowLine (ascii "languages",
          cString (sanitizeHeaderValue (joinLanguages db.metadata (ascii ","))))]) =
      terminated ((if db.metadata.languages = [] then []
        else [(ascii "languages",
          cString (sanitizeHeaderValue (joinLanguages db.metadata (ascii ","))))]).map rowLine) := by
    split <;> rfl
  have descriptions : (db.metadata.description.flatMap fun d =>
        terminated [rowLine (ascii "description_" ++ d.language,
          cString (sanitizeHeaderValue d.description))]) =
      terminated ((db.metadata.description.map fun d =>
        (ascii "description_" ++ d.language, cString (sanitizeHeaderValue d.description))).map
          rowLine) := by
    rw [List.map_map, terminated, List.flatMap_map]
    exact List.flatMap_congr fun d _ => List.append_nil _
  unfold printMetadataIni sanitizedRow
  simp only [iniRow_eq]
  rw [languages, descriptions]
  simp only [join, iniRows, List.map_append, List.map_cons, List.cons_append, List.nil_append,
    List.append_assoc]

theorem iniRows_keys (db : CheckedDb) : (iniRows db).map Prod.fst = iniKeys db.metadata := by
  unfold iniRows iniKeys
  simp only [List.map_append, List.map_map]
  congr 2
  congr 1
  split <;> rfl

theorem length_iniRows (db : CheckedDb) :
    (iniRows db).length = 14 + (if db.metadata.languages = [] then 0 else 1)
      + db.metadata.description.length := by
  unfold iniRows
  split <;> simp only [List.length_append, List.length_cons, List.length_nil, List.length_map]

/-! ### Control bytes -/

/-- A build date is on one line, if the ones left to the host are. -/
theorem formatBuildTime_noControl {host : Host} (dates : ∀ t, NoControl (host.overflowedDate t))
    (buildEpoch : UInt64) : NoControl (formatBuildTime host buildEpoch) := by
  have pad := digitsPad_noControl 2
  have dash : NoControl (ascii "-") := noControl_ascii rfl
  have colon : NoControl (ascii ":") := noControl_ascii rfl
  have year : ∀ n, NoControl (intText n) := fun n => (signText_noControl _).append (dec_noControl _)
  unfold formatBuildTime
  dsimp only
  split
  · refine NoControl.append ?_ (noControl_ascii rfl)
    refine NoControl.append ?_ (pad _)
    refine NoControl.append ?_ colon
    refine NoControl.append ?_ (pad _)
    refine NoControl.append ?_ colon
    refine NoControl.append ?_ (pad _)
    refine NoControl.append ?_ (noControl_ascii rfl)
    refine NoControl.append ?_ (pad _)
    refine NoControl.append ?_ dash
    refine NoControl.append ?_ (pad _)
    exact (year _).append dash
  · exact dates _

theorem sanitized_noControl (s : Bytes) : NoControl (cString (sanitizeHeaderValue s)) :=
  (sanitizeHeaderValue_noControl s).cString

/-- All rows but those of the descriptions are clean whatever the file holds. -/
theorem iniRows_noControl {db : CheckedDb} (version : NoControl db.libVersion)
    (date : NoControl db.info.buildTime)
    (languages : ∀ d ∈ db.metadata.description, NoControl d.language) :
    ∀ row ∈ iniRows db, NoControl (rowLine row) := by
  have line : ∀ {key value : Bytes}, NoControl key → NoControl value →
      NoControl (rowLine (key, value)) := by
    intro key value cleanKey cleanValue
    have equals : NoControl (ascii "=") := noControl_ascii rfl
    exact (cleanKey.append equals).append cleanValue
  have days : NoControl (db.info.ageDays.formatF 1) :=
    Binary64.format_noControl (Binary64.literalF_wf 1) db.info.ageDays
  intro row mem
  simp only [iniRows, List.mem_append, List.mem_cons, List.not_mem_nil, or_false, or_assoc,
    List.mem_map] at mem
  rcases mem with rfl | rfl | rfl | rfl | rfl | rfl | rfl | rfl | rfl | rfl | rfl | rfl | rfl |
    named | rfl | ⟨d, described, rfl⟩
  · exact line (noControl_ascii rfl) (sanitized_noControl _)
  · exact line (noControl_ascii rfl) version
  · exact line (noControl_ascii rfl) (sanitized_noControl _)
  · exact line (noControl_ascii rfl) (dec_noControl _)
  · exact line (noControl_ascii rfl) (dec_noControl _)
  · exact line (noControl_ascii rfl) (dec_noControl _)
  · exact line (noControl_ascii rfl) (dec_noControl _)
  · exact line (noControl_ascii rfl) (dec_noControl _)
  · exact line (noControl_ascii rfl) (dec_noControl _)
  · exact line (noControl_ascii rfl) date.cString
  · exact line (noControl_ascii rfl) days
  · exact line (noControl_ascii rfl) (dec_noControl _)
  · exact line (noControl_ascii rfl) (dec_noControl _)
  · split at named
    · exact (List.not_mem_nil named).elim
    · obtain rfl := List.mem_singleton.mp named
      exact line (noControl_ascii rfl) (sanitized_noControl _)
  · exact line (noControl_ascii rfl) (sanitized_noControl _)
  · have key : NoControl (ascii "description_") := noControl_ascii rfl
    exact line (key.append (languages d described)) (sanitized_noControl _)

/-! ### When no line is forged -/

/-- Clean rows are read back as the lines they are. -/
theorem noForgedLine_of_clean {db : CheckedDb} (clean : ∀ row ∈ iniRows db, NoControl (rowLine row)) :
    NoForgedLine db := by
  refine ⟨(iniRows db).map rowLine, ?_, by rw [List.length_map, length_iniRows], ?_⟩
  · rw [printMetadataIni_eq]
    refine splitOn_terminated fun line mem newline => ?_
    obtain ⟨row, inRows, rfl⟩ := List.mem_map.mp mem
    exact absurd (clean row inRows 10 newline) (by decide)
  · rw [← iniRows_keys, List.forall₂_map_left_iff, List.forall₂_map_right_iff, List.forall₂_same]
    intro row mem
    exact ⟨List.prefix_append _ _, clean row mem⟩

/-- Where no line is forged, every key stands on one line, and so does the language in
the key of a description. -/
theorem language_noControl {db : CheckedDb} (h : NoForgedLine db) :
    ∀ d ∈ db.metadata.description, NoControl d.language := by
  obtain ⟨lines, -, -, keyed⟩ := h
  have keys : ∀ key ∈ iniKeys db.metadata, NoControl key := by
    generalize iniKeys db.metadata = keys at keyed
    induction keyed with
    | nil => exact fun key mem => (List.not_mem_nil mem).elim
    | @cons key line keys lines here _ ih =>
        refine List.forall_mem_cons.mpr ⟨?_, ih⟩
        obtain ⟨⟨rest, rfl⟩, clean⟩ := here
        exact clean.of_append_left.of_append_left
  intro d mem
  have key : ascii "description_" ++ d.language ∈ iniKeys db.metadata :=
    List.mem_append_right _ (List.mem_map_of_mem mem)
  exact (keys _ key).of_append_right

/-- **Exactly when no line is forged**: no description has a control byte in its language
code. The version of the library and the dates its host makes up are taken to be on one
line. -/
theorem printMetadataIni_noForgedLine_iff (host : Host) (libVersion : CStr) (path : Bytes)
    (mmdb : Mmdb) (metadata : MmdbMetadata) (version : NoControl libVersion)
    (dates : ∀ t, NoControl (host.overflowedDate t)) :
    NoForgedLine (checkedDb host libVersion path mmdb metadata) ↔
      ∀ d ∈ metadata.description, NoControl d.language := by
  constructor
  · exact language_noControl
  · intro languages
    refine noForgedLine_of_clean (iniRows_noControl version ?_ languages)
    exact formatBuildTime_noControl dates mmdb.buildEpoch

/-! ### A language code with a newline in it -/

/-- A host whose clock stands at the epoch. -/
def epochHost : Host := ⟨0, 0, ascii "1.9.1", fun _ => 0, fun _ => []⟩

def libVersionText : CStr := ⟨ascii "1.9.1", by decide⟩

/-- A database file with one description, for a given language code. -/
def describedIn (language : CStr) : CheckedDb :=
  checkedDb epochHost libVersionText (ascii "City.mmdb")
    ⟨1, fun _ => .notFound, some (ascii "GeoLite2-City"), 0⟩
    ⟨6, 2, 0, 5, 24, [], [⟨language, ⟨ascii "x", by decide⟩⟩]⟩

def forgingLanguage : CStr := ⟨ascii "en=ok\npath=/etc/other.mmdb\ndescription_en", by decide +kernel⟩

/-- The file adds a second `path` line to the output about it. -/
theorem forgedLine_counterexample :
    ¬ NoForgedLine (describedIn forgingLanguage) ∧
      ascii "path=/etc/other.mmdb" ∈ (printMetadataIni (describedIn forgingLanguage)).splitOn 10 := by
  constructor
  · intro clean
    have language := language_noControl clean ⟨forgingLanguage, ⟨ascii "x", by decide⟩⟩
      List.mem_cons_self
    have newline : (10 : UInt8) ∈ forgingLanguage.val := by decide +kernel
    exact absurd (language 10 newline) (by decide)
  · decide +kernel

/-- Line breaks in every other string of the file, and in its path, forge nothing. -/
theorem printMetadataIni_noForgedLine_lineBreaks :
    NoForgedLine (checkedDb epochHost libVersionText (ascii "City\n.mmdb")
      ⟨1, fun _ => .notFound, some (ascii "GeoLite2\r\npath=x"), 0⟩
      ⟨6, 2, 0, 5, 24, [⟨ascii "en\n", by decide⟩, ⟨ascii "de\npath=x", by decide⟩],
        [⟨⟨ascii "en", by decide⟩, ⟨ascii "x\npath=x", by decide⟩⟩,
          ⟨⟨ascii "de", by decide⟩, ⟨ascii "\r\n", by decide⟩⟩]⟩) := by
  refine (printMetadataIni_noForgedLine_iff epochHost libVersionText _ _ _ ?_ ?_).mpr ?_
  · exact noControl_ascii rfl
  · exact fun _ b mem => (List.not_mem_nil mem).elim
  · refine List.forall_mem_cons.mpr ⟨noControl_ascii rfl, ?_⟩
    exact List.forall_mem_singleton.mpr (noControl_ascii rfl)

end Nshgeoip
