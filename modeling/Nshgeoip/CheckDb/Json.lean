import Nshgeoip.CheckDb
import Nshgeoip.Server.Bodies

/-!
The JSON documents about databases: the output of `--check-db --format json`, and with it
the body of `/health`.

Both are written piece by piece into a stream. `healthObject` and `checkDbObject` are
what they stand for, with every string as the bytes it was; `printf` stops at a NUL, but
no JSON text holds one. The two ages in other units than whole numbers, `age_days` and
`uptime_seconds`, are rounded to one decimal and to seconds.
-/

namespace Nshgeoip

open ByteText JsonText

/-! ### The document of `--check-db` -/

/-- The text of the first English description, empty if there is none. -/
def FirstEnglish (descriptions : List MmdbDescription) (text : Bytes) : Prop :=
  (∃ before d after, descriptions = before ++ d :: after ∧ d.language.val = ascii "en" ∧
      text = d.description ∧ ∀ e ∈ before, e.language.val ≠ ascii "en") ∨
    text = [] ∧ ∀ d ∈ descriptions, d.language.val ≠ ascii "en"

theorem firstEnglish_englishDescription (metadata : MmdbMetadata) :
    FirstEnglish metadata.description (englishDescription metadata) := by
  unfold englishDescription
  split
  · rename_i d found
    obtain ⟨here, before, after, split, earlier⟩ := List.find?_eq_some_iff_append.mp found
    refine .inl ⟨before, d, after, split, by simpa using here, rfl, ?_⟩
    intro e mem
    simpa using earlier e mem
  · rename_i absent
    refine .inr ⟨rfl, ?_⟩
    intro d mem
    simpa using List.find?_eq_none.mp absent d mem

def descriptionObject (d : MmdbDescription) : Json :=
  .obj [(ascii "language", .str d.language), (ascii "description", .str d.description)]

/-- The members of the document, with the English description. -/
def checkDbMembers (db : CheckedDb) (english : Bytes) : List (Bytes × Json) :=
  [(ascii "path", .str db.path),
    (ascii "libmaxminddb_version", .str db.libVersion),
    (ascii "database_type", .str db.info.databaseType),
    (ascii "ip_version", .num db.metadata.ipVersion.toNat),
    (ascii "binary_format_major_version", .num db.metadata.binaryFormatMajorVersion.toNat),
    (ascii "binary_format_minor_version", .num db.metadata.binaryFormatMinorVersion.toNat),
    (ascii "node_count", .num db.metadata.nodeCount.toNat),
    (ascii "record_size", .num db.metadata.recordSize.toNat),
    (ascii "build_epoch", .num db.mmdb.buildEpoch.toNat),
    (ascii "build_date", .str db.info.buildTime),
    (ascii "age_days", .num (Binary64.roundPlaces 1 db.info.ageDays.value)),
    (ascii "age_ms", .num db.info.ageMs.toNat),
    (ascii "age_ns", .num db.info.ageNs.toNat),
    (ascii "languages", .arr (db.metadata.languages.map fun name => .str name)),
    (ascii "description", .str english),
    (ascii "description_list", .arr (db.metadata.description.map descriptionObject))]

/-- What the document says. -/
def checkDbObject (db : CheckedDb) (english : Bytes) : Json := .obj (checkDbMembers db english)

def descriptionText (d : MmdbDescription) : Bytes :=
  compactObject [(ascii "language", jsonString d.language),
    (ascii "description", jsonString d.description)]

/-- The members of the document, as printed. -/
def checkDbPairs (db : CheckedDb) : List (Bytes × Bytes) :=
  [(ascii "path", jsonString db.path),
    (ascii "libmaxminddb_version", jsonString db.libVersion),
    (ascii "database_type", jsonString db.info.databaseType),
    (ascii "ip_version", dec db.metadata.ipVersion.toNat),
    (ascii "binary_format_major_version", dec db.metadata.binaryFormatMajorVersion.toNat),
    (ascii "binary_format_minor_version", dec db.metadata.binaryFormatMinorVersion.toNat),
    (ascii "node_count", dec db.metadata.nodeCount.toNat),
    (ascii "record_size", dec db.metadata.recordSize.toNat),
    (ascii "build_epoch", dec db.mmdb.buildEpoch.toNat),
    (ascii "build_date", jsonString db.info.buildTime),
    (ascii "age_days", db.info.ageDays.formatF 1),
    (ascii "age_ms", dec db.info.ageMs.toNat),
    (ascii "age_ns", dec db.info.ageNs.toNat),
    (ascii "languages", compactArray (db.metadata.languages.map fun name => jsonString name)),
    (ascii "description", jsonString (englishDescription db.metadata)),
    (ascii "description_list", compactArray (db.metadata.description.map descriptionText))]

theorem descriptionText_eq (d : MmdbDescription) :
    ascii "\x7b\"language\":" ++ jsonString d.language ++ ascii ",\"description\":"
        ++ jsonString d.description ++ ascii "\x7d" = descriptionText d := by
  have start : ascii "\x7b\"language\":" = 123 :: 34 :: (ascii "language" ++ [34, 58]) := rfl
  simp only [descriptionText, compactObject, compactMembers, compactPair, pairText,
    List.append_assoc, List.nil_append, List.cons_append, List.append_nil, start,
    ascii_nextMember ",\"description\":" "description" rfl]
  rfl

/-- The literal before an array: a comma, a name in quotes, a colon, the bracket. -/
theorem ascii_nextArray (literal name : String) (h : literal = ",\"" ++ name ++ "\":[")
    (rest : Bytes) :
    ascii literal ++ rest = 44 :: 34 :: (ascii name ++ 34 :: 58 :: 91 :: rest) := by
  have comma : ascii ",\"" = [44, 34] := rfl
  have bracket : ascii "\":[" = [34, 58, 91] := rfl
  simp [h, ascii_append, comma, bracket]

theorem metadataJson_eq (db : CheckedDb) : metadataJson db = compactObject (checkDbPairs db) := by
  have member := ascii_nextMember
  have array := ascii_nextArray
  have first : ascii "\"path\":" = 34 :: (ascii "path" ++ [34, 58]) := rfl
  unfold metadataJson checkDbPairs
  simp only [descriptionText_eq]
  simp only [compactObject, compactMembers, compactPair, compactArray, pairText,
    List.append_assoc, List.nil_append, List.cons_append, List.append_nil, first,
    member ",\"libmaxminddb_version\":" "libmaxminddb_version" rfl,
    member ",\"database_type\":" "database_type" rfl,
    member ",\"ip_version\":" "ip_version" rfl,
    member ",\"binary_format_major_version\":" "binary_format_major_version" rfl,
    member ",\"binary_format_minor_version\":" "binary_format_minor_version" rfl,
    member ",\"node_count\":" "node_count" rfl,
    member ",\"record_size\":" "record_size" rfl,
    member ",\"build_epoch\":" "build_epoch" rfl,
    member ",\"build_date\":" "build_date" rfl,
    member ",\"age_days\":" "age_days" rfl,
    member ",\"age_ms\":" "age_ms" rfl,
    member ",\"age_ns\":" "age_ns" rfl,
    array ",\"languages\":[" "languages" rfl,
    member ",\"description\":" "description" rfl,
    array ",\"description_list\":[" "description_list" rfl]
  rfl

theorem checkDbPairs_forall₂ {db : CheckedDb} (finite : db.info.ageDays.isFinite = true) :
    List.Forall₂ PairDerives (checkDbPairs db)
      (checkDbMembers db (englishDescription db.metadata)) := by
  have languages : List.Forall₂ (fun text v => Derives (.value v) text)
      (db.metadata.languages.map fun name => jsonString name)
      (db.metadata.languages.map fun name => .str name) := by
    rw [List.forall₂_map_left_iff, List.forall₂_map_right_iff, List.forall₂_same]
    intro name _
    exact derives_jsonString name
  have descriptions : List.Forall₂ (fun text v => Derives (.value v) text)
      (db.metadata.description.map descriptionText)
      (db.metadata.description.map descriptionObject) := by
    rw [List.forall₂_map_left_iff, List.forall₂_map_right_iff, List.forall₂_same]
    intro d _
    refine derives_compactObject (.cons (pairDerives_named rfl (derives_jsonString _)) ?_)
    exact .cons (pairDerives_named rfl (derives_jsonString _)) .nil
  refine .cons (pairDerives_named rfl (derives_jsonString _)) ?_
  refine .cons (pairDerives_named rfl (derives_jsonString _)) ?_
  refine .cons (pairDerives_named rfl (derives_jsonString _)) ?_
  refine .cons (pairDerives_named rfl (derives_dec _)) ?_
  refine .cons (pairDerives_named rfl (derives_dec _)) ?_
  refine .cons (pairDerives_named rfl (derives_dec _)) ?_
  refine .cons (pairDerives_named rfl (derives_dec _)) ?_
  refine .cons (pairDerives_named rfl (derives_dec _)) ?_
  refine .cons (pairDerives_named rfl (derives_dec _)) ?_
  refine .cons (pairDerives_named rfl (derives_jsonString _)) ?_
  refine .cons (pairDerives_named rfl (derives_formatF 1 finite)) ?_
  refine .cons (pairDerives_named rfl (derives_dec _)) ?_
  refine .cons (pairDerives_named rfl (derives_dec _)) ?_
  refine .cons (pairDerives_named rfl (derives_compactArray languages)) ?_
  refine .cons (pairDerives_named rfl (derives_jsonString _)) ?_
  exact .cons (pairDerives_named rfl (derives_compactArray descriptions)) .nil

/-- The stream holds no NUL, so all of it is printed; the newline behind it is white
space. -/
theorem isText_printMetadataJson {db : CheckedDb} (finite : db.info.ageDays.isFinite = true) :
    IsText (checkDbObject db (englishDescription db.metadata)) (printMetadataJson db) := by
  have derived := derives_compactObject (checkDbPairs_forall₂ finite)
  rw [← metadataJson_eq] at derived
  have whole : cString (metadataJson db) = metadataJson db := cString_eq_self derived.no_nul
  refine ⟨[], metadataJson db, ascii "\n", ws_nil, ?_, derived, ?_⟩
  · simp [Ws, isWs, ascii]
  · rw [printMetadataJson, whole, List.nil_append]

/-- **The two JSON documents read back what went in.** For every list of databases and
every metadata, with ages and an uptime that are numbers, they are JSON texts and decode
to exactly the strings, integers, arrays and members they were made of; the
description is the first English one. -/
theorem json_documents_roundTrip (dbs : List MetricsDbInfo) (version mmdbLibVersion : Bytes)
    (uptimeSeconds : Binary64) (db : CheckedDb)
    (ages : ∀ db ∈ dbs, ∀ info ∈ db.metadata, info.ageDays.isFinite = true)
    (uptime : uptimeSeconds.isFinite = true) (age : db.info.ageDays.isFinite = true) :
    (WellFormed (renderHealthJson dbs version mmdbLibVersion uptimeSeconds) ∧
      decode (renderHealthJson dbs version mmdbLibVersion uptimeSeconds) =
        some (healthObject dbs version mmdbLibVersion uptimeSeconds)) ∧
    ∃ english, FirstEnglish db.metadata.description english ∧
      WellFormed (printMetadataJson db) ∧
      decode (printMetadataJson db) = some (checkDbObject db english) := by
  have health := isText_renderHealthJson ages uptime version mmdbLibVersion
  have checked := isText_printMetadataJson age
  refine ⟨⟨⟨_, health⟩, decode_of_isText health⟩, englishDescription db.metadata, ?_, ?_⟩
  · exact firstEnglish_englishDescription db.metadata
  · exact ⟨⟨_, checked⟩, decode_of_isText checked⟩

/-- Strings with quotes, backslashes and control bytes, and an age of one day. -/
def awkwardInfo : GeoIpDbMetadata :=
  ⟨ascii "City \"\\\n", 1700000000, ascii "2023-11-14T22:13:20Z", ⟨false, 1023, 0⟩, 86400000,
    86400000000000⟩

/-- Two descriptions, the English one behind another. -/
def awkwardDb : CheckedDb where
  path := ascii "a\tb.mmdb"
  libVersion := ⟨ascii "1.12.2", by decide⟩
  mmdb := ⟨1, fun _ => .notFound, none, 1700000000⟩
  metadata :=
    ⟨6, 2, 0, 5, 24, [⟨ascii "en", by decide⟩],
      [⟨⟨ascii "de", by decide⟩, ⟨ascii "\x01", by decide⟩⟩,
        ⟨⟨ascii "en", by decide⟩, ⟨ascii "\"", by decide⟩⟩]⟩
  info := awkwardInfo

theorem json_documents_roundTrip_awkward :
    decode (renderHealthJson [⟨ascii "city", true, some awkwardInfo⟩, ⟨ascii "asn", false, none⟩]
        (ascii "0.9.2") (ascii "1.9.1") ⟨false, 1023, 0⟩) =
      some (healthObject [⟨ascii "city", true, some awkwardInfo⟩, ⟨ascii "asn", false, none⟩]
        (ascii "0.9.2") (ascii "1.9.1") ⟨false, 1023, 0⟩) ∧
      ∃ english, FirstEnglish awkwardDb.metadata.description english ∧
        decode (printMetadataJson awkwardDb) = some (checkDbObject awkwardDb english) := by
  have ages : ∀ db ∈ [(⟨ascii "city", true, some awkwardInfo⟩ : MetricsDbInfo),
      ⟨ascii "asn", false, none⟩], ∀ info ∈ db.metadata, info.ageDays.isFinite = true := by
    simp [awkwardInfo, Binary64.isFinite]
  obtain ⟨health, english, first, -, decoded⟩ :=
    json_documents_roundTrip _ (ascii "0.9.2") (ascii "1.9.1") ⟨false, 1023, 0⟩ awkwardDb ages rfl rfl
  exact ⟨health.2, english, first, decoded⟩

end Nshgeoip
