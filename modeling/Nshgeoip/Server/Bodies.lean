import Nshgeoip.Server

/-!
What the bodies of `/lookup` and `/health` say.

The JSON body denotes the object of its eleven members
(`isText_buildJsonBody`) whatever bytes the strings hold, provided the
coordinates are finite: a stream prints the other doubles as `inf` or `nan`,
which no JSON value starts with (`refused_formatDouble`), so one such
coordinate spoils the whole text (`buildJsonBody_wellFormed_iff`). The body of
`/health` denotes `healthObject`.
-/

namespace Nshgeoip

open ByteText JsonText

/-! ### Numbers -/

theorem derives_dec (n : Nat) : Derives (.value (.num n)) (dec n) := by
  have derived := Derives.num (decLiteral_wf n)
  rwa [decLiteral_text, decLiteral_value] at derived

theorem derives_format {literal : Binary64 → Literal} {d : Binary64} (wf : (literal d).WF)
    (finite : d.isFinite = true) :
    Derives (.value (.num (literal d).value)) (Binary64.format literal d) := by
  rw [Binary64.format, if_pos finite]
  exact .num wf

/-- A double printed with `std::fixed`. -/
theorem derives_formatF (p : Nat) {d : Binary64} (finite : d.isFinite = true) :
    Derives (.value (.num (Binary64.roundPlaces p d.value))) (d.formatF p) := by
  have derived := derives_format (Binary64.literalF_wf p d) finite
  rwa [Binary64.literalF_value] at derived

/-- A member with a literal name. -/
theorem pairDerives_named {name : String} {text : Bytes} {v : Json}
    (h : (ascii name).all (fun b => !(decide (b < 32 ∨ b = 34 ∨ b = 92))) = true)
    (value : Derives (.value v) text) : PairDerives (ascii name, text) (ascii name, v) :=
  ⟨chars_ascii h, value⟩

/-- A finite coordinate denotes itself, rounded to nine significant digits. -/
theorem derives_formatDouble {d : Binary64} (finite : d.isFinite = true) :
    Derives (.value (.num (Binary64.roundSig 8 d.value))) (formatDouble d) := by
  have derived := derives_format (Binary64.literalG_wf 8 d) finite
  rwa [Binary64.literalG_value] at derived

/-- A value reader refuses what a stream prints for an infinity or a NaN. -/
theorem refused_formatDouble {d : Binary64} (notFinite : d.isFinite = false) :
    Refused (formatDouble d) := by
  have text : formatDouble d = signText d.sign ++ if d.frac = 0 then ascii "inf" else ascii "nan" := by
    simp [formatDouble, Binary64.formatG, Binary64.format, notFinite]
  intro fuel rest
  rw [text]
  cases fuel with
  | zero => rfl
  | succ fuel =>
      cases d.sign with
      | true =>
          split
          · rfl
          · rfl
      | false =>
          split
          · rfl
          · rfl

/-! ### The JSON body -/

/-- The value of a member that may be absent. -/
def nullOr {α : Type} (value : α → Json) : Option α → Json
  | none => .null
  | some v => value v

theorem derives_jsonOr {α : Type} {text : α → Bytes} {value : α → Json} {o : Option α}
    (h : ∀ v ∈ o, Derives (.value (value v)) (text v)) :
    Derives (.value (nullOr value o)) (jsonOr text o) := by
  cases o with
  | none => exact .null
  | some v => exact h v rfl

/-- A coordinate as a JSON number: the double, at nine significant digits. -/
def coordinate (d : Binary64) : Json := .num (Binary64.roundSig 8 d.value)

/-- The members of the body, as printed. -/
def bodyPairs (ipText : Bytes) (result : GeoIpResult) : List (Bytes × Bytes) :=
  [(ascii "ip", jsonString ipText),
    (ascii "country_code", jsonOr jsonString result.countryCode),
    (ascii "country_name", jsonOr jsonString result.countryName),
    (ascii "continent_code", jsonOr jsonString result.continentCode),
    (ascii "asn", jsonOr (fun n => dec n.toNat) result.asn),
    (ascii "as_org", jsonOr jsonString result.asOrg),
    (ascii "city_name", jsonOr jsonString result.cityName),
    (ascii "postal_code", jsonOr jsonString result.postalCode),
    (ascii "latitude", jsonOr formatDouble result.latitude),
    (ascii "longitude", jsonOr formatDouble result.longitude),
    (ascii "accuracy_radius", jsonOr (fun n => dec n.toNat) result.accuracyRadius)]

/-- The members of the body, as values. -/
def bodyMembers (ipText : Bytes) (result : GeoIpResult) : List (Bytes × Json) :=
  [(ascii "ip", .str ipText),
    (ascii "country_code", nullOr .str result.countryCode),
    (ascii "country_name", nullOr .str result.countryName),
    (ascii "continent_code", nullOr .str result.continentCode),
    (ascii "asn", nullOr (fun n => .num n.toNat) result.asn),
    (ascii "as_org", nullOr .str result.asOrg),
    (ascii "city_name", nullOr .str result.cityName),
    (ascii "postal_code", nullOr .str result.postalCode),
    (ascii "latitude", nullOr coordinate result.latitude),
    (ascii "longitude", nullOr coordinate result.longitude),
    (ascii "accuracy_radius", nullOr (fun n => .num n.toNat) result.accuracyRadius)]

theorem buildJsonBody_eq (ipText : Bytes) (result : GeoIpResult) :
    buildJsonBody ipText result = compactObject (bodyPairs ipText result) := by
  have member := ascii_nextMember
  have first : ascii "\"ip\":" = 34 :: (ascii "ip" ++ [34, 58]) := rfl
  unfold buildJsonBody bodyPairs
  simp only [compactObject, compactMembers, compactPair, pairText, List.append_assoc,
    List.nil_append, List.cons_append, List.append_nil, first,
    member ",\"country_code\":" "country_code" rfl,
    member ",\"country_name\":" "country_name" rfl,
    member ",\"continent_code\":" "continent_code" rfl,
    member ",\"asn\":" "asn" rfl, member ",\"as_org\":" "as_org" rfl,
    member ",\"city_name\":" "city_name" rfl,
    member ",\"postal_code\":" "postal_code" rfl,
    member ",\"latitude\":" "latitude" rfl,
    member ",\"longitude\":" "longitude" rfl,
    member ",\"accuracy_radius\":" "accuracy_radius" rfl]
  rfl

def Finite (o : Option Binary64) : Prop := ∀ d ∈ o, d.isFinite = true

theorem derives_optional_string (o : Option Bytes) :
    Derives (.value (nullOr .str o)) (jsonOr jsonString o) :=
  derives_jsonOr fun v _ => derives_jsonString v

/-- **The body denotes its members**, whatever bytes the strings hold. -/
theorem isText_buildJsonBody (ipText : Bytes) {result : GeoIpResult}
    (latitude : Finite result.latitude) (longitude : Finite result.longitude) :
    IsText (.obj (bodyMembers ipText result)) (buildJsonBody ipText result) := by
  have string := derives_optional_string
  rw [buildJsonBody_eq]
  apply isText_compactObject
  refine .cons ⟨chars_ascii rfl, derives_jsonString ipText⟩ ?_
  refine .cons ⟨chars_ascii rfl, string _⟩ ?_
  refine .cons ⟨chars_ascii rfl, string _⟩ ?_
  refine .cons ⟨chars_ascii rfl, string _⟩ ?_
  refine .cons ⟨chars_ascii rfl, derives_jsonOr fun n _ => derives_dec n.toNat⟩ ?_
  refine .cons ⟨chars_ascii rfl, string _⟩ ?_
  refine .cons ⟨chars_ascii rfl, string _⟩ ?_
  refine .cons ⟨chars_ascii rfl, string _⟩ ?_
  refine .cons ⟨chars_ascii rfl, derives_jsonOr fun d h => ?_⟩ ?_
  · exact derives_formatDouble (latitude d h)
  refine .cons ⟨chars_ascii rfl, derives_jsonOr fun d h => ?_⟩ ?_
  · exact derives_formatDouble (longitude d h)
  exact .cons ⟨chars_ascii rfl, derives_jsonOr fun n _ => derives_dec n.toNat⟩ .nil

theorem coordinate_derives_or_refused (o : Option Binary64) :
    (∃ v, Derives (.value v) (jsonOr formatDouble o)) ∨ Refused (jsonOr formatDouble o) := by
  cases o with
  | none => exact .inl ⟨_, .null⟩
  | some d =>
      cases finite : d.isFinite with
      | true => exact .inl ⟨_, derives_formatDouble finite⟩
      | false => exact .inr (refused_formatDouble finite)

theorem refused_of_not_finite {o : Option Binary64} (h : ¬ Finite o) :
    Refused (jsonOr formatDouble o) := by
  simp only [Finite, not_forall] at h
  obtain ⟨d, mem, notFinite⟩ := h
  obtain rfl : o = some d := mem
  exact refused_formatDouble (Bool.eq_false_iff.mpr notFinite)

/-- Every member but the coordinates denotes a value; these do or are refused. -/
theorem bodyPairs_derive_or_refused (ipText : Bytes) (result : GeoIpResult) :
    ∀ p ∈ bodyPairs ipText result,
      (∃ k, Chars k p.1) ∧ ((∃ v, Derives (.value v) p.2) ∨ Refused p.2) := by
  have string : ∀ o, (∃ v, Derives (.value v) (jsonOr jsonString o)) ∨
      Refused (jsonOr jsonString o) := fun o => .inl ⟨_, derives_optional_string o⟩
  have double := coordinate_derives_or_refused
  unfold bodyPairs
  refine List.forall_mem_cons.mpr ⟨⟨⟨_, chars_ascii rfl⟩, ?_⟩, ?_⟩
  · exact .inl ⟨_, derives_jsonString ipText⟩
  refine List.forall_mem_cons.mpr ⟨⟨⟨_, chars_ascii rfl⟩, string _⟩, ?_⟩
  refine List.forall_mem_cons.mpr ⟨⟨⟨_, chars_ascii rfl⟩, string _⟩, ?_⟩
  refine List.forall_mem_cons.mpr ⟨⟨⟨_, chars_ascii rfl⟩, string _⟩, ?_⟩
  refine List.forall_mem_cons.mpr ⟨⟨⟨_, chars_ascii rfl⟩, ?_⟩, ?_⟩
  · exact .inl ⟨_, derives_jsonOr fun n _ => derives_dec n.toNat⟩
  refine List.forall_mem_cons.mpr ⟨⟨⟨_, chars_ascii rfl⟩, string _⟩, ?_⟩
  refine List.forall_mem_cons.mpr ⟨⟨⟨_, chars_ascii rfl⟩, string _⟩, ?_⟩
  refine List.forall_mem_cons.mpr ⟨⟨⟨_, chars_ascii rfl⟩, string _⟩, ?_⟩
  refine List.forall_mem_cons.mpr ⟨⟨⟨_, chars_ascii rfl⟩, double _⟩, ?_⟩
  refine List.forall_mem_cons.mpr ⟨⟨⟨_, chars_ascii rfl⟩, double _⟩, ?_⟩
  refine List.forall_mem_singleton.mpr ⟨⟨_, chars_ascii rfl⟩, ?_⟩
  exact .inl ⟨_, derives_jsonOr fun n _ => derives_dec n.toNat⟩

theorem latitude_mem_bodyPairs (ipText : Bytes) (result : GeoIpResult) :
    (ascii "latitude", jsonOr formatDouble result.latitude) ∈ bodyPairs ipText result := by
  unfold bodyPairs
  iterate 8 apply List.mem_cons_of_mem
  exact List.mem_cons_self

theorem longitude_mem_bodyPairs (ipText : Bytes) (result : GeoIpResult) :
    (ascii "longitude", jsonOr formatDouble result.longitude) ∈ bodyPairs ipText result := by
  unfold bodyPairs
  iterate 9 apply List.mem_cons_of_mem
  exact List.mem_cons_self

/-- The body is a JSON text exactly when its coordinates are finite. -/
theorem buildJsonBody_wellFormed_iff (ipText : Bytes) (result : GeoIpResult) :
    WellFormed (buildJsonBody ipText result) ↔
      Finite result.latitude ∧ Finite result.longitude := by
  constructor
  · intro wellFormed
    by_contra notBoth
    have pairs := bodyPairs_derive_or_refused ipText result
    rw [buildJsonBody_eq] at wellFormed
    refine not_wellFormed_compactObject (fun p mem => (pairs p mem).1)
      (fun p mem => (pairs p mem).2) ?_ wellFormed
    rcases not_and_or.mp notBoth with bad | bad
    · exact ⟨_, latitude_mem_bodyPairs ipText result, refused_of_not_finite bad⟩
    · exact ⟨_, longitude_mem_bodyPairs ipText result, refused_of_not_finite bad⟩
  · rintro ⟨latitude, longitude⟩
    exact ⟨_, isText_buildJsonBody ipText latitude longitude⟩

/-! ### The health body -/

def metadataPairs (info : GeoIpDbMetadata) : List (Bytes × Bytes) :=
  [(ascii "database_type", jsonString info.databaseType),
    (ascii "build_epoch", dec info.buildEpoch.toNat),
    (ascii "build_date", jsonString info.buildTime),
    (ascii "age_days", info.ageDays.formatF 1),
    (ascii "age_ms", dec info.ageMs.toNat),
    (ascii "age_ns", dec info.ageNs.toNat)]

def healthDbPair (db : MetricsDbInfo) : Bytes × Bytes :=
  (jsonEscape db.name,
    compactObject ((ascii "open", if db.isOpen then ascii "true" else ascii "false") ::
      match db.metadata with
      | none => []
      | some info => metadataPairs info))

def healthPairs (dbs : List MetricsDbInfo) (version mmdbLibVersion : Bytes)
    (uptimeSeconds : Binary64) : List (Bytes × Bytes) :=
  [(ascii "status", ascii "\"ok\""),
    (ascii "version", jsonString version),
    (ascii "libmaxminddb_version", jsonString mmdbLibVersion),
    (ascii "uptime_seconds", uptimeSeconds.formatF 0),
    (ascii "databases", compactObject (dbs.map healthDbPair))]

theorem renderHealthDb_eq (db : MetricsDbInfo) :
    renderHealthDb db = compactPair (healthDbPair db) := by
  have member := ascii_nextMember
  have start : ascii ":\x7b\"open\":" = 58 :: 123 :: 34 :: (ascii "open" ++ [34, 58]) := rfl
  unfold renderHealthDb healthDbPair
  cases db.metadata with
  | none =>
      simp only [jsonString, compactObject, compactMembers, compactPair, pairText,
        List.append_assoc, List.nil_append, List.cons_append, List.append_nil, start]
      rfl
  | some info =>
      unfold renderMetadata metadataPairs
      simp only [jsonString, compactObject, compactMembers, compactPair, pairText,
        List.append_assoc, List.nil_append, List.cons_append, List.append_nil, start,
        member ",\"database_type\":" "database_type" rfl,
        member ",\"build_epoch\":" "build_epoch" rfl,
        member ",\"build_date\":" "build_date" rfl,
        member ",\"age_days\":" "age_days" rfl,
        member ",\"age_ms\":" "age_ms" rfl, member ",\"age_ns\":" "age_ns" rfl]
      rfl

theorem renderHealthJson_eq (dbs : List MetricsDbInfo) (version mmdbLibVersion : Bytes)
    (uptimeSeconds : Binary64) :
    renderHealthJson dbs version mmdbLibVersion uptimeSeconds =
      compactObject (healthPairs dbs version mmdbLibVersion uptimeSeconds) := by
  have member := ascii_nextMember
  have start : ascii "\x7b\"status\":\"ok\"" =
      123 :: 34 :: (ascii "status" ++ 34 :: 58 :: ascii "\"ok\"") := rfl
  have nested : ∀ rest, ascii ",\"databases\":\x7b" ++ rest =
      44 :: 34 :: (ascii "databases" ++ 34 :: 58 :: 123 :: rest) := by
    intro rest
    have literal : ascii ",\"databases\":\x7b" =
        44 :: 34 :: (ascii "databases" ++ [34, 58, 123]) := rfl
    simp [literal]
  have members : (ascii ",").intercalate (dbs.map renderHealthDb) =
      compactMembers (dbs.map healthDbPair) := by
    rw [compactMembers_eq_intercalate, List.map_map]
    exact congrArg _ (List.map_congr_left fun db _ => renderHealthDb_eq db)
  unfold renderHealthJson healthPairs
  rw [members]
  simp only [compactObject, compactMembers, compactPair, pairText, List.append_assoc,
    List.nil_append, List.cons_append, List.append_nil, start, nested,
    member ",\"version\":" "version" rfl,
    member ",\"libmaxminddb_version\":" "libmaxminddb_version" rfl,
    member ",\"uptime_seconds\":" "uptime_seconds" rfl]
  rfl

/-- What is said about a database that is open. -/
def metadataMembers (info : GeoIpDbMetadata) : List (Bytes × Json) :=
  [(ascii "database_type", .str info.databaseType),
    (ascii "build_epoch", .num info.buildEpoch.toNat),
    (ascii "build_date", .str info.buildTime),
    (ascii "age_days", .num (Binary64.roundPlaces 1 info.ageDays.value)),
    (ascii "age_ms", .num info.ageMs.toNat),
    (ascii "age_ns", .num info.ageNs.toNat)]

def healthDbMember (db : MetricsDbInfo) : Bytes × Json :=
  (db.name,
    .obj ((ascii "open", .bool db.isOpen) ::
      match db.metadata with
      | none => []
      | some info => metadataMembers info))

def healthObject (dbs : List MetricsDbInfo) (version mmdbLibVersion : Bytes)
    (uptimeSeconds : Binary64) : Json :=
  .obj
    [(ascii "status", .str (ascii "ok")),
      (ascii "version", .str version),
      (ascii "libmaxminddb_version", .str mmdbLibVersion),
      (ascii "uptime_seconds", .num (Binary64.roundPlaces 0 uptimeSeconds.value)),
      (ascii "databases", .obj (dbs.map healthDbMember))]

theorem metadataPairs_forall₂ {info : GeoIpDbMetadata} (finite : info.ageDays.isFinite = true) :
    List.Forall₂ PairDerives (metadataPairs info) (metadataMembers info) := by
  refine .cons (pairDerives_named rfl (derives_jsonString _)) ?_
  refine .cons (pairDerives_named rfl (derives_dec _)) ?_
  refine .cons (pairDerives_named rfl (derives_jsonString _)) ?_
  refine .cons (pairDerives_named rfl (derives_formatF 1 finite)) ?_
  refine .cons (pairDerives_named rfl (derives_dec _)) ?_
  exact .cons (pairDerives_named rfl (derives_dec _)) .nil

theorem healthDbPair_denotes {db : MetricsDbInfo}
    (finite : ∀ info ∈ db.metadata, info.ageDays.isFinite = true) :
    PairDerives (healthDbPair db) (healthDbMember db) := by
  have flag : Derives (.value (.bool db.isOpen))
      (if db.isOpen then ascii "true" else ascii "false") := by
    cases db.isOpen with
    | true => exact .true
    | false => exact .false
  refine ⟨jsonEscape_chars db.name, derives_compactObject (.cons (pairDerives_named rfl flag) ?_)⟩
  cases metadata : db.metadata with
  | none => exact .nil
  | some info => exact metadataPairs_forall₂ (finite info metadata)

theorem isText_renderHealthJson {dbs : List MetricsDbInfo} {uptimeSeconds : Binary64}
    (ages : ∀ db ∈ dbs, ∀ info ∈ db.metadata, info.ageDays.isFinite = true)
    (uptime : uptimeSeconds.isFinite = true) (version mmdbLibVersion : Bytes) :
    IsText (healthObject dbs version mmdbLibVersion uptimeSeconds)
      (renderHealthJson dbs version mmdbLibVersion uptimeSeconds) := by
  have databases : List.Forall₂ PairDerives (dbs.map healthDbPair) (dbs.map healthDbMember) := by
    rw [List.forall₂_map_left_iff, List.forall₂_map_right_iff, List.forall₂_same]
    intro db mem
    exact healthDbPair_denotes (ages db mem)
  have ok : Derives (.value (.str (ascii "ok"))) (ascii "\"ok\"") := .str (chars_ascii rfl)
  rw [renderHealthJson_eq]
  apply isText_compactObject
  refine .cons (pairDerives_named rfl ok) ?_
  refine .cons (pairDerives_named rfl (derives_jsonString _)) ?_
  refine .cons (pairDerives_named rfl (derives_jsonString _)) ?_
  refine .cons (pairDerives_named rfl (derives_formatF 0 uptime)) ?_
  exact .cons (pairDerives_named rfl (derives_compactObject databases)) .nil

/-! ### Text bodies -/

def iniText (entries : List (Bytes × Bytes)) : Bytes :=
  entries.flatMap fun entry => entry.1 ++ ascii "=" ++ entry.2 ++ ascii "\n"

/-- A key without `=`, and no control byte on the line. -/
def CleanEntry (entry : Bytes × Bytes) : Prop :=
  61 ∉ entry.1 ∧ NoControl entry.1 ∧ NoControl entry.2

/-- Newline-terminated `key=value` lines with distinct keys and no control byte
inside a line. -/
def IniText (body : Bytes) : Prop :=
  ∃ entries, body = iniText entries ∧ (entries.map Prod.fst).Nodup ∧
    ∀ entry ∈ entries, CleanEntry entry

/-- A fact about the entry a present value makes. -/
theorem forall_headerOf {α : Type} {P : Bytes × Bytes → Prop} {name : Bytes} {text : α → Bytes}
    (h : ∀ v, P (name, text v)) (value : Option α) : ∀ entry ∈ headerOf name text value, P entry := by
  intro entry mem
  cases value with
  | none => simp [headerOf] at mem
  | some v =>
      obtain rfl : entry = (name, text v) := by simpa [headerOf] using mem
      exact h v

theorem headerOf_keys_sublist {α : Type} (name : Bytes) (text : α → Bytes) (value : Option α) :
    ((headerOf name text value).map Prod.fst).Sublist [name] := by
  cases value <;> simp [headerOf]

theorem iniLine_eq {α : Type} (key : Bytes) (text : α → Bytes) (value : Option α) :
    iniLine key text value = iniText (headerOf key text value) := by
  cases value <;> simp [iniLine, iniText, headerOf]

/-- The entries of the text body. -/
def iniEntries (ipText : Bytes) (result : GeoIpResult) : List (Bytes × Bytes) :=
  [(ascii "ip", sanitizeHeaderValue ipText)]
    ++ headerOf (ascii "country_code") sanitizeHeaderValue result.countryCode
    ++ headerOf (ascii "country_name") sanitizeHeaderValue result.countryName
    ++ headerOf (ascii "continent_code") sanitizeHeaderValue result.continentCode
    ++ headerOf (ascii "asn") (fun n => dec n.toNat) result.asn
    ++ headerOf (ascii "as_org") sanitizeHeaderValue result.asOrg
    ++ headerOf (ascii "city_name") sanitizeHeaderValue result.cityName
    ++ headerOf (ascii "postal_code") sanitizeHeaderValue result.postalCode
    ++ headerOf (ascii "latitude") formatDouble result.latitude
    ++ headerOf (ascii "longitude") formatDouble result.longitude
    ++ headerOf (ascii "accuracy_radius") (fun n => dec n.toNat) result.accuracyRadius

theorem iniText_append (a b : List (Bytes × Bytes)) :
    iniText (a ++ b) = iniText a ++ iniText b := List.flatMap_append

theorem buildIniBody_eq (ipText : Bytes) (result : GeoIpResult) :
    buildIniBody ipText result = iniText (iniEntries ipText result) := by
  have first : iniText [(ascii "ip", sanitizeHeaderValue ipText)] =
      ascii "ip=" ++ sanitizeHeaderValue ipText ++ ascii "\n" := List.append_nil _
  unfold buildIniBody iniEntries
  simp only [iniLine_eq, iniText_append, first]

theorem iniEntries_keys_sublist (ipText : Bytes) (result : GeoIpResult) :
    ((iniEntries ipText result).map Prod.fst).Sublist
      ([ascii "ip"] ++ [ascii "country_code"] ++ [ascii "country_name"] ++ [ascii "continent_code"]
        ++ [ascii "asn"] ++ [ascii "as_org"] ++ [ascii "city_name"] ++ [ascii "postal_code"]
        ++ [ascii "latitude"] ++ [ascii "longitude"] ++ [ascii "accuracy_radius"]) := by
  unfold iniEntries
  simp only [List.map_append]
  iterate 10 refine List.Sublist.append ?_ (headerOf_keys_sublist _ _ _)
  exact List.Sublist.refl _

theorem formatDouble_noControl (d : Binary64) : NoControl (formatDouble d) :=
  Binary64.format_noControl (Binary64.literalG_wf 8) d

theorem cleanEntry_ascii {key : String} {value : Bytes}
    (h : (ascii key).all (fun b => !isControl b && b != 61) = true) (clean : NoControl value) :
    CleanEntry (ascii key, value) := by
  have each := List.all_eq_true.mp h
  refine ⟨?_, ?_, clean⟩
  · intro mem
    exact absurd (each 61 mem) (by decide)
  · intro b mem
    have := each b mem
    simp only [Bool.and_eq_true, Bool.not_eq_true'] at this
    exact this.1

theorem iniEntries_clean (ipText : Bytes) (result : GeoIpResult) :
    ∀ entry ∈ iniEntries ipText result, CleanEntry entry := by
  have text := sanitizeHeaderValue_noControl
  have double := formatDouble_noControl
  intro entry mem
  simp only [iniEntries, List.mem_append, or_assoc] at mem
  rcases mem with mem | mem | mem | mem | mem | mem | mem | mem | mem | mem | mem
  · obtain rfl : entry = (ascii "ip", sanitizeHeaderValue ipText) := by simpa using mem
    exact cleanEntry_ascii rfl (text _)
  · exact forall_headerOf (fun v => cleanEntry_ascii rfl (text v)) _ entry mem
  · exact forall_headerOf (fun v => cleanEntry_ascii rfl (text v)) _ entry mem
  · exact forall_headerOf (fun v => cleanEntry_ascii rfl (text v)) _ entry mem
  · exact forall_headerOf (fun v => cleanEntry_ascii rfl (dec_noControl _)) _ entry mem
  · exact forall_headerOf (fun v => cleanEntry_ascii rfl (text v)) _ entry mem
  · exact forall_headerOf (fun v => cleanEntry_ascii rfl (text v)) _ entry mem
  · exact forall_headerOf (fun v => cleanEntry_ascii rfl (text v)) _ entry mem
  · exact forall_headerOf (fun v => cleanEntry_ascii rfl (double v)) _ entry mem
  · exact forall_headerOf (fun v => cleanEntry_ascii rfl (double v)) _ entry mem
  · exact forall_headerOf (fun v => cleanEntry_ascii rfl (dec_noControl _)) _ entry mem

/-- The text body keeps to its form, whatever bytes the strings hold. -/
theorem iniText_buildIniBody (ipText : Bytes) (result : GeoIpResult) :
    IniText (buildIniBody ipText result) := by
  refine ⟨iniEntries ipText result, buildIniBody_eq ipText result, ?_,
    iniEntries_clean ipText result⟩
  exact (iniEntries_keys_sublist ipText result).nodup (by decide)

/-- One line with a literal key. -/
theorem iniText_line {key : String} {value : Bytes}
    (h : (ascii key).all (fun b => !isControl b && b != 61) = true) (clean : NoControl value) :
    IniText (ascii key ++ ascii "=" ++ value ++ ascii "\n") := by
  refine ⟨[(ascii key, value)], (List.append_nil _).symm, by simp, ?_⟩
  exact List.forall_mem_singleton.mpr (cleanEntry_ascii h clean)

end Nshgeoip
