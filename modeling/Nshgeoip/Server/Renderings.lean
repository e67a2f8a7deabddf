import Nshgeoip.Lib.Lines
import Nshgeoip.Server.Bodies

/-!
The three renderings of a lookup: the JSON body, the text body and the
`X-GeoIP-*` headers.

The source writes each of them field by field. `fieldViews` is the one table they
are compared with: the ten fields of a result in their order, each with its key, its
header and what it has to show. Each rendering is one way to print the table, and
the ways differ in a single point, the bytes of a text (`Shown.json`,
`Shown.plain`).
-/

namespace Nshgeoip

open ByteText JsonText

/-! ### The table -/

/-- The value of a field that is present. -/
inductive Shown where
  | text (s : Bytes)
  | count (n : Nat)
  | coordinate (d : Binary64)

namespace Shown

def isText : Shown → Bool
  | text _ => true
  | _ => false

/-- The text of the value in the JSON body. -/
def json : Shown → Bytes
  | text s => jsonString s
  | count n => dec n
  | coordinate d => formatDouble d

/-- The text of the value in a text line and in a header. -/
def plain : Shown → Bytes
  | text s => sanitizeHeaderValue s
  | count n => dec n
  | coordinate d => formatDouble d

/-- What the JSON text stands for. -/
def value : Shown → Json
  | text s => .str s
  | count n => .num n
  | coordinate d => Nshgeoip.coordinate d

end Shown

structure FieldView where
  key : Bytes
  /-- The name of its header, if it has one. -/
  header : Option Bytes
  shown : Option Shown

namespace FieldView

/-- The member of the JSON body, as printed. -/
def member (f : FieldView) : Bytes × Bytes := (f.key, jsonOr Shown.json f.shown)

/-- The line of the text body, if there is one. -/
def line (f : FieldView) : Option Bytes := f.shown.map fun v => f.key ++ ascii "=" ++ v.plain

/-- The header, if there is one. -/
def headerLine (f : FieldView) : Option (Bytes × Bytes) :=
  f.header.bind fun name => f.shown.map fun v => (name, v.plain)

end FieldView

/-- The ten fields of a result. -/
def fieldViews (result : GeoIpResult) : List FieldView :=
  [⟨ascii "country_code", some (ascii "X-GeoIP-Country"), result.countryCode.map .text⟩,
    ⟨ascii "country_name", none, result.countryName.map .text⟩,
    ⟨ascii "continent_code", some (ascii "X-GeoIP-Continent"), result.continentCode.map .text⟩,
    ⟨ascii "asn", some (ascii "X-GeoIP-ASN"), result.asn.map fun n => .count n.toNat⟩,
    ⟨ascii "as_org", some (ascii "X-GeoIP-AS-Org"), result.asOrg.map .text⟩,
    ⟨ascii "city_name", some (ascii "X-GeoIP-City"), result.cityName.map .text⟩,
    ⟨ascii "postal_code", some (ascii "X-GeoIP-Postal-Code"), result.postalCode.map .text⟩,
    ⟨ascii "latitude", some (ascii "X-GeoIP-Latitude"), result.latitude.map .coordinate⟩,
    ⟨ascii "longitude", some (ascii "X-GeoIP-Longitude"), result.longitude.map .coordinate⟩,
    ⟨ascii "accuracy_radius", some (ascii "X-GeoIP-Accuracy-Radius"),
      result.accuracyRadius.map fun n => .count n.toNat⟩]

/-! ### The renderings print the table -/

section Map

variable {α β : Type} (f : α → β)

theorem jsonOr_map (text : β → Bytes) (o : Option α) :
    jsonOr text (o.map f) = jsonOr (fun v => text (f v)) o := by
  cases o <;> rfl

theorem nullOr_map (value : β → Json) (o : Option α) :
    nullOr value (o.map f) = nullOr (fun v => value (f v)) o := by
  cases o <;> rfl

end Map

theorem headerOf_eq_toList {α : Type} (name : Bytes) (text : α → Bytes) (o : Option α) :
    headerOf name text o = (o.map fun v => (name, text v)).toList := by
  cases o <;> rfl

theorem buildJsonBody_eq_table (ipText : Bytes) (result : GeoIpResult) :
    buildJsonBody ipText result =
      compactObject ((ascii "ip", jsonString ipText) :: (fieldViews result).map FieldView.member) := by
  rw [buildJsonBody_eq]
  simp only [bodyPairs, fieldViews, List.map_cons, List.map_nil, FieldView.member, jsonOr_map,
    Shown.json]

theorem bodyMembers_eq_table (ipText : Bytes) (result : GeoIpResult) :
    bodyMembers ipText result =
      (ascii "ip", .str ipText) ::
        (fieldViews result).map fun f => (f.key, nullOr Shown.value f.shown) := by
  simp only [bodyMembers, fieldViews, List.map_cons, List.map_nil, nullOr_map, Shown.value]

theorem successHeaders_eq_table (result : GeoIpResult) :
    successHeaders result = (fieldViews result).filterMap FieldView.headerLine := by
  rw [List.filterMap_eq_flatMap_toList]
  simp only [successHeaders, fieldViews, headerOf_eq_toList, FieldView.headerLine, List.flatMap_cons,
    List.flatMap_nil, Option.bind_some, Option.bind_none, Option.map_map, Option.toList_none,
    List.append_nil, List.nil_append, List.append_assoc]
  rfl

/-- The text body is its lines, each with a newline behind it. -/
theorem buildIniBody_eq_table (ipText : Bytes) (result : GeoIpResult) :
    buildIniBody ipText result =
      terminated ((ascii "ip" ++ ascii "=" ++ sanitizeHeaderValue ipText) ::
        (fieldViews result).filterMap FieldView.line) := by
  have text : ∀ entries : List (Bytes × Bytes), iniText entries =
      terminated (entries.map fun e => e.1 ++ ascii "=" ++ e.2) := by
    intro entries
    rw [terminated, List.flatMap_map]
    rfl
  have entries : (iniEntries ipText result).map (fun e => e.1 ++ ascii "=" ++ e.2) =
      (ascii "ip" ++ ascii "=" ++ sanitizeHeaderValue ipText) ::
        (fieldViews result).filterMap FieldView.line := by
    rw [List.filterMap_eq_flatMap_toList]
    simp only [iniEntries, fieldViews, headerOf_eq_toList, FieldView.line, List.flatMap_cons,
      List.flatMap_nil, List.append_nil, List.map_append, List.map_cons,
      List.map_nil, Option.toList_map, List.map_map, List.append_assoc]
    rfl
  rw [buildIniBody_eq, text, entries]

/-! ### One field in the three renderings -/

/-- A text without its control bytes. -/
def visible (s : Bytes) : Bytes := s.filter fun b => !isControl b

theorem sanitizeHeaderValue_eq_visible (s : Bytes) : sanitizeHeaderValue s = visible s := by
  refine List.filter_congr fun b _ => ?_
  -- The source names CR and LF as well; both are below the space.
  have same : (b = 13 ∨ b = 10 ∨ b < 0x20 ∨ b = 0x7f) ↔ (b < 32 ∨ b = 127) := by
    constructor
    · rintro (rfl | rfl | low | del)
      · exact .inl (by decide)
      · exact .inl (by decide)
      · exact .inl low
      · exact .inr del
    · rintro (low | del)
      · exact .inr (.inr (.inl low))
      · exact .inr (.inr (.inr del))
  rw [isControl, decide_eq_decide.mpr same]

/-- How the renderings of a field go together: it has a line iff it is not null, and a
header iff it has a line; a number has one text; a text is shown without the control
bytes of what its JSON string decodes to. -/
structure FieldView.Agrees (f : FieldView) : Prop where
  line_iff : f.line.isSome = true ↔ f.member.2 ≠ ascii "null"
  header_iff : f.key ≠ ascii "country_name" → (f.headerLine.isSome = true ↔ f.line.isSome = true)
  number : ∀ v, f.shown = some v → v.isText = false →
    f.line = some (f.key ++ ascii "=" ++ f.member.2) ∧
      ∀ name, f.header = some name → f.headerLine = some (name, f.member.2)
  text : ∀ s, f.shown = some (.text s) →
    decode f.member.2 = some (.str s) ∧ f.line = some (f.key ++ ascii "=" ++ visible s) ∧
      ∀ name, f.header = some name → f.headerLine = some (name, visible s)

theorem decode_of_derives {v : Json} {text : Bytes} (h : Derives (.value v) text) :
    decode text = some v :=
  decode_of_isText ⟨[], text, [], ws_nil, ws_nil, h, by simp⟩

theorem derives_ne_null {v : Json} {text : Bytes} (h : Derives (.value v) text) (some : v ≠ .null) :
    text ≠ ascii "null" := by
  rintro rfl
  have decoded := decode_of_derives h
  rw [decode_of_derives .null] at decoded
  exact some (Option.some.inj decoded).symm

/-- No value that is present prints as `null`. -/
theorem Shown.json_ne_null (v : Shown) : v.json ≠ ascii "null" := by
  cases v with
  | text s => exact derives_ne_null (derives_jsonString s) (by simp)
  | count n => exact derives_ne_null (derives_dec n) (by simp)
  | coordinate d =>
      cases finite : d.isFinite with
      | true => exact derives_ne_null (derives_formatDouble finite) (by simp)
      | false =>
          intro null
          have refused := refused_formatDouble finite
          have read := refused 1 []
          change formatDouble d = ascii "null" at null
          rw [null] at read
          cases read

theorem FieldView.agrees {f : FieldView} (headed : f.key ≠ ascii "country_name" → f.header ≠ none) :
    f.Agrees := by
  obtain ⟨key, header, shown⟩ := f
  constructor
  case line_iff =>
    cases shown with
    | none => simp [line, member, jsonOr]
    | some v => simp [line, member, jsonOr, v.json_ne_null]
  case header_iff =>
    intro other
    obtain ⟨name, rfl⟩ := Option.ne_none_iff_exists'.mp (headed other)
    cases shown <;> simp [line, headerLine]
  case number =>
    rintro v rfl number
    have same : v.plain = v.json := by
      cases v with
      | text s => cases number
      | count n => rfl
      | coordinate d => rfl
    refine ⟨by simp [line, member, jsonOr, same], ?_⟩
    rintro name rfl
    simp [headerLine, member, jsonOr, same]
  case text =>
    rintro s rfl
    refine ⟨decode_of_derives (derives_jsonString s), ?_, ?_⟩
    · simp [line, Shown.plain, sanitizeHeaderValue_eq_visible]
    · rintro name rfl
      simp [headerLine, Shown.plain, sanitizeHeaderValue_eq_visible]

/-! ### Lines -/

theorem not_mem_of_noControl {s : Bytes} (h : NoControl s) : 10 ∉ s := by
  intro mem
  exact absurd (h 10 mem) (by decide)

theorem Shown.plain_noControl (v : Shown) : NoControl v.plain := by
  cases v with
  | text s => exact sanitizeHeaderValue_noControl s
  | count n => exact dec_noControl n
  | coordinate d => exact formatDouble_noControl d

/-- The keys, and which of them go without a header. -/
theorem fieldViews_keys (result : GeoIpResult) :
    ∀ f ∈ fieldViews result, NoControl f.key ∧
      (f.key ≠ ascii "country_name" → f.header ≠ none) := by
  have names : ∀ p ∈ (fieldViews result).map fun f => (f.key, f.header),
      NoControl p.1 ∧ (p.1 ≠ ascii "country_name" → p.2 ≠ none) := by
    change ∀ p ∈ [(ascii "country_code", some (ascii "X-GeoIP-Country")), (ascii "country_name", none),
      (ascii "continent_code", some (ascii "X-GeoIP-Continent")),
      (ascii "asn", some (ascii "X-GeoIP-ASN")), (ascii "as_org", some (ascii "X-GeoIP-AS-Org")),
      (ascii "city_name", some (ascii "X-GeoIP-City")),
      (ascii "postal_code", some (ascii "X-GeoIP-Postal-Code")),
      (ascii "latitude", some (ascii "X-GeoIP-Latitude")),
      (ascii "longitude", some (ascii "X-GeoIP-Longitude")),
      (ascii "accuracy_radius", some (ascii "X-GeoIP-Accuracy-Radius"))], _
    unfold NoControl
    decide +kernel
  intro f mem
  exact names (f.key, f.header) (List.mem_map_of_mem mem)

theorem line_noControl {result : GeoIpResult} {f : FieldView} (mem : f ∈ fieldViews result)
    {line : Bytes} (h : f.line = some line) : NoControl line := by
  obtain ⟨v, -, rfl⟩ := Option.map_eq_some_iff.mp h
  have separator : NoControl (ascii "=") := noControl_ascii rfl
  exact ((fieldViews_keys result f mem).1.append separator).append v.plain_noControl

/-- **The three renderings of a lookup agree**, for every address text and every result.
Split at newlines the text body is the `ip` line and one line for each field that is
present, in order; the JSON body is the object of the address and the ten fields, and
decodes to them when the coordinates are finite; the headers are those of the fields
that are present, for every format; and each field is shown alike in all three. -/
theorem renderings_agree (ipText : Bytes) (result : GeoIpResult) (format : ResponseFormat) :
    (buildIniBody ipText result).splitOn 10 =
      (ascii "ip" ++ ascii "=" ++ visible ipText) ::
        (fieldViews result).filterMap FieldView.line ++ [[]] ∧
    buildJsonBody ipText result =
      compactObject ((ascii "ip", jsonString ipText) :: (fieldViews result).map FieldView.member) ∧
    (Finite result.latitude → Finite result.longitude →
      decode (buildJsonBody ipText result) =
        some (.obj ((ascii "ip", .str ipText) ::
          (fieldViews result).map fun f => (f.key, nullOr Shown.value f.shown)))) ∧
    (buildSuccessResponse ipText result format).headers =
      (fieldViews result).filterMap FieldView.headerLine ∧
    ∀ f ∈ fieldViews result, f.Agrees := by
  refine ⟨?_, buildJsonBody_eq_table ipText result, ?_, successHeaders_eq_table result, ?_⟩
  · rw [buildIniBody_eq_table, sanitizeHeaderValue_eq_visible, splitOn_terminated]
    intro line mem
    rcases List.mem_cons.mp mem with rfl | field
    · rw [← sanitizeHeaderValue_eq_visible]
      have key : NoControl (ascii "ip" ++ ascii "=") :=
        (noControl_ascii rfl).append (noControl_ascii rfl)
      exact not_mem_of_noControl (key.append (sanitizeHeaderValue_noControl ipText))
    · obtain ⟨f, inTable, shown⟩ := List.mem_filterMap.mp field
      exact not_mem_of_noControl (line_noControl inTable shown)
  · intro latitude longitude
    rw [← bodyMembers_eq_table]
    exact decode_of_isText (isText_buildJsonBody ipText latitude longitude)
  · intro f mem
    exact FieldView.agrees (fieldViews_keys result f mem).2

end Nshgeoip
