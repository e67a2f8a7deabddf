import Nshgeoip.Config
import Nshgeoip.Lib.Search

/-!
The law of `apply_default_db_paths`.

`AutoDetected` says what the call is for, field by field: an empty slot takes the
file of the first directory that has it, a set one is kept, and a country database
is looked for only while no city database is there. `resolveDbSlot_eq` is the one
fact about the loop over the directories; the rest is about three slots.
-/

namespace Nshgeoip

open ByteText ListSearch

/-! ### One slot -/

/-- `dir + "/" + filename`. -/
def databaseIn (filename : String) (dir : Bytes) : Bytes := dir ++ ascii "/" ++ ascii filename

section Slot

variable (regular : Bytes → Bool) (dirs : List Bytes)

/-- What an empty slot is filled with: the file of the first directory that has it,
or nothing if none does. -/
def FirstIn (filename : String) (path : Bytes) : Prop :=
  (∃ before dir after, dirs = before ++ dir :: after ∧ path = databaseIn filename dir ∧
      regular path = true ∧ ∀ d ∈ before, regular (databaseIn filename d) = false) ∨
    path = [] ∧ ∀ d ∈ dirs, regular (databaseIn filename d) = false

/-- A slot after the search. -/
def detected (field : Bytes) (filename : String) : Bytes :=
  if field ≠ [] then field else ((dirs.map (databaseIn filename)).find? regular).getD []

/-- The note on a slot that was filled. -/
def substitutionNote (key : String) (field path : Bytes) : List Bytes :=
  if field = [] ∧ path ≠ [] then
    [ascii key ++ ascii " not set, using " ++ path ++ ascii " (auto-detected)"]
  else []

theorem databaseIn_ne_nil (filename : String) (dir : Bytes) : databaseIn filename dir ≠ [] := by
  simp [databaseIn, ascii]

theorem resolveDbSlot_eq (field : Bytes) (key filename : String) (notes : List Bytes) :
    resolveDbSlot regular field key filename dirs notes =
      (detected regular dirs field filename,
        notes ++ substitutionNote key field (detected regular dirs field filename)) := by
  unfold resolveDbSlot detected
  by_cases unset : field = []
  · subst unset
    have candidates : (dirs.map fun dir => dir ++ ascii "/" ++ ascii filename) =
        dirs.map (databaseIn filename) := rfl
    simp only [ne_eq, not_true_eq_false, if_false, candidates]
    cases found : (dirs.map (databaseIn filename)).find? regular with
    | none => simp [substitutionNote]
    | some path =>
        obtain ⟨dir, -, rfl⟩ := List.mem_map.mp (List.mem_of_find?_eq_some found)
        simp [substitutionNote, databaseIn_ne_nil]
  · simp [unset, substitutionNote]

theorem firstIn_detected (filename : String) : FirstIn regular dirs filename
    (detected regular dirs [] filename) := by
  simp only [detected, ne_eq, not_true_eq_false, if_false]
  cases found : (dirs.map (databaseIn filename)).find? regular with
  | none =>
      right
      exact ⟨rfl, find?_map_eq_none_iff.mp found⟩
  | some path =>
      left
      obtain ⟨before, dir, after, split, rfl, here, earlier⟩ := find?_map_eq_some_iff.mp found
      exact ⟨before, dir, after, split, rfl, here, earlier⟩

/-- A slot ends up with a file iff its configured path has one or, with no path
configured, one of the directories does. -/
theorem detected_regular_iff (field : Bytes) (filename : String) :
    detected regular dirs field filename ≠ [] ∧
        regular (detected regular dirs field filename) = true ↔
      (field ≠ [] ∧ regular field = true) ∨
        field = [] ∧ ∃ dir ∈ dirs, regular (databaseIn filename dir) = true := by
  by_cases unset : field = []
  · subst unset
    simp only [ne_eq, not_true_eq_false, false_and, true_and, false_or]
    rcases firstIn_detected regular dirs filename with ⟨before, dir, after, rfl, path, here, -⟩ |
      ⟨nothing, absent⟩
    · rw [path] at here ⊢
      exact iff_of_true ⟨databaseIn_ne_nil filename dir, here⟩ ⟨dir, by simp, here⟩
    · refine iff_of_false (fun found => found.1 nothing) ?_
      rintro ⟨dir, mem, here⟩
      rw [absent dir mem] at here
      cases here
  · simp [detected, unset]

theorem detected_of_set {field : Bytes} (set : field ≠ []) (filename : String) :
    detected regular dirs field filename = field := if_pos set

/-- A second search finds what the first one found. -/
theorem detected_again (field : Bytes) (filename : String) :
    detected regular dirs (detected regular dirs field filename) filename =
      detected regular dirs field filename := by
  by_cases empty : detected regular dirs field filename = []
  · have unset : field = [] := by
      by_contra set
      rw [detected_of_set regular dirs set] at empty
      exact set empty
    rw [empty, ← unset, empty, unset]
  · exact detected_of_set regular dirs empty filename

/-- Filling a slot is the only way to change it. -/
theorem detected_ne_iff (field : Bytes) (filename : String) :
    detected regular dirs field filename ≠ field ↔
      field = [] ∧ detected regular dirs field filename ≠ [] := by
  by_cases unset : field = []
  · simp [unset]
  · simp [unset, detected_of_set]

theorem length_substitutionNote (key filename : String) (field : Bytes) :
    (substitutionNote key field (detected regular dirs field filename)).length =
      if detected regular dirs field filename ≠ field then 1 else 0 := by
  rw [substitutionNote]
  simp only [detected_ne_iff]
  split <;> rfl

end Slot

/-! ### The three slots -/

/-- The note on a country database that is not looked for. -/
def skippedNote : Bytes :=
  ascii ("country_db not set, skipping auto-detect: " ++
    "city_db already supplies country/continent data")

/-- What `apply_default_db_paths` is for. -/
structure AutoDetected (regular : Bytes → Bool) (dirs : List Bytes) (cfg out : Config)
    (notes : List Bytes) : Prop where
  others : out =
    { cfg with countryDb := out.countryDb, asnDb := out.asnDb, cityDb := out.cityDb }
  kept : (cfg.countryDb ≠ [] → out.countryDb = cfg.countryDb) ∧
    (cfg.asnDb ≠ [] → out.asnDb = cfg.asnDb) ∧ (cfg.cityDb ≠ [] → out.cityDb = cfg.cityDb)
  city : cfg.cityDb = [] → FirstIn regular dirs "GeoLite2-City.mmdb" out.cityDb
  asn : cfg.asnDb = [] → FirstIn regular dirs "GeoLite2-ASN.mmdb" out.asnDb
  country : cfg.countryDb = [] → out.cityDb = [] →
    FirstIn regular dirs "GeoLite2-Country.mmdb" out.countryDb
  skipped : out.cityDb ≠ [] → out.countryDb = cfg.countryDb
  messages : notes =
    substitutionNote "city_db" cfg.cityDb out.cityDb
      ++ substitutionNote "asn_db" cfg.asnDb out.asnDb
      ++ substitutionNote "country_db" cfg.countryDb out.countryDb
      ++ (if out.cityDb ≠ [] ∧ out.countryDb = [] then [skippedNote] else [])
  /-- One note for each substitution and one for the search left out. -/
  count : notes.length =
    (if out.cityDb ≠ cfg.cityDb then 1 else 0) + (if out.asnDb ≠ cfg.asnDb then 1 else 0)
      + (if out.countryDb ≠ cfg.countryDb then 1 else 0)
      + (if out.cityDb ≠ [] ∧ out.countryDb = [] then 1 else 0)
  again : (applyDefaultDbPaths regular dirs out).1 = out

section Slots

variable (regular : Bytes → Bool) (dirs : List Bytes) (cfg : Config)

/-- The city slot gates the country slot. -/
def detectedCountry : Bytes :=
  if detected regular dirs cfg.cityDb "GeoLite2-City.mmdb" ≠ [] then cfg.countryDb
  else detected regular dirs cfg.countryDb "GeoLite2-Country.mmdb"

/-- The fields after the call. -/
theorem applyDefaultDbPaths_fields :
    (applyDefaultDbPaths regular dirs cfg).1 =
      { cfg with
        countryDb := detectedCountry regular dirs cfg
        asnDb := detected regular dirs cfg.asnDb "GeoLite2-ASN.mmdb"
        cityDb := detected regular dirs cfg.cityDb "GeoLite2-City.mmdb" } := by
  unfold applyDefaultDbPaths detectedCountry
  simp only [resolveDbSlot_eq]
  split <;> rfl

/-- The notes of the call. -/
theorem applyDefaultDbPaths_notes :
    (applyDefaultDbPaths regular dirs cfg).2 =
      substitutionNote "city_db" cfg.cityDb (detected regular dirs cfg.cityDb "GeoLite2-City.mmdb")
        ++ substitutionNote "asn_db" cfg.asnDb (detected regular dirs cfg.asnDb "GeoLite2-ASN.mmdb")
        ++ substitutionNote "country_db" cfg.countryDb (detectedCountry regular dirs cfg)
        ++ (if detected regular dirs cfg.cityDb "GeoLite2-City.mmdb" ≠ [] ∧
              detectedCountry regular dirs cfg = [] then [skippedNote] else []) := by
  unfold applyDefaultDbPaths detectedCountry
  simp only [resolveDbSlot_eq, List.nil_append]
  by_cases city : detected regular dirs cfg.cityDb "GeoLite2-City.mmdb" = []
  · simp [city]
  · have untouched : substitutionNote "country_db" cfg.countryDb cfg.countryDb = [] := by
      by_cases unset : cfg.countryDb = [] <;> simp [substitutionNote, unset]
    simp only [city, ne_eq, not_false_eq_true, if_true, true_and, untouched, List.append_nil]
    by_cases unset : cfg.countryDb = []
    · simp [unset, skippedNote]
    · simp [unset]

theorem detectedCountry_ne_iff :
    detectedCountry regular dirs cfg ≠ cfg.countryDb ↔
      cfg.countryDb = [] ∧ detectedCountry regular dirs cfg ≠ [] := by
  unfold detectedCountry
  split
  · by_cases unset : cfg.countryDb = [] <;> simp [unset]
  · exact detected_ne_iff regular dirs _ _

theorem applyDefaultDbPaths_again :
    (applyDefaultDbPaths regular dirs (applyDefaultDbPaths regular dirs cfg).1).1 =
      (applyDefaultDbPaths regular dirs cfg).1 := by
  have country : detectedCountry regular dirs (applyDefaultDbPaths regular dirs cfg).1 =
      detectedCountry regular dirs cfg := by
    rw [applyDefaultDbPaths_fields]
    simp only [detectedCountry, detected_again]
    split
    · rfl
    · exact detected_again regular dirs _ _
  rw [applyDefaultDbPaths_fields _ _ (applyDefaultDbPaths regular dirs cfg).1, country]
  simp only [applyDefaultDbPaths_fields, detected_again]

/-- **The auto-detection law**, for every configuration, every list of directories
and every file system. -/
theorem applyDefaultDbPaths_autoDetected :
    AutoDetected regular dirs cfg (applyDefaultDbPaths regular dirs cfg).1
      (applyDefaultDbPaths regular dirs cfg).2 := by
  have city := length_substitutionNote regular dirs "city_db" "GeoLite2-City.mmdb" cfg.cityDb
  have asn := length_substitutionNote regular dirs "asn_db" "GeoLite2-ASN.mmdb" cfg.asnDb
  have country : (substitutionNote "country_db" cfg.countryDb
      (detectedCountry regular dirs cfg)).length =
        if detectedCountry regular dirs cfg ≠ cfg.countryDb then 1 else 0 := by
    rw [substitutionNote]
    simp only [detectedCountry_ne_iff]
    split <;> rfl
  have again := applyDefaultDbPaths_again regular dirs cfg
  have notes := applyDefaultDbPaths_notes regular dirs cfg
  rw [applyDefaultDbPaths_fields regular dirs cfg] at again ⊢
  constructor
  case others => rfl
  case kept =>
    refine ⟨?_, fun set => detected_of_set _ _ set _, fun set => detected_of_set _ _ set _⟩
    intro set
    by_contra changed
    exact set ((detectedCountry_ne_iff regular dirs cfg).mp changed).1
  case city =>
    intro unset
    simp only [unset]
    exact firstIn_detected regular dirs _
  case asn =>
    intro unset
    simp only [unset]
    exact firstIn_detected regular dirs _
  case country =>
    intro unset noCity
    simp only [detectedCountry, unset]
    rw [if_neg (not_not_intro noCity)]
    exact firstIn_detected regular dirs _
  case skipped => exact fun set => if_pos set
  case messages => exact notes
  case count =>
    rw [notes]
    simp only [List.length_append, city, asn, country]
    congr 1
    split <;> rfl
  case again => exact again

end Slots

end Nshgeoip
