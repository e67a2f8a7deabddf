import Nshgeoip.CheckDb.Json
import Nshgeoip.CheckDb.Ini
import Nshgeoip.Geoip.Age

/-!
The age of a database, as it is shown.

The header and the manual call `age_ms` and `age_ns` exact conversions of
`now - build_epoch`, and `make_metadata` gets there without looking at the sign or the
size of the difference: the build time is what the file says. `ageIsExact_iff` says when
the three outputs show the age that is meant.
-/

namespace Nshgeoip

open ByteText JsonText

/-! ### What is meant -/

/-- `now - build_epoch`, with the build time as the file has it. -/
def documentedAge (host : Host) (mmdb : Mmdb) : ℤ := host.now.toInt - mmdb.buildEpoch.toNat

/-- An age of `age` seconds in the three units, days to one decimal. -/
def ShowsAge (age : ℤ) (shown : List (Bytes × Json)) : Prop :=
  (∃ days : ℚ, (ascii "age_days", .num days) ∈ shown ∧ |days - age / 86400| < 1 / 10) ∧
    (ascii "age_ms", .num (age * 1000)) ∈ shown ∧
    (ascii "age_ns", .num (age * 1000000000)) ∈ shown

/-- A `key=number` line. -/
def iniNumber (line : Bytes) : Option (Bytes × Json) :=
  (cut [61] line).bind fun row =>
    match Literal.read row.2 with
    | some (l, []) => some (row.1, .num l.value)
    | _ => none

/-- The numbers of an ini text. -/
def iniNumbers (text : Bytes) : List (Bytes × Json) := (text.splitOn 10).filterMap iniNumber

/-- **The age is exact**: both products fit the type they are cast to, the fields hold the
age the documentation speaks of, and every output shows it in all units. -/
structure AgeIsExact (host : Host) (mmdb : Mmdb) : Prop where
  msInRange : 0 ≤ ageSeconds host mmdb * 1000 ∧ ageSeconds host mmdb * 1000 ≤ 2 ^ 64 - 1
  nsInRange :
    0 ≤ ageSeconds host mmdb * 1000000000 ∧ ageSeconds host mmdb * 1000000000 ≤ 2 ^ 64 - 1
  ms : ((makeMetadataExact host mmdb).ageMs.toNat : ℤ) = documentedAge host mmdb * 1000
  ns : ((makeMetadataExact host mmdb).ageNs.toNat : ℤ) = documentedAge host mmdb * 1000000000
  json : ∀ (path : Bytes) (libVersion : CStr) (metadata : MmdbMetadata),
    ∃ members, decode (printMetadataJson
        ⟨path, libVersion, mmdb, metadata, makeMetadataExact host mmdb⟩) = some (.obj members) ∧
      ShowsAge (documentedAge host mmdb) members
  ini : ∀ (path : Bytes) (libVersion : CStr) (metadata : MmdbMetadata),
    ShowsAge (documentedAge host mmdb) (iniNumbers (printMetadataIni
      ⟨path, libVersion, mmdb, metadata, makeMetadataExact host mmdb⟩))
  /-- The other databases of the list have ages of their own. -/
  health : ∀ (dbs : List MetricsDbInfo) (name : Bytes) (isOpen : Bool)
      (version mmdbLibVersion : Bytes) (uptimeSeconds : Binary64),
    ⟨name, isOpen, some (makeMetadataExact host mmdb)⟩ ∈ dbs →
    (∀ db ∈ dbs, ∀ info ∈ db.metadata, info.ageDays.isFinite = true) →
    uptimeSeconds.isFinite = true →
      ∃ top databases members,
        decode (renderHealthJson dbs version mmdbLibVersion uptimeSeconds) = some (.obj top) ∧
        (ascii "databases", .obj databases) ∈ top ∧ (name, .obj members) ∈ databases ∧
        ShowsAge (documentedAge host mmdb) members

/-! ### The casts -/

/-- A build time up to the present survives the cast to `time_t`. -/
theorem ageSeconds_eq {host : Host} {mmdb : Mmdb}
    (past : (mmdb.buildEpoch.toNat : ℤ) ≤ host.now.toInt) :
    ageSeconds host mmdb = documentedAge host mmdb := by
  have now := host.now.toInt_lt
  have same : mmdb.buildEpoch.toInt64.toInt = mmdb.buildEpoch.toNat := by
    have bits : mmdb.buildEpoch.toInt64.toInt = mmdb.buildEpoch.toBitVec.toInt := rfl
    rw [bits, BitVec.toInt_eq_toNat_cond]
    have value : mmdb.buildEpoch.toBitVec.toNat = mmdb.buildEpoch.toNat := rfl
    rw [if_pos (by omega), value]
  rw [ageSeconds, documentedAge, same]

theorem castExact_toNat {host : Host} {v : ℤ} (nonneg : 0 ≤ v) (small : v < 2 ^ 64) :
    ((castExact host v).toNat : ℤ) = v := by
  rw [castExact, if_pos ⟨nonneg, small⟩, Nat.toUInt64_eq, UInt64.toNat_ofNat']
  omega

/-! ### The outputs -/

/-- The fields of `info` in the three units. -/
def ageFields (info : GeoIpDbMetadata) : List (Bytes × Json) :=
  [(ascii "age_days", .num (Binary64.roundPlaces 1 info.ageDays.value)),
    (ascii "age_ms", .num info.ageMs.toNat), (ascii "age_ns", .num info.ageNs.toNat)]

/-- A row of the ini output with a number on it is read back. -/
theorem mem_iniNumbers {db : CheckedDb} {key : Bytes} {l : Literal}
    (row : (key, l.text) ∈ iniRows db) (clean : NoControl key) (plain : 61 ∉ key) (wf : l.WF) :
    (key, Json.num l.value) ∈ iniNumbers (printMetadataIni db) := by
  have line : rowLine (key, l.text) = key ++ 61 :: l.text := by simp [rowLine, ascii]
  have fresh : 10 ∉ rowLine (key, l.text) := by
    have equals : NoControl (ascii "=") := noControl_ascii rfl
    have whole := (clean.append equals).append (Literal.text_noControl wf)
    exact fun newline => absurd (whole 10 newline) (by decide)
  have read := @Literal.read_text l wf [] (by simp [Literal.Follow])
  rw [List.append_nil] at read
  refine List.mem_filterMap.mpr ⟨rowLine (key, l.text), ?_, ?_⟩
  · rw [printMetadataIni_eq]
    exact mem_splitOn_terminated (List.mem_map_of_mem row) fresh
  · rw [iniNumber, line, cut_byte_append plain, Option.bind_some, read]

theorem ageFields_subset_ini {db : CheckedDb} (finite : db.info.ageDays.isFinite = true) :
    ageFields db.info ⊆ iniNumbers (printMetadataIni db) := by
  have text : db.info.ageDays.formatF 1 = (Binary64.literalF 1 db.info.ageDays).text := if_pos finite
  have days : (ascii "age_days", (Binary64.literalF 1 db.info.ageDays).text) ∈ iniRows db := by
    rw [← text]
    simp [iniRows]
  have ms : (ascii "age_ms", (decLiteral db.info.ageMs.toNat).text) ∈ iniRows db := by
    simp [iniRows]
  have ns : (ascii "age_ns", (decLiteral db.info.ageNs.toNat).text) ∈ iniRows db := by
    simp [iniRows]
  rw [ageFields, ← Binary64.literalF_value, ← decLiteral_value, ← decLiteral_value db.info.ageNs.toNat]
  refine List.cons_subset.mpr ⟨?_, List.cons_subset.mpr ⟨?_, List.cons_subset.mpr ⟨?_, ?_⟩⟩⟩
  · exact mem_iniNumbers days (noControl_ascii rfl) (by decide) (Binary64.literalF_wf 1 _)
  · exact mem_iniNumbers ms (noControl_ascii rfl) (by decide) (decLiteral_wf _)
  · exact mem_iniNumbers ns (noControl_ascii rfl) (by decide) (decLiteral_wf _)
  · exact List.nil_subset _

theorem ageFields_subset_json (db : CheckedDb) (english : Bytes) :
    ageFields db.info ⊆ checkDbMembers db english := by
  simp [ageFields, checkDbMembers]

theorem ageFields_subset_health (info : GeoIpDbMetadata) : ageFields info ⊆ metadataMembers info := by
  simp [ageFields, metadataMembers]

section InRange

variable {host : Host} {mmdb : Mmdb}

/-- Both casts are in range when the larger product is. -/
theorem ages_eq (past : (mmdb.buildEpoch.toNat : ℤ) ≤ host.now.toInt)
    (fits : documentedAge host mmdb * 1000000000 < 2 ^ 64) :
    ((makeMetadataExact host mmdb).ageMs.toNat : ℤ) = documentedAge host mmdb * 1000 ∧
      ((makeMetadataExact host mmdb).ageNs.toNat : ℤ) = documentedAge host mmdb * 1000000000 := by
  have nonneg : 0 ≤ documentedAge host mmdb := by
    unfold documentedAge
    omega
  simp only [makeMetadataExact, ageSeconds_eq past]
  exact ⟨castExact_toNat (by omega) (by omega), castExact_toNat (by omega) fits⟩

/-- Whatever shows the three fields shows the age. -/
theorem showsAge_of_ageFields (past : (mmdb.buildEpoch.toNat : ℤ) ≤ host.now.toInt)
    (fits : documentedAge host mmdb * 1000000000 < 2 ^ 64) {shown : List (Bytes × Json)}
    (fields : ageFields (makeMetadataExact host mmdb) ⊆ shown) :
    ShowsAge (documentedAge host mmdb) shown := by
  obtain ⟨msValue, nsValue⟩ := ages_eq past fits
  have msCast : ((makeMetadataExact host mmdb).ageMs.toNat : ℚ) = documentedAge host mmdb * 1000 := by
    exact_mod_cast msValue
  have nsCast : ((makeMetadataExact host mmdb).ageNs.toNat : ℚ) =
      documentedAge host mmdb * 1000000000 := by
    exact_mod_cast nsValue
  have nonneg : 0 ≤ documentedAge host mmdb := by
    unfold documentedAge
    omega
  obtain ⟨n, age⟩ := Int.eq_ofNat_of_zero_le nonneg
  have near := @abs_ageDays_sub_lt host mmdb n (by rw [ageSeconds_eq past, age]) (by omega)
  have cast : ((documentedAge host mmdb : ℤ) : ℚ) = n := by exact_mod_cast congrArg Int.cast age
  rw [ageFields, msCast, nsCast, List.cons_subset, List.cons_subset, List.cons_subset] at fields
  obtain ⟨days, ms, ns, -⟩ := fields
  refine ⟨⟨_, days, ?_⟩, ms, ns⟩
  rw [cast]
  exact near

theorem ageIsExact_of_past (past : (mmdb.buildEpoch.toNat : ℤ) ≤ host.now.toInt)
    (fits : documentedAge host mmdb * 1000000000 < 2 ^ 64) : AgeIsExact host mmdb := by
  obtain ⟨ms, ns⟩ := ages_eq past fits
  have nonneg : 0 ≤ documentedAge host mmdb := by
    unfold documentedAge
    omega
  have finite : (makeMetadataExact host mmdb).ageDays.isFinite = true :=
    makeMetadata_ageDays_isFinite host mmdb
  refine ⟨?_, ?_, ms, ns, ?_, ?_, ?_⟩
  · rw [ageSeconds_eq past]
    omega
  · rw [ageSeconds_eq past]
    omega
  · intro path libVersion metadata
    let db : CheckedDb := ⟨path, libVersion, mmdb, metadata, makeMetadataExact host mmdb⟩
    refine ⟨_, decode_of_isText (@isText_printMetadataJson db finite), ?_⟩
    exact showsAge_of_ageFields past fits (ageFields_subset_json db _)
  · intro path libVersion metadata
    let db : CheckedDb := ⟨path, libVersion, mmdb, metadata, makeMetadataExact host mmdb⟩
    exact showsAge_of_ageFields past fits (@ageFields_subset_ini db finite)
  · intro dbs name isOpen version mmdbLibVersion uptimeSeconds mem ages uptime
    have decoded := decode_of_isText (isText_renderHealthJson ages uptime version mmdbLibVersion)
    have here : healthDbMember ⟨name, isOpen, some (makeMetadataExact host mmdb)⟩ ∈
        dbs.map healthDbMember := List.mem_map_of_mem mem
    refine ⟨_, _, _, decoded, by simp, here, ?_⟩
    exact showsAge_of_ageFields past fits
      (List.subset_cons_of_subset _ (ageFields_subset_health _))

/-- What `--check-db` prints, doubles and all, shows the age of a database of the last 146
years. -/
theorem printDbMetadata_showsAge (past : (mmdb.buildEpoch.toNat : ℤ) ≤ host.now.toInt)
    (recent : documentedAge host mmdb * 1953125 < 2 ^ 53) (libVersion : CStr) (path : Bytes)
    (metadata : MmdbMetadata) (errorText : Bytes) :
    ∃ json ini members,
      printDbMetadata host libVersion path (some (mmdb, metadata)) errorText .json = .ok json ∧
      printDbMetadata host libVersion path (some (mmdb, metadata)) errorText .ini = .ok ini ∧
      decode json = some (.obj members) ∧ ShowsAge (documentedAge host mmdb) members ∧
      ShowsAge (documentedAge host mmdb) (iniNumbers ini) := by
  have nonneg : 0 ≤ documentedAge host mmdb := by
    unfold documentedAge
    omega
  have exact : makeMetadata host mmdb = makeMetadataExact host mmdb := by
    apply makeMetadata_eq_exact
    · rwa [ageSeconds_eq past]
    · rwa [ageSeconds_eq past]
  have shown := ageIsExact_of_past past (by omega)
  obtain ⟨members, decoded, shows⟩ := shown.json path libVersion metadata
  have ini := shown.ini path libVersion metadata
  rw [← exact] at decoded ini
  exact ⟨_, _, members, rfl, rfl, decoded, shows, ini⟩

end InRange

/-- **Exactly when the age is exact**: the database was not built in the future, and its
age in nanoseconds fits 64 bits. -/
theorem ageIsExact_iff (host : Host) (mmdb : Mmdb) :
    AgeIsExact host mmdb ↔
      (mmdb.buildEpoch.toNat : ℤ) ≤ host.now.toInt ∧
        (host.now.toInt - mmdb.buildEpoch.toNat) * 1000000000 < 2 ^ 64 := by
  constructor
  · intro exact
    have ms := exact.ms
    have ns := exact.ns
    have most := (makeMetadataExact host mmdb).ageNs.toNat_lt
    unfold documentedAge at ms ns
    omega
  · rintro ⟨past, fits⟩
    exact ageIsExact_of_past past fits

/-! ### A build time ahead of the clock -/

/-- A host whose clock is a minute behind. -/
def slowHost : Host := ⟨1700000000, 0, ascii "1.9.1", fun _ => 0, fun _ => []⟩

def freshDb : Mmdb := ⟨1, fun _ => .notFound, some (ascii "GeoLite2-City"), 1700000060⟩

/-- The products of a database built a minute after now are negative, and no unsigned
number is the age. -/
theorem futureBuild_counterexample :
    ageSeconds slowHost freshDb * 1000 = -60000 ∧ ¬ AgeIsExact slowHost freshDb := by
  refine ⟨by decide +kernel, ?_⟩
  intro exact
  have nonneg := exact.msInRange.1
  exact absurd nonneg (by decide +kernel)

end Nshgeoip
