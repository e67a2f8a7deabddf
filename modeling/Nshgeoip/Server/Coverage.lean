import Nshgeoip.Server.Databases
import Nshgeoip.Server.Lookup

/-!
An address no database covers, and the databases of ip_version 4.

A database built for IPv4 addresses alone can be opened in any slot. libmaxminddb
answers an IPv6 address in it with an error, not with "no entry", and `lookup`
passes every error on: one such database spoils the answer for all IPv6
addresses, whatever the other databases hold.
-/

namespace Nshgeoip

open ByteText

/-! ### Databases by ip_version -/

/-- `metadata.ip_version`. -/
inductive IpVersion where
  | v4
  | v6
  deriving DecidableEq

def ParsedAddr.isInet6 : ParsedAddr → Bool
  | inet _ => false
  | inet6 _ => true

/-- The search tree of the database has a place for the address. -/
def IpVersion.CanHold (version : IpVersion) (addr : ParsedAddr) : Prop :=
  version = .v6 ∨ addr.isInet6 = false

/-- `MMDB_lookup_sockaddr` on a database that is not corrupt: it fails for an IPv6
address in a database of ip_version 4, and never otherwise. -/
def Mmdb.Documented (mmdb : Mmdb) (version : IpVersion) : Prop :=
  ∀ addr, mmdb.lookupSockaddr addr = .error ↔ ¬ version.CanHold addr

/-! ### What a lookup promises -/

/-- The country and continent fields are those of an entry. -/
def CountryFrom (entry : MmdbEntry) (result : GeoIpResult) : Prop :=
  result.countryCode = getString entry ["country", "iso_code"] ∧
    result.countryName = getString entry ["country", "names", "en"] ∧
    result.continentCode = getString entry ["continent", "code"]

def AsnFrom (entry : MmdbEntry) (result : GeoIpResult) : Prop :=
  result.asn = getUint32 entry ["autonomous_system_number"] ∧
    result.asOrg = getString entry ["autonomous_system_organization"]

def CityFrom (entry : MmdbEntry) (result : GeoIpResult) : Prop :=
  result.cityName = getString entry ["city", "names", "en"] ∧
    result.postalCode = getString entry ["postal", "code"] ∧
    result.latitude = getDouble entry ["location", "latitude"] ∧
    result.longitude = getDouble entry ["location", "longitude"] ∧
    result.accuracyRadius = getUint16 entry ["location", "accuracy_radius"]

/-- The result has the fields a database supplies. The city database supplies country
and continent too, unless a country database is open to be authoritative for them. -/
def GeoIpDatabases.Supplied (db : GeoIpDatabases) (entry : MmdbEntry) (result : GeoIpResult) :
    Db → Prop
  | .country => CountryFrom entry result
  | .asn => AsnFrom entry result
  | .city => CityFrom entry result ∧ (db.country.isOpen = false → CountryFrom entry result)

/-- **Uncovered is not an error**: a lookup reports none, finds the address iff an open
database has an entry for it, returns what the databases that can hold the address
supply, and the client never sees a status 500. -/
structure GeoIpDatabases.UncoveredIsNoError (db : GeoIpDatabases) (versions : Db → IpVersion)
    (addr : ParsedAddr) : Prop where
  noError : (db.lookup addr).2 = false
  found : (db.lookup addr).1.found = true ↔
    ∃ d entry, (db.slot d).isOpen = true ∧ (db.slot d).mmdb.lookupSockaddr addr = .found entry
  fields : ∀ d entry, (db.slot d).isOpen = true → (versions d).CanHold addr →
    (db.slot d).mmdb.lookupSockaddr addr = .found entry → db.Supplied entry (db.lookup addr).1 d
  status : ∀ (srv : Server) req ipText fmt, srv.db = db → Looked req ipText addr →
    (srv.lookupReply req fmt).2.status ≠ 500

/-! ### When it keeps the promise -/

section Coverage

variable {db : GeoIpDatabases} {addr : ParsedAddr}

theorem DbSlot.record_eq_some_iff {slot : DbSlot} {entry : MmdbEntry} :
    slot.record addr = some entry ↔
      slot.isOpen = true ∧ slot.mmdb.lookupSockaddr addr = .found entry := by
  unfold DbSlot.record
  by_cases opened : slot.isOpen = true
  · rw [if_pos opened]
    cases slot.mmdb.lookupSockaddr addr <;> simp [opened]
  · simp [opened]

theorem GeoIpDatabases.sound_of_slots (h : ∀ d, (db.slot d).Sound addr) : db.Sound addr :=
  ⟨h .country, h .asn, h .city⟩

/-- The merge gives every database its say. -/
theorem GeoIpDatabases.supplied_merged {d : Db} {entry : MmdbEntry}
    (record : (db.slot d).record addr = some entry) : db.Supplied entry (db.merged addr) d := by
  cases d with
  | country =>
      have opened := (DbSlot.record_eq_some_iff.mp record).1
      have source : db.countryRecord addr = some entry := (if_pos opened).trans record
      simp [Supplied, CountryFrom, merged, source]
  | asn =>
      have source : db.asn.record addr = some entry := record
      simp [Supplied, AsnFrom, merged, source]
  | city =>
      have source : db.city.record addr = some entry := record
      refine ⟨by simp [CityFrom, merged, source], fun closed => ?_⟩
      have country : db.countryRecord addr = some entry := by
        rw [countryRecord, if_neg (by simp [closed]), source]
      simp [CountryFrom, merged, country]

theorem GeoIpDatabases.merged_found_slots :
    (db.merged addr).found = true ↔
      ∃ d entry, (db.slot d).isOpen = true ∧ (db.slot d).mmdb.lookupSockaddr addr = .found entry := by
  rw [merged_found_iff]
  simp only [← DbSlot.record_eq_some_iff]
  constructor
  · rintro ⟨slot, mem, entry, record⟩
    simp only [List.mem_cons, List.not_mem_nil, or_false] at mem
    rcases mem with rfl | rfl | rfl
    · exact ⟨.country, entry, record⟩
    · exact ⟨.asn, entry, record⟩
    · exact ⟨.city, entry, record⟩
  · rintro ⟨d, entry, record⟩
    refine ⟨db.slot d, ?_, entry, record⟩
    cases d <;> simp [slot]

theorem GeoIpDatabases.uncoveredIsNoError_of_sound (sound : db.Sound addr)
    (versions : Db → IpVersion) : db.UncoveredIsNoError versions addr := by
  have lookup := GeoIpDatabases.lookup_eq_merged sound
  constructor
  case noError => rw [lookup]
  case found =>
    rw [lookup]
    exact merged_found_slots
  case fields =>
    intro d entry opened _ found
    rw [lookup]
    exact supplied_merged (DbSlot.record_eq_some_iff.mpr ⟨opened, found⟩)
  case status =>
    rintro srv req ipText fmt rfl looked
    rw [Server.lookupReply_of_looked looked sound]
    split
    · simp [makeErrorResponse]
    · simp [buildSuccessResponse]

end Coverage

/-- **Exactly when uncovered is not an error**: the address is an IPv4 address, or no open
database has ip_version 4. -/
theorem GeoIpDatabases.uncoveredIsNoError_iff (db : GeoIpDatabases) (versions : Db → IpVersion)
    (documented : ∀ d, (db.slot d).isOpen = true → (db.slot d).mmdb.Documented (versions d))
    (addr : ParsedAddr) :
    db.UncoveredIsNoError versions addr ↔
      addr.isInet6 = false ∨ ∀ d, (db.slot d).isOpen = true → versions d = .v6 := by
  constructor
  · intro promise
    have sound := GeoIpDatabases.sound_of_lookup promise.noError
    by_cases inet : addr.isInet6 = false
    · exact .inl inet
    · refine .inr fun d opened => ?_
      have answered : (db.slot d).mmdb.lookupSockaddr addr ≠ .error := by
        cases d with
        | country => exact sound.country opened
        | asn => exact sound.asn opened
        | city => exact sound.city opened
      have holds : (versions d).CanHold addr := by
        by_contra refused
        exact answered ((documented d opened addr).mpr refused)
      exact holds.resolve_right inet
  · intro condition
    refine uncoveredIsNoError_of_sound (sound_of_slots fun d opened failed => ?_) versions
    refine (documented d opened addr).mp failed ?_
    rcases condition with inet | six
    · exact .inr inet
    · exact .inl (six d opened)

/-! ### Two databases -/

/-- An ASN database of ip_version 4 without entries. -/
def ipv4Asn : Mmdb :=
  ⟨1, fun addr => if addr.isInet6 then .error else .notFound, none, 0⟩

/-- A city database of ip_version 6 that knows every address. -/
def ipv6City : Mmdb := ⟨2, fun _ => .found sampleEntry, none, 0⟩

def mixedDatabases : GeoIpDatabases := { asn := ⟨ipv4Asn, true⟩, city := ⟨ipv6City, true⟩ }

def mixedVersions : Db → IpVersion
  | .asn => .v4
  | _ => .v6

theorem mixedDatabases_documented (d : Db) (opened : (mixedDatabases.slot d).isOpen = true) :
    (mixedDatabases.slot d).mmdb.Documented (mixedVersions d) := by
  intro addr
  cases d with
  | country => cases opened
  | asn => cases addr <;> simp [GeoIpDatabases.slot, mixedDatabases, ipv4Asn, mixedVersions,
      IpVersion.CanHold, ParsedAddr.isInet6]
  | city => simp [GeoIpDatabases.slot, mixedDatabases, ipv6City, mixedVersions, IpVersion.CanHold]

/-- `2001:db8::1`. -/
def documentationAddr : ParsedAddr := .inet6 [32, 1, 13, 184, 0, 0, 0, 0, 0, 0, 0, 0, 0, 0, 0, 1]

/-- The city database has an entry for the address; the lookup fails over the ASN
database before it is asked, and the client gets a 500. -/
theorem ipv4Database_counterexample :
    parseIpAddress (ascii "2001:db8::1") = some documentationAddr ∧
      (∀ d, (mixedDatabases.slot d).isOpen = true →
        (mixedDatabases.slot d).mmdb.Documented (mixedVersions d)) ∧
      mixedDatabases.city.mmdb.lookupSockaddr documentationAddr = .found sampleEntry ∧
      (mixedDatabases.lookup documentationAddr).2 = true ∧
      (mixedDatabases.lookup documentationAddr).1.found = false ∧
      (Server.lookupReply { sampleServer with db := mixedDatabases }
        ⟨ascii "GET", ascii "/lookup", [(ascii "ip", ascii "2001:db8::1")], []⟩ .json).2.status = 500 := by
  refine ⟨by decide +kernel, mixedDatabases_documented, rfl, rfl, rfl, by decide +kernel⟩

/-- An IPv4 address is looked up in both databases. -/
theorem uncoveredIsNoError_mixed :
    parseIpAddress (ascii "192.0.2.1") = some (.inet [192, 0, 2, 1]) ∧
      mixedDatabases.UncoveredIsNoError mixedVersions (.inet [192, 0, 2, 1]) := by
  refine ⟨by decide +kernel, ?_⟩
  exact (mixedDatabases.uncoveredIsNoError_iff mixedVersions mixedDatabases_documented _).mpr
    (.inl rfl)

end Nshgeoip
