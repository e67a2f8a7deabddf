import Nshgeoip.IpAddr
import Nshgeoip.Lib.Binary64

/-!
`geoip.cpp`: the three database slots, the merge of their records, and the
metadata shown by `/health` and `/metrics`.

`libmaxminddb` is a parameter: an `Mmdb` is an opened database with the answer
it gives for each address, and an `MmdbEntry` the answer of `MMDB_get_value`
for each path. Nothing is assumed about either, so strings are arbitrary bytes
and coordinates arbitrary doubles. What the C library leaves open (a double
outside the range of `uint64_t`, a year no `struct tm` holds) is part of
`Host`, with the clock.
-/

namespace Nshgeoip

open ByteText

/-! ### libmaxminddb -/

/-- The data `MMDB_get_value` finds; `other` is any type the daemon does not ask for. -/
inductive EntryData where
  | utf8String (s : Bytes)
  | uint32 (n : UInt32)
  | uint16 (n : UInt16)
  | double (d : Binary64)
  | other

/-- `MMDB_entry_s`: the data at each path, if there is any. -/
structure MmdbEntry where
  getValue : List String → Option EntryData

/-- What `MMDB_lookup_sockaddr` reports. -/
inductive MmdbLookup where
  | error
  | notFound
  | found (entry : MmdbEntry)

/-- `MMDB_s`: a database `MMDB_open` opened. `handle` names the mapping that
`MMDB_close` gives back. -/
structure Mmdb where
  handle : Nat
  lookupSockaddr : ParsedAddr → MmdbLookup
  databaseType : Option Bytes
  buildEpoch : UInt64

/-- `MMDB_s tmp{}`: the zeroed structure of a slot that was never opened. -/
def Mmdb.zeroed : Mmdb := ⟨0, fun _ => .error, none, 0⟩

def getString (entry : MmdbEntry) (path : List String) : Option Bytes :=
  match entry.getValue path with
  | some (.utf8String s) => some s
  | _ => none

def getUint32 (entry : MmdbEntry) (path : List String) : Option UInt32 :=
  match entry.getValue path with
  | some (.uint32 n) => some n
  | _ => none

def getUint16 (entry : MmdbEntry) (path : List String) : Option UInt16 :=
  match entry.getValue path with
  | some (.uint16 n) => some n
  | _ => none

def getDouble (entry : MmdbEntry) (path : List String) : Option Binary64 :=
  match entry.getValue path with
  | some (.double d) => some d
  | _ => none

/-! ### The slots and the merge -/

/-- One database of `GeoIpDatabases`: `*_mmdb_` and `*_open_`. -/
structure DbSlot where
  mmdb : Mmdb := .zeroed
  isOpen : Bool := false

structure GeoIpDatabases where
  country : DbSlot := {}
  asn : DbSlot := {}
  city : DbSlot := {}

structure GeoIpResult where
  found : Bool := false
  countryCode : Option Bytes := none
  countryName : Option Bytes := none
  continentCode : Option Bytes := none
  asn : Option UInt32 := none
  asOrg : Option Bytes := none
  cityName : Option Bytes := none
  postalCode : Option Bytes := none
  latitude : Option Binary64 := none
  longitude : Option Binary64 := none
  accuracyRadius : Option UInt16 := none

/-- The country and continent fields of an entry. -/
def fillCountry (result : GeoIpResult) (entry : MmdbEntry) : GeoIpResult :=
  { result with
    countryCode := getString entry ["country", "iso_code"]
    countryName := getString entry ["country", "names", "en"]
    continentCode := getString entry ["continent", "code"] }

def fillAsn (result : GeoIpResult) (entry : MmdbEntry) : GeoIpResult :=
  { result with
    asn := getUint32 entry ["autonomous_system_number"]
    asOrg := getString entry ["autonomous_system_organization"] }

/-- The city fields, and the country fields too when no country database is
open to be authoritative for them. -/
def fillCity (countryOpen : Bool) (result : GeoIpResult) (entry : MmdbEntry) : GeoIpResult :=
  let filled :=
    { result with
      cityName := getString entry ["city", "names", "en"]
      postalCode := getString entry ["postal", "code"]
      latitude := getDouble entry ["location", "latitude"]
      longitude := getDouble entry ["location", "longitude"]
      accuracyRadius := getUint16 entry ["location", "accuracy_radius"] }
  if countryOpen then filled else fillCountry filled entry

/-- The local state of `lookup`, with the handles it has passed to the library. -/
structure LookupRun where
  result : GeoIpResult := {}
  dbError : Bool := false
  touched : List Nat := []

/-- One database of the merge: it is asked when it is open and none before it
reported an error. -/
def LookupRun.ask (run : LookupRun) (slot : DbSlot) (addr : ParsedAddr)
    (fill : GeoIpResult → MmdbEntry → GeoIpResult) : LookupRun :=
  if slot.isOpen ∧ run.dbError = false then
    let touched := run.touched ++ [slot.mmdb.handle]
    match slot.mmdb.lookupSockaddr addr with
    | .error => { run with dbError := true, touched }
    | .notFound => { run with touched }
    | .found entry => { run with result := fill { run.result with found := true } entry, touched }
  else run

def GeoIpDatabases.lookupRun (db : GeoIpDatabases) (addr : ParsedAddr) : LookupRun :=
  let country := LookupRun.ask {} db.country addr fillCountry
  let asn := country.ask db.asn addr fillAsn
  asn.ask db.city addr (fillCity db.country.isOpen)

/-- `GeoIpDatabases::lookup`: the merged result and `db_error`. -/
def GeoIpDatabases.lookup (db : GeoIpDatabases) (addr : ParsedAddr) : GeoIpResult × Bool :=
  ((db.lookupRun addr).result, (db.lookupRun addr).dbError)

/-! ### Metadata -/

/-- The clock, and what the C library does where its contract is silent. -/
structure Host where
  now : Int64
  uptimeNanoseconds : Int64
  mmdbLibVersion : Bytes
  unrepresentable : Binary64 → UInt64
  overflowedDate : Int64 → Bytes

structure GeoIpDbMetadata where
  databaseType : Bytes
  buildEpoch : UInt64
  buildTime : Bytes
  ageDays : Binary64
  ageMs : UInt64
  ageNs : UInt64

/-- The proleptic Gregorian date of a day counted from 1970-01-01. -/
def civilFromDays (days : ℤ) : ℤ × Nat × Nat :=
  let z := days + 719468
  let era := z / 146097
  let doe := (z % 146097).toNat
  let yoe := (doe - doe / 1460 + doe / 36524 - doe / 146096) / 365
  let doy := doe - (365 * yoe + yoe / 4 - yoe / 100)
  let mp := (5 * doy + 2) / 153
  let month := if mp < 10 then mp + 3 else mp - 9
  (yoe + era * 400 + (if month ≤ 2 then 1 else 0), month, doy - (153 * mp + 2) / 5 + 1)

def intText (n : ℤ) : Bytes := signText (decide (n < 0)) ++ dec n.natAbs

/-- `gmtime_r` and `strftime("%Y-%m-%dT%H:%M:%SZ")`; a year beyond `int` is left
to the host. -/
def formatBuildTime (host : Host) (buildEpoch : UInt64) : Bytes :=
  let t := buildEpoch.toInt64
  let date := civilFromDays (t.toInt / 86400)
  let second := (t.toInt % 86400).toNat
  if -2 ^ 31 ≤ date.1 - 1900 ∧ date.1 - 1900 < 2 ^ 31 then
    intText date.1 ++ ascii "-" ++ digitsPad 2 date.2.1 ++ ascii "-" ++ digitsPad 2 date.2.2
      ++ ascii "T" ++ digitsPad 2 (second / 3600) ++ ascii ":" ++ digitsPad 2 (second / 60 % 60)
      ++ ascii ":" ++ digitsPad 2 (second % 60) ++ ascii "Z"
  else host.overflowedDate t

/-- `static_cast<std::uint64_t>` of a double: truncation where the result fits. -/
def castU64 (host : Host) (d : Binary64) : UInt64 :=
  if d.isFinite ∧ -1 < d.value ∧ d.value < 2 ^ 64 then ⌊d.value⌋.toNat.toUInt64
  else host.unrepresentable d

/-- `std::difftime`, in seconds. -/
def difftime (later earlier : Int64) : Binary64 := .ofInt (later.toInt - earlier.toInt)

def makeMetadata (host : Host) (mmdb : Mmdb) : GeoIpDbMetadata :=
  let ageSeconds := difftime host.now mmdb.buildEpoch.toInt64
  { databaseType := mmdb.databaseType.getD []
    buildEpoch := mmdb.buildEpoch
    buildTime := formatBuildTime host mmdb.buildEpoch
    ageDays := ageSeconds.div (.ofInt 86400)
    ageMs := castU64 host (ageSeconds.mul (.ofInt 1000))
    ageNs := castU64 host (ageSeconds.mul (.ofInt 1000000000)) }

/-- `*_metadata()`: absent for a slot that is not open. -/
def DbSlot.metadata (host : Host) (slot : DbSlot) : Option GeoIpDbMetadata :=
  if slot.isOpen then some (makeMetadata host slot.mmdb) else none

/-! ### Opening, replacing and closing -/

/-- The handle of a slot that is open. -/
def DbSlot.handles (slot : DbSlot) : List Nat := if slot.isOpen then [slot.mmdb.handle] else []

/-- What a call of `open_*` leaves behind: the slots, the value returned, and
the handles it passed to `MMDB_close`. -/
structure OpenOutcome where
  db : GeoIpDatabases
  ok : Bool
  closed : List Nat

/-- The body of `open_*`, from the result of `MMDB_open` on. -/
def GeoIpDatabases.openSlot (db : GeoIpDatabases) (slot : DbSlot) (store : DbSlot → GeoIpDatabases)
    (opened : Option Mmdb) : OpenOutcome :=
  match opened with
  | none => ⟨db, false, []⟩
  | some tmp => ⟨store ⟨tmp, true⟩, true, slot.handles⟩

def GeoIpDatabases.openCountry (db : GeoIpDatabases) (opened : Option Mmdb) : OpenOutcome :=
  db.openSlot db.country (fun slot => { db with country := slot }) opened

def GeoIpDatabases.openAsn (db : GeoIpDatabases) (opened : Option Mmdb) : OpenOutcome :=
  db.openSlot db.asn (fun slot => { db with asn := slot }) opened

def GeoIpDatabases.openCity (db : GeoIpDatabases) (opened : Option Mmdb) : OpenOutcome :=
  db.openSlot db.city (fun slot => { db with city := slot }) opened

def GeoIpDatabases.reloadCountry (db : GeoIpDatabases) (opened : Option Mmdb) : OpenOutcome :=
  db.openCountry opened

def GeoIpDatabases.reloadAsn (db : GeoIpDatabases) (opened : Option Mmdb) : OpenOutcome :=
  db.openAsn opened

def GeoIpDatabases.reloadCity (db : GeoIpDatabases) (opened : Option Mmdb) : OpenOutcome :=
  db.openCity opened

/-- `~GeoIpDatabases`: the handles it closes. -/
def GeoIpDatabases.destroy (db : GeoIpDatabases) : List Nat :=
  db.country.handles ++ db.asn.handles ++ db.city.handles

end Nshgeoip
