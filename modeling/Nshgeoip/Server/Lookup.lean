import Nshgeoip.Server.Answer
import Nshgeoip.Server.Bodies

/-!
End-to-end fidelity of an annotation.

`lookupObject` is what a lookup is meant to say about an address, read off the
records of the open databases: country and continent from the country database
when there is one and from the city database otherwise, the network from the
ASN database, the place from the city database. `handleConnection_lookup` follows
a request through the whole daemon: the JSON body decodes to exactly that.
-/

namespace Nshgeoip

open ByteText JsonText

/-! ### The merge -/

/-- A database as a partial map: its record for an address, if it is open and
has one. -/
def DbSlot.record (slot : DbSlot) (addr : ParsedAddr) : Option MmdbEntry :=
  if slot.isOpen then
    match slot.mmdb.lookupSockaddr addr with
    | .found entry => some entry
    | _ => none
  else none

/-- No open database reports a lookup error. -/
def DbSlot.Sound (slot : DbSlot) (addr : ParsedAddr) : Prop :=
  slot.isOpen = true → slot.mmdb.lookupSockaddr addr ≠ .error

/-- One database of the merge, when none fails. -/
theorem LookupRun.ask_sound {run : LookupRun} {slot : DbSlot} {addr : ParsedAddr}
    (fill : GeoIpResult → MmdbEntry → GeoIpResult) (sound : slot.Sound addr)
    (before : run.dbError = false) :
    (run.ask slot addr fill).dbError = false ∧
      (run.ask slot addr fill).result =
        match slot.record addr with
        | none => run.result
        | some entry => fill { run.result with found := true } entry := by
  unfold LookupRun.ask DbSlot.record
  by_cases opened : slot.isOpen = true
  · cases outcome : slot.mmdb.lookupSockaddr addr with
    | error => exact absurd outcome (sound opened)
    | notFound => simp [opened, before]
    | found entry => simp [opened, before]
  · simp [opened, before]

/-- The record country and continent come from. -/
def GeoIpDatabases.countryRecord (db : GeoIpDatabases) (addr : ParsedAddr) : Option MmdbEntry :=
  if db.country.isOpen then db.country.record addr else db.city.record addr

/-- The merge as it is meant: each field from the record responsible for it. -/
def GeoIpDatabases.merged (db : GeoIpDatabases) (addr : ParsedAddr) : GeoIpResult :=
  let country := db.countryRecord addr
  let asn := db.asn.record addr
  let city := db.city.record addr
  { found := (db.country.record addr).isSome || asn.isSome || city.isSome
    countryCode := country.bind (getString · ["country", "iso_code"])
    countryName := country.bind (getString · ["country", "names", "en"])
    continentCode := country.bind (getString · ["continent", "code"])
    asn := asn.bind (getUint32 · ["autonomous_system_number"])
    asOrg := asn.bind (getString · ["autonomous_system_organization"])
    cityName := city.bind (getString · ["city", "names", "en"])
    postalCode := city.bind (getString · ["postal", "code"])
    latitude := city.bind (getDouble · ["location", "latitude"])
    longitude := city.bind (getDouble · ["location", "longitude"])
    accuracyRadius := city.bind (getUint16 · ["location", "accuracy_radius"]) }

structure GeoIpDatabases.Sound (db : GeoIpDatabases) (addr : ParsedAddr) : Prop where
  country : db.country.Sound addr
  asn : db.asn.Sound addr
  city : db.city.Sound addr

/-- **The merge does what it is meant to**, when no database fails. -/
theorem GeoIpDatabases.lookup_eq_merged {db : GeoIpDatabases} {addr : ParsedAddr}
    (sound : db.Sound addr) : db.lookup addr = (db.merged addr, false) := by
  have start : ({} : LookupRun).dbError = false := rfl
  obtain ⟨noErr₁, result₁⟩ := LookupRun.ask_sound fillCountry sound.country start
  obtain ⟨noErr₂, result₂⟩ := LookupRun.ask_sound fillAsn sound.asn noErr₁
  obtain ⟨noErr₃, result₃⟩ :=
    LookupRun.ask_sound (fillCity db.country.isOpen) sound.city noErr₂
  unfold GeoIpDatabases.lookup GeoIpDatabases.lookupRun
  rw [noErr₃, result₃, result₂, result₁]
  refine congrArg (·, false) ?_
  have closed : db.country.isOpen = false → db.country.record addr = none := by
    intro h
    simp [DbSlot.record, h]
  unfold GeoIpDatabases.merged GeoIpDatabases.countryRecord
  cases opened : db.country.isOpen with
  | true =>
      cases db.country.record addr <;> cases db.asn.record addr <;>
        cases db.city.record addr <;> rfl
  | false =>
      rw [closed opened]
      cases db.asn.record addr <;> cases db.city.record addr <;> rfl

theorem LookupRun.sound_of_ask {run : LookupRun} {slot : DbSlot} {addr : ParsedAddr}
    {fill : GeoIpResult → MmdbEntry → GeoIpResult}
    (after : (run.ask slot addr fill).dbError = false) :
    run.dbError = false ∧ slot.Sound addr := by
  unfold LookupRun.ask at after
  by_cases asked : slot.isOpen = true ∧ run.dbError = false
  · refine ⟨asked.2, fun _ failed => ?_⟩
    simp [asked, failed] at after
  · rw [if_neg asked] at after
    exact ⟨after, fun opened => absurd ⟨opened, after⟩ asked⟩

/-- A lookup without an error met no failing database. -/
theorem GeoIpDatabases.sound_of_lookup {db : GeoIpDatabases} {addr : ParsedAddr}
    (h : (db.lookup addr).2 = false) : db.Sound addr := by
  obtain ⟨asn, city⟩ := LookupRun.sound_of_ask h
  obtain ⟨country, asn⟩ := LookupRun.sound_of_ask asn
  exact ⟨(LookupRun.sound_of_ask country).2, asn, city⟩

/-! ### A request through the daemon -/

/-- The object a lookup of the address text answers with. -/
def lookupObject (db : GeoIpDatabases) (ipText : Bytes) (addr : ParsedAddr) : Json :=
  .obj (bodyMembers ipText (db.merged addr))

theorem merged_found_iff (db : GeoIpDatabases) (addr : ParsedAddr) :
    (db.merged addr).found = true ↔
      ∃ slot ∈ [db.country, db.asn, db.city], ∃ entry, slot.record addr = some entry := by
  simp [GeoIpDatabases.merged, Option.isSome_iff_exists, or_assoc]

theorem Server.lookupReply_of_looked {srv : Server} {req : HttpRequest} {ipText : Bytes}
    {addr : ParsedAddr} (looked : Looked req ipText addr) (sound : srv.db.Sound addr)
    (fmt : ResponseFormat) :
    srv.lookupReply req fmt =
      if (srv.db.merged addr).found = false then
        ([.lookupNotFound], makeErrorResponse 404 (ascii "no geoip information found") fmt)
      else ([.lookupFound], buildSuccessResponse ipText (srv.db.merged addr) fmt) := by
  have nonempty := parseIpAddress_ne_nil looked.parsed
  simp only [Server.lookupReply, looked.param, nonempty, looked.parsed,
    GeoIpDatabases.lookup_eq_merged sound, if_false, Bool.false_eq_true]

/-- **End-to-end fidelity.** A `GET /lookup` for a valid address that
negotiates JSON is answered 200 exactly when some open database has a record
for the address, and 404 otherwise, and the lookup is counted so; and the body of
a 200 decodes to the annotation of the address, its eleven members in order. A
coordinate in it is the record's, up to half a unit of the ninth significant digit. -/
theorem handleConnection_lookup (srv : Server) (conn : Connection) (raw : Bytes)
    (req : HttpRequest) (ipText : Bytes) (addr : ParsedAddr)
    (read : readHttpHead srv.maxRequestBytes conn.events [] = (.ok, raw))
    (parsed : parseHttpRequest raw = some req) (method : req.method = ascii "GET")
    (path : req.path = ascii "/lookup")
    (param : findQueryParam req (ascii "ip") = some ipText)
    (valid : parseIpAddress ipText = some addr) (json : negotiateFormat req.accept = .json)
    (sound : srv.db.Sound addr) (latitude : Finite (srv.db.merged addr).latitude)
    (longitude : Finite (srv.db.merged addr).longitude) :
    ∃ counted resp,
      srv.handleConnection conn =
          .recordRequest (ascii "/lookup") :: (counted ++ finish conn.sends resp true) ∧
        counted = (if resp.status = 200 then [.lookupFound] else [.lookupNotFound]) ∧
        (resp.status = 200 ↔
          ∃ slot ∈ [srv.db.country, srv.db.asn, srv.db.city], ∃ entry,
            slot.record addr = some entry) ∧
        (resp.status ≠ 200 → resp.status = 404) ∧
        (resp.status = 200 → decode resp.body = some (lookupObject srv.db ipText addr)) ∧
        ∀ d, coordinate d = .num (Binary64.roundSig 8 d.value) ∧
          |Binary64.roundSig 8 d.value - d.value| ≤ |d.value| / (2 * 10 ^ 8) := by
  have looked : Looked req ipText addr := ⟨param, valid⟩
  have reply : srv.reply req = srv.lookupReply req .json := by
    simp [Server.reply, method, path, json]
  have body : isHead req = false := by
    rw [isHead, method]
    decide
  have near := Binary64.abs_roundSig_sub_le 8
  refine ⟨(srv.lookupReply req .json).1, (srv.lookupReply req .json).2, ?_, ?_⟩
  · simp [Server.handleConnection, read, parsed, reply, path, body]
  · rw [Server.lookupReply_of_looked looked sound, ← merged_found_iff]
    cases found : (srv.db.merged addr).found with
    | false => exact ⟨by simp [makeErrorResponse], by simp [makeErrorResponse], fun _ => rfl,
        by simp [makeErrorResponse], fun d => ⟨rfl, near d.value⟩⟩
    | true =>
        have text := isText_buildJsonBody ipText latitude longitude
        refine ⟨by simp [buildSuccessResponse], by simp [buildSuccessResponse],
          fun other => absurd rfl other, ?_, fun d => ⟨rfl, near d.value⟩⟩
        intro _
        exact decode_of_isText text

/-- A record with a city name full of quotes and line breaks, and a place. -/
def sampleEntry : MmdbEntry :=
  ⟨fun path =>
    if path = ["city", "names", "en"] then some (.utf8String (ascii "\"\r\n"))
    else if path = ["location", "latitude"] then some (.double ⟨false, 1028, 0⟩)
    else none⟩

/-- A server with a city database alone. -/
def sampleServer : Server where
  maxRequestBytes := 256
  db := { city := ⟨⟨1, fun _ => .found sampleEntry, none, 0⟩, true⟩ }
  metrics := {}
  host := ⟨0, 0, [], fun _ => 0, fun _ => []⟩

def sampleRaw : Bytes := ascii "GET /lookup?ip=1.2.3.4&ip=x HTTP/1.1\r\n\r\n"

def sampleConnection : Connection :=
  ⟨[.data ⟨sampleRaw, by decide, by decide⟩], [.sent 7, .interrupted, .error]⟩

def sampleRequest : HttpRequest :=
  ⟨ascii "GET", ascii "/lookup",
    [(ascii "ip", ascii "1.2.3.4"), (ascii "ip", ascii "x")], []⟩

theorem handleConnection_lookup_sample :
    ∃ resp,
      sampleServer.handleConnection sampleConnection =
          .recordRequest (ascii "/lookup") :: .lookupFound ::
            finish sampleConnection.sends resp true ∧
        resp.status = 200 ∧
        decode resp.body =
          some (lookupObject sampleServer.db (ascii "1.2.3.4") (.inet [1, 2, 3, 4])) := by
  obtain ⟨counted, resp, trace, outcome, status, -, body, -⟩ :=
    handleConnection_lookup sampleServer sampleConnection sampleRaw sampleRequest
      (ascii "1.2.3.4") (.inet [1, 2, 3, 4]) (by decide +kernel) (by decide +kernel)
      (by decide) (by decide) (by decide +kernel) (by decide +kernel) (by decide +kernel)
      ⟨by simp [DbSlot.Sound, sampleServer], by simp [DbSlot.Sound, sampleServer],
        by simp [DbSlot.Sound, sampleServer]⟩
      (by intro d mem; cases mem; rfl) (by intro d mem; cases mem)
  have found : resp.status = 200 :=
    status.mpr ⟨sampleServer.db.city, by simp, sampleEntry, rfl⟩
  rw [outcome, if_pos found] at trace
  exact ⟨resp, trace, found, body found⟩

end Nshgeoip
