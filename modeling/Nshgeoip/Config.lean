import Nshgeoip.Lib.CText
import Nshgeoip.Lib.Decimal
import Nshgeoip.Http

/-!
`config.cpp`: the key=value file, the environment and the auto-detected
database paths.

The file and the environment are validated by separate code in the source, so
they are here: `setKey` holds the bounds and texts of `load_config`,
`applyEnvOverrides` its own. An `int` is an `Int` with `toInt` for the casts to
it; the variables of the environment are C strings and hold no NUL.
-/

namespace Nshgeoip

open ByteText

/-! ### Integers -/

/-- `static_cast<int>`. -/
def toInt (v : Int) : Int := v.bmod (2 ^ 32)

/-- `static_cast<mode_t>`. -/
def toMode (v : Int) : Nat := (v % 2 ^ 32).toNat

/-- `static_cast<std::size_t>`. -/
def toSize (v : Int) : Nat := (v % 2 ^ 64).toNat

/-- What `default_thread_count` makes of `hardware_concurrency()`. -/
def defaultThreadCount (detected : UInt32) : Int :=
  if detected = 0 then 8
  else
    let n := toInt detected.toNat
    if n < 4 then 4 else if n > 20 then 20 else n

/-! ### The configuration -/

structure Config where
  countryDb : Bytes := []
  asnDb : Bytes := []
  cityDb : Bytes := []
  socketPath : Bytes := ascii "/run/nshgeoip/nshgeoip.sock"
  socketMode : Nat := 0o660
  threads : Int
  maxRequestBytes : Nat := 8192
  debugLog : Bool := false
  tcpPort : Int := 0
  tcpAddress : Bytes := []
  metricsFile : Bytes := []
  metricsIntervalSeconds : Int := 60
  deriving DecidableEq

/-- `Config cfg;` on a host with that many cores. -/
def Config.default (detected : UInt32) : Config := { threads := defaultThreadCount detected }

/-! ### Values -/

def parseLong (value : Bytes) (base : Nat) : Option Int :=
  if value = [] then none
  else
    match strtol base (cString value) with
    | none => none
    | some out => if out.erange = true ∨ out.rest ≠ [] then none else some out.value

def parseBool (value : Bytes) : Option Bool :=
  let v := toLower value
  if v = ascii "1" ∨ v = ascii "true" ∨ v = ascii "yes" ∨ v = ascii "on" then some true
  else if v = ascii "0" ∨ v = ascii "false" ∨ v = ascii "no" ∨ v = ascii "off" then some false
  else none

/-- An integer read in a base and checked against its bounds. -/
def boundedLong (value : Bytes) (base : Nat) (low high : Int) : Option Int :=
  match parseLong value base with
  | none => none
  | some v => if v < low ∨ v > high then none else some v

def parsePort (text : Bytes) : Option Int := (boundedLong text 10 1 65535).map toInt

/-! ### The file -/

/-- What a known key makes of its value: the updated configuration, or the
complaint without the place it stands at. -/
def orInvalid {α : Type} (parsed : Option α) (store : α → Config) (complaint : String) :
    Except Bytes Config :=
  match parsed with
  | some v => .ok (store v)
  | none => .error (ascii complaint)

/-- The chain over the keys of `load_config`; `none` is an unknown key. -/
def setKey (cfg : Config) (key value : Bytes) : Option (Except Bytes Config) :=
  if key = ascii "country_db" then some (.ok { cfg with countryDb := value })
  else if key = ascii "asn_db" then some (.ok { cfg with asnDb := value })
  else if key = ascii "city_db" then some (.ok { cfg with cityDb := value })
  else if key = ascii "socket" then some (.ok { cfg with socketPath := value })
  else if key = ascii "socket_mode" then
    some (orInvalid (boundedLong value 8 0 0o7777)
      (fun mode => { cfg with socketMode := toMode mode })
      "invalid socket_mode (expected octal, e.g. 0660)")
  else if key = ascii "threads" then
    some (orInvalid (boundedLong value 10 1 256)
      (fun threads => { cfg with threads := toInt threads })
      "invalid threads (expected 1-256)")
  else if key = ascii "max_request_bytes" then
    some (orInvalid (boundedLong value 10 256 (1 <<< 20))
      (fun bytes => { cfg with maxRequestBytes := toSize bytes })
      "invalid max_request_bytes (expected 256-1048576)")
  else if key = ascii "debug_log" then
    some (orInvalid (parseBool value) (fun debug => { cfg with debugLog := debug })
      "invalid debug_log (expected true/false)")
  else if key = ascii "tcp_port" then
    some (orInvalid (parsePort value) (fun port => { cfg with tcpPort := port })
      "invalid tcp_port (expected 1-65535)")
  else if key = ascii "tcp_address" then some (.ok { cfg with tcpAddress := value })
  else if key = ascii "metrics_file" then some (.ok { cfg with metricsFile := value })
  else if key = ascii "metrics_interval_seconds" then
    some (orInvalid (boundedLong value 10 1 86400)
      (fun interval => { cfg with metricsIntervalSeconds := toInt interval })
      "invalid metrics_interval_seconds (expected 1-86400)")
  else none

/-- What the loop of `load_config` carries. -/
structure Loaded where
  cfg : Config
  warnings : List Bytes
  deriving DecidableEq

/-- The lines `std::getline` delivers: nothing follows a final newline. -/
def getLines (text : Bytes) : List Bytes :=
  let pieces := text.splitOn 10
  if pieces.getLast? = some [] then pieces.dropLast else pieces

/-- `path:line: text`. -/
def atLine (path : Bytes) (lineNo : Nat) (text : Bytes) : Bytes :=
  path ++ ascii ":" ++ dec lineNo ++ ascii ": " ++ text

/-- One iteration of the loop, on a numbered line. -/
def loadLine (path : Bytes) (state : Loaded) (numbered : Bytes × Nat) : Except Bytes Loaded :=
  let trimmed := trim numbered.1
  if trimmed = [] ∨ trimmed.head? = some 35 then .ok state
  else
    match cut [61] trimmed with
    | none => .error (atLine path numbered.2 (ascii "expected key=value"))
    | some (before, after) =>
        let key := trim before
        match setKey state.cfg key (trim after) with
        | some (.ok cfg) => .ok { state with cfg := cfg }
        | some (.error complaint) => .error (atLine path numbered.2 complaint)
        | none =>
            let warning := atLine path numbered.2 (ascii "unknown config key '" ++ key ++ ascii "'")
            .ok { state with warnings := state.warnings ++ [warning] }

/-- `load_config`; `file` is the content if the file can be opened. -/
def loadConfig (path : Bytes) (file : Option Bytes) (cfg : Config) : Except Bytes Loaded :=
  match file with
  | none => .error (ascii "cannot open config file: " ++ path)
  | some text => ((getLines text).zipIdx 1).foldlM (loadLine path) ⟨cfg, []⟩

/-! ### The environment -/

/-- A C string: it ends at its NUL. -/
abbrev CStr := { s : Bytes // 0 ∉ s }

/-- `getenv`, by name. -/
abbrev Environment := Bytes → Option CStr

/-- `env_value` and what is done with the value of a set variable. -/
def override {α : Type} (env : Environment) (name : String) (parse : Bytes → Option α)
    (store : Config → α → Config) (complaint : String) (cfg : Config) : Except Bytes Config :=
  match env (ascii name) with
  | none => .ok cfg
  | some value =>
      match parse value with
      | some v => .ok (store cfg v)
      | none => .error (ascii name ++ ascii ": invalid value (expected " ++ ascii complaint ++ ascii ")")

/-- A variable taken as it is. -/
def overrideText (env : Environment) (name : String) (store : Config → Bytes → Config)
    (cfg : Config) : Except Bytes Config :=
  override env name some store "" cfg

def applyEnvOverrides (env : Environment) (cfg : Config) : Except Bytes Config := do
  let cfg ← overrideText env "NSHGEOIP_COUNTRY_DB" (fun cfg v => { cfg with countryDb := v }) cfg
  let cfg ← overrideText env "NSHGEOIP_ASN_DB" (fun cfg v => { cfg with asnDb := v }) cfg
  let cfg ← overrideText env "NSHGEOIP_CITY_DB" (fun cfg v => { cfg with cityDb := v }) cfg
  let cfg ← overrideText env "NSHGEOIP_SOCKET" (fun cfg v => { cfg with socketPath := v }) cfg
  let cfg ← override env "NSHGEOIP_SOCKET_MODE" (boundedLong · 8 0 0o7777)
    (fun cfg mode => { cfg with socketMode := toMode mode }) "octal, e.g. 0660" cfg
  let cfg ← override env "NSHGEOIP_THREADS" (boundedLong · 10 1 256)
    (fun cfg threads => { cfg with threads := toInt threads }) "1-256" cfg
  let cfg ← override env "NSHGEOIP_MAX_REQUEST_BYTES" (boundedLong · 10 256 (1 <<< 20))
    (fun cfg bytes => { cfg with maxRequestBytes := toSize bytes }) "256-1048576" cfg
  let cfg ← override env "NSHGEOIP_DEBUG_LOG" parseBool
    (fun cfg debug => { cfg with debugLog := debug }) "true/false" cfg
  let cfg ← override env "NSHGEOIP_TCP_PORT" parsePort
    (fun cfg port => { cfg with tcpPort := port }) "1-65535" cfg
  let cfg ← overrideText env "NSHGEOIP_TCP_ADDRESS" (fun cfg v => { cfg with tcpAddress := v }) cfg
  let cfg ← overrideText env "NSHGEOIP_METRICS_FILE" (fun cfg v => { cfg with metricsFile := v }) cfg
  override env "NSHGEOIP_METRICS_INTERVAL_SECONDS" (boundedLong · 10 1 86400)
    (fun cfg interval => { cfg with metricsIntervalSeconds := toInt interval }) "1-86400" cfg

/-! ### Auto-detected databases -/

/-- A field, and the notes made so far. -/
def resolveDbSlot (regularFileExists : Bytes → Bool) (field : Bytes) (key filename : String)
    (geoipDirs : List Bytes) (notes : List Bytes) : Bytes × List Bytes :=
  if field ≠ [] then (field, notes)
  else
    let candidates := geoipDirs.map fun dir => dir ++ ascii "/" ++ ascii filename
    match candidates.find? regularFileExists with
    | some candidate =>
        (candidate, notes ++
          [ascii key ++ ascii " not set, using " ++ candidate ++ ascii " (auto-detected)"])
    | none => (field, notes)

/-- `apply_default_db_paths`: a city database makes the search for a country
database unnecessary. -/
def applyDefaultDbPaths (regularFileExists : Bytes → Bool) (geoipDirs : List Bytes)
    (cfg : Config) : Config × List Bytes :=
  let city := resolveDbSlot regularFileExists cfg.cityDb "city_db" "GeoLite2-City.mmdb" geoipDirs []
  let asn := resolveDbSlot regularFileExists cfg.asnDb "asn_db" "GeoLite2-ASN.mmdb" geoipDirs city.2
  let cfg := { cfg with cityDb := city.1, asnDb := asn.1 }
  if cfg.cityDb ≠ [] then
    let note := ascii ("country_db not set, skipping auto-detect: " ++
      "city_db already supplies country/continent data")
    (cfg, if cfg.countryDb = [] then asn.2 ++ [note] else asn.2)
  else
    let country := resolveDbSlot regularFileExists cfg.countryDb "country_db"
      "GeoLite2-Country.mmdb" geoipDirs asn.2
    ({ cfg with countryDb := country.1 }, country.2)

/-! ### Start-up -/

def defaultGeoipDirs : List Bytes := [ascii "/var/lib/GeoIP", ascii "/var/lib/crowdsec/data"]

/-- The config file as `main` finds it. -/
inductive ConfigFile where
  | absent
  | unreadable
  | text (content : Bytes)

/-- The file part of `main`: a missing file is an error only if it was named. -/
def startupFile (detected : UInt32) (path : Bytes) (explicitPath : Bool) (file : ConfigFile) :
    Except Bytes Loaded :=
  match file with
  | .absent =>
      if explicitPath then .error (ascii "config file not found: " ++ path)
      else .ok ⟨Config.default detected, []⟩
  | .unreadable =>
      (loadConfig path none (Config.default detected)).mapError (ascii "failed to load config: " ++ ·)
  | .text content =>
      (loadConfig path (some content) (Config.default detected)).mapError
        (ascii "failed to load config: " ++ ·)

/-- `main` from `Config cfg;` to the construction of the server: the message it
gives up with, or the configuration `Server::init` starts from. -/
def startupConfig (detected : UInt32) (path : Bytes) (explicitPath : Bool) (file : ConfigFile)
    (env : Environment) (regularFileExists : Bytes → Bool) : Except Bytes Config := do
  let loaded ← startupFile detected path explicitPath file
  let cfg ← (applyEnvOverrides env loaded.cfg).mapError
    (ascii "failed to apply environment variables: " ++ ·)
  .ok (applyDefaultDbPaths regularFileExists defaultGeoipDirs cfg).1

end Nshgeoip
