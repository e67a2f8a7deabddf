import Nshgeoip.TextUtil
import Nshgeoip.Geoip

/-!
`metrics.cpp`: the process-wide counters and the bodies of `/health` and
`/metrics`.

The counters are `std::atomic<uint64_t>`; `recordRequest` and `recordResponse`
are the single atomic increment each of them makes.
-/

namespace Nshgeoip

open ByteText JsonText

structure Metrics where
  lookupRequestsTotal : UInt64 := 0
  healthRequestsTotal : UInt64 := 0
  metricsRequestsTotal : UInt64 := 0
  otherRequestsTotal : UInt64 := 0
  responses200 : UInt64 := 0
  responses400 : UInt64 := 0
  responses404 : UInt64 := 0
  responses405 : UInt64 := 0
  responses500 : UInt64 := 0
  lookupFoundTotal : UInt64 := 0
  lookupNotFoundTotal : UInt64 := 0

def Metrics.recordRequest (m : Metrics) (path : Bytes) : Metrics :=
  if path = ascii "/lookup" then { m with lookupRequestsTotal := m.lookupRequestsTotal + 1 }
  else if path = ascii "/health" then { m with healthRequestsTotal := m.healthRequestsTotal + 1 }
  else if path = ascii "/metrics" then { m with metricsRequestsTotal := m.metricsRequestsTotal + 1 }
  else { m with otherRequestsTotal := m.otherRequestsTotal + 1 }

/-- A status outside the fixed set is dropped. -/
def Metrics.recordResponse (m : Metrics) (status : Nat) : Metrics :=
  match status with
  | 200 => { m with responses200 := m.responses200 + 1 }
  | 400 => { m with responses400 := m.responses400 + 1 }
  | 404 => { m with responses404 := m.responses404 + 1 }
  | 405 => { m with responses405 := m.responses405 + 1 }
  | 500 => { m with responses500 := m.responses500 + 1 }
  | _ => m

structure MetricsDbInfo where
  name : Bytes
  isOpen : Bool
  metadata : Option GeoIpDbMetadata

/-- The escaping of a label value in the Prometheus text format. -/
def escapeLabelValue (s : Bytes) : Bytes :=
  s.flatMap fun c =>
    if c = 92 then ascii "\\\\" else if c = 34 then ascii "\\\"" else if c = 10 then ascii "\\n"
    else [c]

/-- A sample of the gauges and counters: the metric with one label, and its value. -/
def sample (metric label value number : Bytes) : Bytes :=
  metric ++ ascii "\x7b" ++ label ++ ascii "=\"" ++ value ++ ascii "\"\x7d " ++ number ++ ascii "\n"

/-- One sample for each database that has a value. -/
def dbSamples (metric : Bytes) (number : MetricsDbInfo → Option Bytes)
    (dbs : List MetricsDbInfo) : Bytes :=
  dbs.flatMap fun db =>
    match number db with
    | none => []
    | some n => sample metric (ascii "db") (escapeLabelValue db.name) n

def counterText (n : UInt64) : Bytes := dec n.toNat

def renderPrometheusMetrics (m : Metrics) (dbs : List MetricsDbInfo)
    (version mmdbLibVersion : Bytes) (uptimeSeconds : Binary64) : Bytes :=
  ascii "# HELP nshgeoip_build_info nshgeoip build information.\n"
    ++ ascii "# TYPE nshgeoip_build_info gauge\n"
    ++ ascii "nshgeoip_build_info\x7bversion=\"" ++ escapeLabelValue version
    ++ ascii "\",libmaxminddb_version=\"" ++ escapeLabelValue mmdbLibVersion ++ ascii "\"\x7d 1\n"
    ++ ascii "# HELP nshgeoip_uptime_seconds Seconds since the daemon started.\n"
    ++ ascii "# TYPE nshgeoip_uptime_seconds gauge\n"
    ++ ascii "nshgeoip_uptime_seconds " ++ uptimeSeconds.formatF 0 ++ ascii "\n"
    ++ ascii "# HELP nshgeoip_db_open Whether a database is currently open (1) or not (0).\n"
    ++ ascii "# TYPE nshgeoip_db_open gauge\n"
    ++ dbSamples (ascii "nshgeoip_db_open")
      (fun db => some (if db.isOpen then ascii "1" else ascii "0")) dbs
    ++ ascii "# HELP nshgeoip_db_build_epoch_seconds Database build time as a Unix timestamp.\n"
    ++ ascii "# TYPE nshgeoip_db_build_epoch_seconds gauge\n"
    ++ dbSamples (ascii "nshgeoip_db_build_epoch_seconds")
      (fun db => db.metadata.map fun info => dec info.buildEpoch.toNat) dbs
    ++ ascii "# HELP nshgeoip_db_age_seconds Seconds since the database was built.\n"
    ++ ascii "# TYPE nshgeoip_db_age_seconds gauge\n"
    ++ dbSamples (ascii "nshgeoip_db_age_seconds")
      (fun db => db.metadata.map fun info => (info.ageDays.mul (.ofInt 86400)).formatF 0) dbs
    ++ ascii "# HELP nshgeoip_requests_total Total HTTP requests received, by path.\n"
    ++ ascii "# TYPE nshgeoip_requests_total counter\n"
    ++ requests (ascii "lookup") m.lookupRequestsTotal
    ++ requests (ascii "health") m.healthRequestsTotal
    ++ requests (ascii "metrics") m.metricsRequestsTotal
    ++ requests (ascii "other") m.otherRequestsTotal
    ++ ascii "# HELP nshgeoip_http_responses_total HTTP responses sent, by status code.\n"
    ++ ascii "# TYPE nshgeoip_http_responses_total counter\n"
    ++ responses (ascii "200") m.responses200
    ++ responses (ascii "400") m.responses400
    ++ responses (ascii "404") m.responses404
    ++ responses (ascii "405") m.responses405
    ++ responses (ascii "500") m.responses500
    ++ ascii "# HELP nshgeoip_lookup_results_total /lookup outcomes, by result.\n"
    ++ ascii "# TYPE nshgeoip_lookup_results_total counter\n"
    ++ results (ascii "found") m.lookupFoundTotal
    ++ results (ascii "not_found") m.lookupNotFoundTotal
where
  requests (path : Bytes) (n : UInt64) : Bytes :=
    sample (ascii "nshgeoip_requests_total") (ascii "path") path (counterText n)
  responses (code : Bytes) (n : UInt64) : Bytes :=
    sample (ascii "nshgeoip_http_responses_total") (ascii "code") code (counterText n)
  results (result : Bytes) (n : UInt64) : Bytes :=
    sample (ascii "nshgeoip_lookup_results_total") (ascii "result") result (counterText n)

/-- The metadata members of one database in the health body. -/
def renderMetadata (info : GeoIpDbMetadata) : Bytes :=
  ascii ",\"database_type\":" ++ jsonString info.databaseType
    ++ ascii ",\"build_epoch\":" ++ dec info.buildEpoch.toNat
    ++ ascii ",\"build_date\":" ++ jsonString info.buildTime
    ++ ascii ",\"age_days\":" ++ info.ageDays.formatF 1
    ++ ascii ",\"age_ms\":" ++ dec info.ageMs.toNat
    ++ ascii ",\"age_ns\":" ++ dec info.ageNs.toNat

def renderHealthDb (db : MetricsDbInfo) : Bytes :=
  jsonString db.name ++ ascii ":\x7b\"open\":" ++ (if db.isOpen then ascii "true" else ascii "false")
    ++ (match db.metadata with
      | none => []
      | some info => renderMetadata info)
    ++ ascii "\x7d"

def renderHealthJson (dbs : List MetricsDbInfo) (version mmdbLibVersion : Bytes)
    (uptimeSeconds : Binary64) : Bytes :=
  ascii "\x7b\"status\":\"ok\""
    ++ ascii ",\"version\":" ++ jsonString version
    ++ ascii ",\"libmaxminddb_version\":" ++ jsonString mmdbLibVersion
    ++ ascii ",\"uptime_seconds\":" ++ uptimeSeconds.formatF 0
    ++ ascii ",\"databases\":\x7b" ++ (ascii ",").intercalate (dbs.map renderHealthDb) ++ ascii "\x7d"
    ++ ascii "\x7d"

end Nshgeoip
