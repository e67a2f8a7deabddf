import Nshgeoip.Http
import Nshgeoip.Metrics

/-!
`server.cpp`: the connection handler.

A connection is what the handler meets on its descriptor: the events of the
read loop and the outcomes of `send`. `handleConnection` is the list of the
atomic actions it performs, in order: counter increments, the bytes it puts on
the wire, and the `close`. Log lines are left out. What the handler reads from
the rest of the process (the databases under their lock, the counters, the
clock) is its `Server` view, which other threads may have changed between two
connections.
-/

namespace Nshgeoip

open ByteText

/-! ### Writing -/

/-- What one `send` reports: a count of bytes taken, an interruption, or an error. -/
inductive SendOutcome where
  | sent (count : Nat)
  | interrupted
  | error

/-- `write_all` on the bytes not sent yet: what goes out, and the value
returned. The list has an outcome for each call of `send`; running out of it
counts as an error. -/
def writeAll : List SendOutcome → Bytes → Bytes × Bool
  | _, [] => ([], true)
  | [], _ :: _ => ([], false)
  | .interrupted :: outcomes, data => writeAll outcomes data
  | .error :: _, _ => ([], false)
  | .sent count :: outcomes, data =>
      let rest := writeAll outcomes (data.drop count)
      (data.take count ++ rest.1, rest.2)

/-! ### Bodies -/

/-- `std::setprecision(9)` in the stream's default notation. -/
def formatDouble (d : Binary64) : Bytes := d.formatG 8

/-- A JSON member value that may be absent. -/
def jsonOr {α : Type} (text : α → Bytes) : Option α → Bytes
  | none => ascii "null"
  | some v => text v

def buildJsonBody (ipText : Bytes) (result : GeoIpResult) : Bytes :=
  ascii "\x7b" ++ ascii "\"ip\":" ++ jsonString ipText
    ++ ascii ",\"country_code\":" ++ jsonOr jsonString result.countryCode
    ++ ascii ",\"country_name\":" ++ jsonOr jsonString result.countryName
    ++ ascii ",\"continent_code\":" ++ jsonOr jsonString result.continentCode
    ++ ascii ",\"asn\":" ++ jsonOr (fun n => dec n.toNat) result.asn
    ++ ascii ",\"as_org\":" ++ jsonOr jsonString result.asOrg
    ++ ascii ",\"city_name\":" ++ jsonOr jsonString result.cityName
    ++ ascii ",\"postal_code\":" ++ jsonOr jsonString result.postalCode
    ++ ascii ",\"latitude\":" ++ jsonOr formatDouble result.latitude
    ++ ascii ",\"longitude\":" ++ jsonOr formatDouble result.longitude
    ++ ascii ",\"accuracy_radius\":" ++ jsonOr (fun n => dec n.toNat) result.accuracyRadius
    ++ ascii "\x7d"

/-- A `key=value` line, or no line for an absent value. -/
def iniLine {α : Type} (key : Bytes) (text : α → Bytes) : Option α → Bytes
  | none => []
  | some v => key ++ ascii "=" ++ text v ++ ascii "\n"

def buildIniBody (ipText : Bytes) (result : GeoIpResult) : Bytes :=
  ascii "ip=" ++ sanitizeHeaderValue ipText ++ ascii "\n"
    ++ iniLine (ascii "country_code") sanitizeHeaderValue result.countryCode
    ++ iniLine (ascii "country_name") sanitizeHeaderValue result.countryName
    ++ iniLine (ascii "continent_code") sanitizeHeaderValue result.continentCode
    ++ iniLine (ascii "asn") (fun n => dec n.toNat) result.asn
    ++ iniLine (ascii "as_org") sanitizeHeaderValue result.asOrg
    ++ iniLine (ascii "city_name") sanitizeHeaderValue result.cityName
    ++ iniLine (ascii "postal_code") sanitizeHeaderValue result.postalCode
    ++ iniLine (ascii "latitude") formatDouble result.latitude
    ++ iniLine (ascii "longitude") formatDouble result.longitude
    ++ iniLine (ascii "accuracy_radius") (fun n => dec n.toNat) result.accuracyRadius

/-- A header, or none for an absent value. -/
def headerOf {α : Type} (name : Bytes) (text : α → Bytes) : Option α → List (Bytes × Bytes)
  | none => []
  | some v => [(name, text v)]

def successHeaders (result : GeoIpResult) : List (Bytes × Bytes) :=
  headerOf (ascii "X-GeoIP-Country") sanitizeHeaderValue result.countryCode
    ++ headerOf (ascii "X-GeoIP-Continent") sanitizeHeaderValue result.continentCode
    ++ headerOf (ascii "X-GeoIP-ASN") (fun n => dec n.toNat) result.asn
    ++ headerOf (ascii "X-GeoIP-AS-Org") sanitizeHeaderValue result.asOrg
    ++ headerOf (ascii "X-GeoIP-City") sanitizeHeaderValue result.cityName
    ++ headerOf (ascii "X-GeoIP-Postal-Code") sanitizeHeaderValue result.postalCode
    ++ headerOf (ascii "X-GeoIP-Latitude") formatDouble result.latitude
    ++ headerOf (ascii "X-GeoIP-Longitude") formatDouble result.longitude
    ++ headerOf (ascii "X-GeoIP-Accuracy-Radius") (fun n => dec n.toNat) result.accuracyRadius

def buildSuccessResponse (ipText : Bytes) (result : GeoIpResult) (format : ResponseFormat) :
    HttpResponse :=
  { status := 200
    format := format
    headers := successHeaders result
    body := if format = .json then buildJsonBody ipText result else buildIniBody ipText result }

/-! ### The handler -/

/-- The state the handler reads. -/
structure Server where
  maxRequestBytes : Nat
  db : GeoIpDatabases
  metrics : Metrics
  host : Host

/-- `NSHGEOIP_VERSION`. -/
def nshgeoipVersion : Bytes := ascii "0.9.2"

def Server.collectDbInfos (srv : Server) : List MetricsDbInfo :=
  [⟨ascii "country", srv.db.country.isOpen, srv.db.country.metadata srv.host⟩,
    ⟨ascii "asn", srv.db.asn.isOpen, srv.db.asn.metadata srv.host⟩,
    ⟨ascii "city", srv.db.city.isOpen, srv.db.city.metadata srv.host⟩]

/-- `duration<double>(now - start).count()`. -/
def Server.uptimeSeconds (srv : Server) : Binary64 :=
  (Binary64.ofInt srv.host.uptimeNanoseconds.toInt).div (.ofInt 1000000000)

/-- One atomic action of a handler. -/
inductive Action where
  | recordRequest (path : Bytes)
  | lookupFound
  | lookupNotFound
  | recordResponse (status : Nat)
  | write (sent : Bytes) (complete : Bool)
  | close

/-- A response with the lookup counter incremented on the way to it. -/
abbrev Reply := List Action × HttpResponse

/-- The `/lookup` branch. -/
def Server.lookupReply (srv : Server) (req : HttpRequest) (fmt : ResponseFormat) : Reply :=
  match findQueryParam req (ascii "ip") with
  | none => ([], makeErrorResponse 400 (ascii "missing ip parameter") fmt)
  | some ipText =>
      if ipText = [] then ([], makeErrorResponse 400 (ascii "missing ip parameter") fmt)
      else
        match parseIpAddress ipText with
        | none => ([], makeErrorResponse 400 (ascii "invalid ip address") fmt)
        | some addr =>
            let (result, dbError) := srv.db.lookup addr
            if dbError then ([], makeErrorResponse 500 (ascii "internal database error") fmt)
            else if result.found = false then
              ([.lookupNotFound], makeErrorResponse 404 (ascii "no geoip information found") fmt)
            else ([.lookupFound], buildSuccessResponse ipText result fmt)

/-- The `/health` branch: a status line unless JSON is asked for. -/
def Server.healthResponse (srv : Server) (req : HttpRequest) : HttpResponse :=
  { status := 200
    format := if acceptWantsJson req.accept then .json else .text
    headers := []
    body :=
      if acceptWantsJson req.accept then
        renderHealthJson srv.collectDbInfos nshgeoipVersion srv.host.mmdbLibVersion
          srv.uptimeSeconds
      else ascii "status=ok\n" }

/-- The `/metrics` branch: always the Prometheus text format. -/
def Server.metricsResponse (srv : Server) : HttpResponse :=
  { status := 200
    format := .prometheus
    headers := []
    body :=
      renderPrometheusMetrics srv.metrics srv.collectDbInfos nshgeoipVersion
        srv.host.mmdbLibVersion srv.uptimeSeconds }

/-- The branches on method and path, for a request that parsed. -/
def Server.reply (srv : Server) (req : HttpRequest) : Reply :=
  let fmt := negotiateFormat req.accept
  if req.method ≠ ascii "GET" ∧ req.method ≠ ascii "HEAD" then
    let resp := makeErrorResponse 405 (ascii "method not allowed") fmt
    ([], { resp with headers := resp.headers ++ [(ascii "Allow", ascii "GET, HEAD")] })
  else if req.path = ascii "/lookup" then srv.lookupReply req fmt
  else if req.path = ascii "/health" then ([], srv.healthResponse req)
  else if req.path = ascii "/metrics" then ([], srv.metricsResponse)
  else ([], makeErrorResponse 404 (ascii "not found") fmt)

/-- `is_head`: set only behind the method check. -/
def isHead (req : HttpRequest) : Bool := req.method = ascii "HEAD"

/-- What the handler meets on its descriptor. -/
structure Connection where
  events : List RecvEvent
  sends : List SendOutcome

/-- `record_response`, `write_all`, `close`. -/
def finish (sends : List SendOutcome) (resp : HttpResponse) (includeBody : Bool) : List Action :=
  let out := writeAll sends (buildHttpResponse resp includeBody)
  [.recordResponse resp.status, .write out.1 out.2, .close]

def Server.handleConnection (srv : Server) (conn : Connection) : List Action :=
  match readHttpHead srv.maxRequestBytes conn.events [] with
  | (.tooLarge, _) =>
      .recordRequest [] ::
        finish conn.sends (makeErrorResponse 400 (ascii "request too large") .json) true
  | (.connectionClosed, _) => [.close]
  | (.timeout, _) => [.close]
  | (.ioError, _) => [.close]
  | (.ok, raw) =>
      match parseHttpRequest raw with
      | none =>
          .recordRequest [] ::
            finish conn.sends (makeErrorResponse 400 (ascii "malformed HTTP request") .json) true
      | some req =>
          let reply := srv.reply req
          .recordRequest req.path :: (reply.1 ++ finish conn.sends reply.2 (!isHead req))

end Nshgeoip
