import Nshgeoip.Lib.Atomic
import Nshgeoip.Server.Accounting
import Nshgeoip.Server.Databases

/-!
`handle_connection` in sections.

`Server.handleConnection` reads the process in one state. The code does not: a lookup and
each metadata read hold the lock on their own, and the open flags, the clocks and the eleven
counters are read one by one. Here each of these is a section, and so is each increment.
`handleConnection_done` says what a handler has done once it has finished, in terms of the
states its sections met.

The order of `collect_db_infos()` and `uptime_seconds()`, two arguments of one call, is up
to the compiler (`uptimeFirst`).
-/

namespace Nshgeoip

open ByteText Atomic

/-! ### The handler -/

abbrev Handler := Thread Server (List Action)

namespace Handler

/-- One `fetch_add`. -/
def count (a : Action) (rest : Handler) : Handler :=
  change (fun srv => { srv with metrics := a.apply srv.metrics }) rest

/-- `db_.has_*()` and `db_.*_metadata()`. -/
def collectDbInfo (name : Bytes) (d : Db) (rest : MetricsDbInfo → Handler) : Handler :=
  read (fun srv => (srv.db.slot d).isOpen) fun isOpen =>
    read (fun srv => (srv.db.slot d).metadata srv.host) fun metadata =>
      rest ⟨name, isOpen, metadata⟩

def collectDbInfos (rest : List MetricsDbInfo → Handler) : Handler :=
  collectDbInfo (ascii "country") .country fun country =>
    collectDbInfo (ascii "asn") .asn fun asn =>
      collectDbInfo (ascii "city") .city fun city => rest [country, asn, city]

/-- The arguments of the two renderers that are read from the process. -/
def arguments (uptimeFirst : Bool) (rest : List MetricsDbInfo → Binary64 → Handler) : Handler :=
  if uptimeFirst then
    read Server.uptimeSeconds fun uptime => collectDbInfos fun infos => rest infos uptime
  else collectDbInfos fun infos => read Server.uptimeSeconds fun uptime => rest infos uptime

def load (k : Counter) (rest : UInt64 → Handler) : Handler :=
  read (fun srv => srv.metrics.get k) rest

/-- The counters in the order `render_prometheus_metrics` loads them. -/
def loadMetrics (rest : Metrics → Handler) : Handler :=
  load .lookupRequests fun lookupRequests =>
  load .healthRequests fun healthRequests =>
  load .metricsRequests fun metricsRequests =>
  load .otherRequests fun otherRequests =>
  load .responses200 fun responses200 =>
  load .responses400 fun responses400 =>
  load .responses404 fun responses404 =>
  load .responses405 fun responses405 =>
  load .responses500 fun responses500 =>
  load .lookupFound fun lookupFound =>
  load .lookupNotFound fun lookupNotFound =>
  rest
    { lookupRequestsTotal := lookupRequests
      healthRequestsTotal := healthRequests
      metricsRequestsTotal := metricsRequests
      otherRequestsTotal := otherRequests
      responses200 := responses200
      responses400 := responses400
      responses404 := responses404
      responses405 := responses405
      responses500 := responses500
      lookupFoundTotal := lookupFound
      lookupNotFoundTotal := lookupNotFound }

/-- The `/lookup` branch: one section under the shared lock. -/
def lookupReply (req : HttpRequest) (fmt : ResponseFormat) (rest : Reply → Handler) : Handler :=
  match findQueryParam req (ascii "ip") with
  | none => rest ([], makeErrorResponse 400 (ascii "missing ip parameter") fmt)
  | some ipText =>
      if ipText = [] then rest ([], makeErrorResponse 400 (ascii "missing ip parameter") fmt)
      else
        match parseIpAddress ipText with
        | none => rest ([], makeErrorResponse 400 (ascii "invalid ip address") fmt)
        | some addr =>
            read (fun srv => srv.db.lookup addr) fun (result, dbError) =>
              if dbError then
                rest ([], makeErrorResponse 500 (ascii "internal database error") fmt)
              else if result.found = false then
                count .lookupNotFound
                  (rest ([.lookupNotFound],
                    makeErrorResponse 404 (ascii "no geoip information found") fmt))
              else count .lookupFound
                (rest ([.lookupFound], buildSuccessResponse ipText result fmt))

/-- The JSON of `/health`. -/
def healthJson (libVersion : Bytes) (infos : List MetricsDbInfo) (uptime : Binary64) :
    HttpResponse :=
  { status := 200
    format := .json
    headers := []
    body := renderHealthJson infos nshgeoipVersion libVersion uptime }

def metricsPage (libVersion : Bytes) (m : Metrics) (infos : List MetricsDbInfo)
    (uptime : Binary64) : HttpResponse :=
  { status := 200
    format := .prometheus
    headers := []
    body := renderPrometheusMetrics m infos nshgeoipVersion libVersion uptime }

/-- The branches on method and path. -/
def reply (uptimeFirst : Bool) (libVersion : Bytes) (req : HttpRequest)
    (rest : Reply → Handler) : Handler :=
  let fmt := negotiateFormat req.accept
  if req.method ≠ ascii "GET" ∧ req.method ≠ ascii "HEAD" then
    let resp := makeErrorResponse 405 (ascii "method not allowed") fmt
    rest ([], { resp with headers := resp.headers ++ [(ascii "Allow", ascii "GET, HEAD")] })
  else if req.path = ascii "/lookup" then lookupReply req fmt rest
  else if req.path = ascii "/health" then
    if acceptWantsJson req.accept then
      arguments uptimeFirst fun infos uptime => rest ([], healthJson libVersion infos uptime)
    else rest ([], { status := 200, format := .text, headers := [], body := ascii "status=ok\n" })
  else if req.path = ascii "/metrics" then
    arguments uptimeFirst fun infos uptime =>
      loadMetrics fun m => rest ([], metricsPage libVersion m infos uptime)
  else rest ([], makeErrorResponse 404 (ascii "not found") fmt)

/-- `record_response`; `write_all` and `close` concern the connection alone. -/
def respond (a : Answer) (sends : List SendOutcome) : Handler :=
  count (.recordResponse a.reply.2.status) (.done (a.actions sends))

/-- `Server::handle_connection` in sections; the result is what it did, in order. -/
def handleConnection (uptimeFirst : Bool) (libVersion : Bytes) (maxRequestBytes : Nat)
    (conn : Connection) : Handler :=
  match readHttpHead maxRequestBytes conn.events [] with
  | (.tooLarge, _) =>
      count (.recordRequest []) (respond (refusal (ascii "request too large")) conn.sends)
  | (.connectionClosed, _) => .done [.close]
  | (.timeout, _) => .done [.close]
  | (.ioError, _) => .done [.close]
  | (.ok, raw) =>
      match parseHttpRequest raw with
      | none =>
          count (.recordRequest []) (respond (refusal (ascii "malformed HTTP request")) conn.sends)
      | some req =>
          count (.recordRequest req.path)
            (reply uptimeFirst libVersion req fun reply =>
              respond ⟨req.path, reply, !isHead req⟩ conn.sends)

end Handler

/-! ### What one handler sees -/

def Db.label : Db → Bytes
  | .country => ascii "country"
  | .asn => ascii "asn"
  | .city => ascii "city"

/-- The entry of a database, its flag and its metadata from one state. -/
def Server.dbInfo (srv : Server) (d : Db) : MetricsDbInfo :=
  ⟨d.label, (srv.db.slot d).isOpen, (srv.db.slot d).metadata srv.host⟩

/-- The list of entries, each from its own state. -/
def dbInfosAt {μ : Type} (state : μ → Server) (m : Db → μ) : List MetricsDbInfo :=
  [.country, .asn, .city].map fun d => (state (m d)).dbInfo d

namespace Handler

variable {μ : Type} {before after : μ → Server} {ms : List μ} {actions : List Action}

/-- No slot is opened or closed while the handlers run. -/
def Steady (state : μ → Server) : Prop :=
  ∀ m m' d, ((state m).db.slot d).isOpen = ((state m').db.slot d).isOpen

theorem routed_of_not {method : Bytes} (h : ¬(method ≠ ascii "GET" ∧ method ≠ ascii "HEAD")) :
    method = ascii "GET" ∨ method = ascii "HEAD" := by
  by_contra neither
  exact h (not_or.mp neither)

/-- The flag is read first and still holds when the metadata is read. -/
theorem collectDbInfo_done (steady : Steady before) {d : Db} {rest : MetricsDbInfo → Handler}
    (h : Follows before after (collectDbInfo d.label d rest) ms (.done actions)) :
    ∃ flag m later, ms = flag :: m :: later ∧
      Follows before after (rest ((before m).dbInfo d)) later (.done actions) := by
  obtain ⟨flag, ms₁, here, first⟩ := h.read_done
  obtain ⟨m, later, rfl, second⟩ := first.read_done
  rw [steady flag m d] at second
  exact ⟨flag, m, later, here, second⟩

theorem collectDbInfos_done (steady : Steady before) {rest : List MetricsDbInfo → Handler}
    (h : Follows before after (collectDbInfos rest) ms (.done actions)) :
    ∃ m seen later, ms = seen ++ later ∧ (∀ d, m d ∈ seen) ∧
      Follows before after (rest (dbInfosAt before m)) later (.done actions) := by
  obtain ⟨flag₁, country, ms₁, here, h₁⟩ := collectDbInfo_done (d := .country) steady h
  obtain ⟨flag₂, asn, ms₂, rfl, h₂⟩ := collectDbInfo_done (d := .asn) steady h₁
  obtain ⟨flag₃, city, later, rfl, h₃⟩ := collectDbInfo_done (d := .city) steady h₂
  refine ⟨fun | .country => country | .asn => asn | .city => city,
    [flag₁, country, flag₂, asn, flag₃, city], later, here, fun d => ?_, h₃⟩
  cases d <;> simp

theorem arguments_done (steady : Steady before) {uptimeFirst : Bool}
    {rest : List MetricsDbInfo → Binary64 → Handler}
    (h : Follows before after (arguments uptimeFirst rest) ms (.done actions)) :
    ∃ m u seen later, ms = seen ++ later ∧ (∀ d, m d ∈ seen) ∧ u ∈ seen ∧
      Follows before after (rest (dbInfosAt before m) (before u).uptimeSeconds) later
        (.done actions) := by
  unfold arguments at h
  split_ifs at h
  · obtain ⟨u, ms', here, h₁⟩ := h.read_done
    obtain ⟨m, seen, later, rfl, mem, h₂⟩ := collectDbInfos_done steady h₁
    exact ⟨m, u, u :: seen, later, here, fun d => List.mem_cons_of_mem _ (mem d),
      List.mem_cons_self, h₂⟩
  · obtain ⟨m, seen, ms', here, mem, h₁⟩ := collectDbInfos_done steady h
    obtain ⟨u, later, rfl, h₂⟩ := h₁.read_done
    exact ⟨m, u, seen ++ [u], later, by simp [here], fun d => List.mem_append_left _ (mem d),
      List.mem_append_right _ List.mem_cons_self, h₂⟩

/-- Each counter is loaded once. -/
theorem loadMetrics_done {rest : Metrics → Handler}
    (h : Follows before after (loadMetrics rest) ms (.done actions)) :
    ∃ shown seen later, ms = seen ++ later ∧
      (∀ k, ∃ m ∈ seen, shown.get k = (before m).metrics.get k) ∧
      Follows before after (rest shown) later (.done actions) := by
  obtain ⟨m₁, ms₁, here, h₁⟩ := h.read_done
  obtain ⟨m₂, ms₂, rfl, h₂⟩ := h₁.read_done
  obtain ⟨m₃, ms₃, rfl, h₃⟩ := h₂.read_done
  obtain ⟨m₄, ms₄, rfl, h₄⟩ := h₃.read_done
  obtain ⟨m₅, ms₅, rfl, h₅⟩ := h₄.read_done
  obtain ⟨m₆, ms₆, rfl, h₆⟩ := h₅.read_done
  obtain ⟨m₇, ms₇, rfl, h₇⟩ := h₆.read_done
  obtain ⟨m₈, ms₈, rfl, h₈⟩ := h₇.read_done
  obtain ⟨m₉, ms₉, rfl, h₉⟩ := h₈.read_done
  obtain ⟨m₁₀, ms₁₀, rfl, h₁₀⟩ := h₉.read_done
  obtain ⟨m₁₁, later, rfl, h₁₁⟩ := h₁₀.read_done
  refine ⟨_, [m₁, m₂, m₃, m₄, m₅, m₆, m₇, m₈, m₉, m₁₀, m₁₁], later, here, fun k => ?_, h₁₁⟩
  cases k with
  | lookupRequests => exact ⟨m₁, by simp, rfl⟩
  | healthRequests => exact ⟨m₂, by simp, rfl⟩
  | metricsRequests => exact ⟨m₃, by simp, rfl⟩
  | otherRequests => exact ⟨m₄, by simp, rfl⟩
  | responses200 => exact ⟨m₅, by simp, rfl⟩
  | responses400 => exact ⟨m₆, by simp, rfl⟩
  | responses404 => exact ⟨m₇, by simp, rfl⟩
  | responses405 => exact ⟨m₈, by simp, rfl⟩
  | responses500 => exact ⟨m₉, by simp, rfl⟩
  | lookupFound => exact ⟨m₁₀, by simp, rfl⟩
  | lookupNotFound => exact ⟨m₁₁, by simp, rfl⟩

/-- How a reply came about: the same in every state, from a lookup at one of the moments, or
from parts read at several of them. -/
inductive Explained (state : μ → Server) (libVersion : Bytes) (req : HttpRequest)
    (seen : List μ) : Reply → Prop where
  | fixed {reply : Reply} :
      (∀ srv : Server, srv.reply req = reply) → Explained state libVersion req seen reply
  | looked {m : μ} : m ∈ seen → Explained state libVersion req seen ((state m).reply req)
  | health {m : Db → μ} {u : μ} :
      Routed req (ascii "/health") → acceptWantsJson req.accept = true → (∀ d, m d ∈ seen) →
        u ∈ seen →
          Explained state libVersion req seen
            ([], healthJson libVersion (dbInfosAt state m) (state u).uptimeSeconds)
  | metrics {m : Db → μ} {u : μ} {shown : Metrics} :
      Routed req (ascii "/metrics") → (∀ d, m d ∈ seen) → u ∈ seen →
        (∀ k, ∃ m ∈ seen, shown.get k = (state m).metrics.get k) →
          Explained state libVersion req seen
            ([], metricsPage libVersion shown (dbInfosAt state m) (state u).uptimeSeconds)

/-- A lookup is one section, and nothing else in the branch depends on the state. -/
theorem lookupReply_done {req : HttpRequest} {libVersion : Bytes} {rest : Reply → Handler}
    (routed : ∀ srv : Server, srv.reply req = srv.lookupReply req (negotiateFormat req.accept))
    (h : Follows before after (lookupReply req (negotiateFormat req.accept) rest) ms
      (.done actions)) :
    ∃ reply seen later, ms = seen ++ later ∧ Explained before libVersion req seen reply ∧
      Follows before after (rest reply) later (.done actions) := by
  simp only [Server.lookupReply] at routed
  unfold lookupReply at h
  cases param : findQueryParam req (ascii "ip") with
  | none =>
      simp only [param] at h routed
      exact ⟨_, [], ms, rfl, .fixed routed, h⟩
  | some ipText =>
      simp only [param] at h routed
      split_ifs at h routed with empty
      · exact ⟨_, [], ms, rfl, .fixed routed, h⟩
      cases parsed : parseIpAddress ipText with
      | none =>
          simp only [parsed] at h routed
          exact ⟨_, [], ms, rfl, .fixed routed, h⟩
      | some addr =>
          simp only [parsed] at h routed
          obtain ⟨m, ms₁, here, h₁⟩ := h.read_done
          have answered := routed (before m)
          split_ifs at h₁ answered with failed missing
          · refine ⟨_, [m], ms₁, here, .looked List.mem_cons_self, ?_⟩
            rw [answered]
            exact h₁
          · obtain ⟨counted, later, rfl, -, h₂⟩ := h₁.change_done
            refine ⟨_, [m, counted], later, here, .looked List.mem_cons_self, ?_⟩
            rw [answered]
            exact h₂
          · obtain ⟨counted, later, rfl, -, h₂⟩ := h₁.change_done
            refine ⟨_, [m, counted], later, here, .looked List.mem_cons_self, ?_⟩
            rw [answered]
            exact h₂

theorem reply_done (steady : Steady before) {uptimeFirst : Bool} {libVersion : Bytes}
    {req : HttpRequest} {rest : Reply → Handler}
    (h : Follows before after (reply uptimeFirst libVersion req rest) ms (.done actions)) :
    ∃ reply seen later, ms = seen ++ later ∧ Explained before libVersion req seen reply ∧
      Follows before after (rest reply) later (.done actions) := by
  unfold reply at h
  dsimp only at h
  split_ifs at h with other lookup health json metrics
  · refine ⟨_, [], ms, rfl, .fixed fun srv => ?_, h⟩
    rw [Server.reply, if_pos other]
  · refine lookupReply_done (fun srv => ?_) h
    rw [Server.reply, if_neg other, if_pos lookup]
  · obtain ⟨m, u, seen, later, here, infos, uptime, h₁⟩ := arguments_done steady h
    exact ⟨_, seen, later, here, .health ⟨routed_of_not other, health⟩ json infos uptime, h₁⟩
  · refine ⟨_, [], ms, rfl, .fixed fun srv => ?_, h⟩
    rw [Server.reply, if_neg other, if_neg lookup, if_pos health, Server.healthResponse, if_neg json,
      if_neg json]
  · obtain ⟨m, u, seen, ms', here, infos, uptime, h₁⟩ := arguments_done steady h
    obtain ⟨shown, loaded, later, rfl, counters, h₂⟩ := loadMetrics_done h₁
    refine ⟨_, seen ++ loaded, later, by rw [here, List.append_assoc],
      .metrics ⟨routed_of_not other, metrics⟩ (fun d => List.mem_append_left _ (infos d))
        (List.mem_append_left _ uptime) fun k => ?_, h₂⟩
    obtain ⟨m', mem, value⟩ := counters k
    exact ⟨m', List.mem_append_right _ mem, value⟩
  · refine ⟨_, [], ms, rfl, .fixed fun srv => ?_, h⟩
    rw [Server.reply, if_neg other, if_neg lookup, if_neg health, if_neg metrics]

/-- How an answer came about. -/
inductive Settled (state : μ → Server) (libVersion : Bytes) (maxRequestBytes : Nat)
    (events : List RecvEvent) (seen : List μ) : Answer → Prop where
  | fixed {a : Answer} :
      (∀ srv : Server, srv.maxRequestBytes = maxRequestBytes → srv.answer events = some a) →
        Settled state libVersion maxRequestBytes events seen a
  | parsed {raw : Bytes} {req : HttpRequest} {reply : Reply} :
      readHttpHead maxRequestBytes events [] = (.ok, raw) → parseHttpRequest raw = some req →
        Explained state libVersion req seen reply →
          Settled state libVersion maxRequestBytes events seen ⟨req.path, reply, !isHead req⟩

theorem respond_done {a : Answer} {sends : List SendOutcome}
    (h : Follows before after (respond a sends) ms (.done actions)) :
    ∃ last, ms = [last] ∧ actions = a.actions sends ∧
      (after last).metrics = (before last).metrics.recordResponse a.reply.2.status := by
  obtain ⟨last, later, here, counted, h₁⟩ := h.change_done
  obtain ⟨rfl, rfl⟩ := h₁.of_done
  exact ⟨last, here, rfl, by rw [counted]; rfl⟩

/-- A handler that counts its request at `first` and its response at `last`. -/
structure Concluded (before after : μ → Server) (libVersion : Bytes) (maxRequestBytes : Nat)
    (conn : Connection) (ms : List μ) (actions : List Action) (first : μ) (seen : List μ)
    (last : μ) (a : Answer) : Prop where
  moments : ms = first :: (seen ++ [last])
  done : actions = a.actions conn.sends
  requested : (after first).metrics = (before first).metrics.recordRequest a.path
  responded : (after last).metrics = (before last).metrics.recordResponse a.reply.2.status
  settled : Settled before libVersion maxRequestBytes conn.events seen a

/-- A refusal is settled without any section. -/
theorem refusal_done {libVersion : Bytes} {maxRequestBytes : Nat} {conn : Connection}
    {message : Bytes}
    (settled : ∀ srv : Server, srv.maxRequestBytes = maxRequestBytes →
      srv.answer conn.events = some (refusal message))
    (h : Follows before after
      (count (.recordRequest []) (respond (refusal message) conn.sends)) ms (.done actions)) :
    ∃ first last, Concluded before after libVersion maxRequestBytes conn ms actions first [] last
      (refusal message) := by
  obtain ⟨first, later, here, counted, h₁⟩ := h.change_done
  obtain ⟨last, rfl, done, responded⟩ := respond_done h₁
  refine ⟨first, last, here, done, ?_, responded, .fixed settled⟩
  rw [counted]
  rfl

/-- **A handler closes at once, or counts its request, settles on an answer and counts the
response.** -/
theorem handleConnection_done (steady : Steady before) {uptimeFirst : Bool} {libVersion : Bytes}
    {maxRequestBytes : Nat} {conn : Connection}
    (h : Follows before after (handleConnection uptimeFirst libVersion maxRequestBytes conn) ms
      (.done actions)) :
    (actions = [.close] ∧ ∀ srv : Server, srv.maxRequestBytes = maxRequestBytes →
        srv.answer conn.events = none) ∨
      ∃ first seen last a,
        Concluded before after libVersion maxRequestBytes conn ms actions first seen last a := by
  unfold handleConnection at h
  cases found : readHttpHead maxRequestBytes conn.events [] with
  | mk verdict raw =>
      rw [found] at h
      cases verdict with
      | tooLarge =>
          have settled : ∀ srv : Server, srv.maxRequestBytes = maxRequestBytes →
              srv.answer conn.events = some (refusal (ascii "request too large")) := by
            intro srv same
            rw [Server.answer, same, found]
          obtain ⟨first, last, concluded⟩ := refusal_done settled h
          exact .inr ⟨first, [], last, _, concluded⟩
      | ok =>
          dsimp only at h
          cases parsed : parseHttpRequest raw with
          | none =>
              rw [parsed] at h
              have settled : ∀ srv : Server, srv.maxRequestBytes = maxRequestBytes →
                  srv.answer conn.events = some (refusal (ascii "malformed HTTP request")) := by
                intro srv same
                simp only [Server.answer, same, found, Server.answerTo, parsed]
              obtain ⟨first, last, concluded⟩ := refusal_done settled h
              exact .inr ⟨first, [], last, _, concluded⟩
          | some req =>
              rw [parsed] at h
              obtain ⟨first, ms₁, here, counted, h₁⟩ := h.change_done
              obtain ⟨reply, seen, later, rfl, explained, h₂⟩ := reply_done steady h₁
              obtain ⟨last, rfl, done, responded⟩ := respond_done h₂
              refine .inr ⟨first, seen, last, _, here, done, ?_, responded,
                .parsed found parsed explained⟩
              rw [counted]
              rfl
      | _ =>
          obtain ⟨-, rfl⟩ := h.of_done
          refine .inl ⟨rfl, fun srv same => ?_⟩
          rw [Server.answer, same, found]

end Handler

end Nshgeoip
