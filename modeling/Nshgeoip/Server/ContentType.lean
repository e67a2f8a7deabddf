import Nshgeoip.Server.Lookup
import Nshgeoip.Server.Framing
import Nshgeoip.Metrics.ReadBack
import Nshgeoip.Geoip.Age

/-!
The declared type of a response against its body.

Text bodies are always `key=value` lines, and every JSON body but one is a JSON
text. The one is a lookup that found a coordinate the stream does not print as
a number: a database may hold any IEEE double, and `format_double` prints an
infinity or a NaN as it is. `bodiesMatch_iff` says that nothing else goes
wrong.
-/

namespace Nshgeoip

open ByteText JsonText

/-! ### Error and health bodies -/

theorem makeErrorResponse_json (status : Nat) (message : Bytes) :
    WellFormed (makeErrorResponse status message .json).body := by
  have body : (makeErrorResponse status message .json).body =
      compactObject [(ascii "error", jsonString message)] := by
    have start : ascii "\x7b\"error\":\"" = 123 :: 34 :: (ascii "error" ++ [34, 58, 34]) := rfl
    have stop : ascii "\"\x7d" = [34, 125] := rfl
    simp only [makeErrorResponse, if_true, start, stop, compactObject, compactMembers, compactPair,
      pairText, jsonString, List.append_assoc, List.nil_append, List.cons_append, List.append_nil]
    rfl
  rw [body]
  exact ⟨_, isText_compactObject (.cons (pairDerives_named rfl (derives_jsonString message)) .nil)⟩

theorem makeErrorResponse_text (status : Nat) {message : String}
    (h : (ascii message).all (fun b => !isControl b) = true) {format : ResponseFormat}
    (text : format ≠ .json) : IniText (makeErrorResponse status (ascii message) format).body := by
  have body : (makeErrorResponse status (ascii message) format).body =
      ascii "error" ++ ascii "=" ++ ascii message ++ ascii "\n" := by
    simp only [makeErrorResponse, if_neg text]
    rfl
  rw [body]
  exact iniText_line rfl (noControl_ascii h)

theorem negotiateFormat_ne_prometheus (accept : Bytes) : negotiateFormat accept ≠ .prometheus := by
  unfold negotiateFormat
  split_ifs <;> simp

theorem uptimeSeconds_isFinite (srv : Server) : srv.uptimeSeconds.isFinite = true := by
  have high := srv.host.uptimeNanoseconds.toInt_lt
  have low := srv.host.uptimeNanoseconds.le_toInt
  refine Binary64.div_isFinite (Binary64.ofInt_isFinite ?_) (by decide +kernel) (by decide +kernel)
  rw [abs_le]
  omega

theorem metadata_ageDays_isFinite {host : Host} {slot : DbSlot} {info : GeoIpDbMetadata}
    (h : info ∈ slot.metadata host) : info.ageDays.isFinite = true := by
  unfold DbSlot.metadata at h
  split at h
  · cases h
    exact makeMetadata_ageDays_isFinite host slot.mmdb
  · cases h

theorem collectDbInfos_ageDays_isFinite (srv : Server) :
    ∀ db ∈ srv.collectDbInfos, ∀ info ∈ db.metadata, info.ageDays.isFinite = true := by
  unfold Server.collectDbInfos
  refine List.forall_mem_cons.mpr ⟨fun _ => metadata_ageDays_isFinite, ?_⟩
  refine List.forall_mem_cons.mpr ⟨fun _ => metadata_ageDays_isFinite, ?_⟩
  exact List.forall_mem_singleton.mpr fun _ => metadata_ageDays_isFinite

/-- The health body is always a JSON text: clock differences do not overflow. -/
theorem health_wellFormed (srv : Server) :
    WellFormed (renderHealthJson srv.collectDbInfos nshgeoipVersion srv.host.mmdbLibVersion
      srv.uptimeSeconds) :=
  ⟨_, isText_renderHealthJson (collectDbInfos_ageDays_isFinite srv) (uptimeSeconds_isFinite srv) _ _⟩

/-- The metrics body of a server in any state is a document of the text format, for the
same reason. -/
theorem metricsResponse_isDocument (srv : Server) :
    PromText.IsDocument
      ((exposition srv.metrics srv.collectDbInfos nshgeoipVersion srv.host.mmdbLibVersion
        srv.uptimeSeconds).flatMap MetricFamily.lines) srv.metricsResponse.body :=
  renderPrometheusMetrics_isDocument srv.metrics _ _
    (Binary64.isNan_of_isFinite (uptimeSeconds_isFinite srv)) fun db mem info hinfo =>
      Binary64.isNan_of_isFinite (collectDbInfos_ageDays_isFinite srv db mem info hinfo)

/-! ### The body of every reply -/

theorem Replies.text_body {srv : Server} {req : HttpRequest} {reply : Reply}
    (h : Replies srv req reply) (text : reply.2.format = .text) : IniText reply.2.body := by
  have plain : negotiateFormat req.accept = .text → negotiateFormat req.accept ≠ .json := by
    intro eq
    simp [eq]
  cases h with
  | notAllowed => exact makeErrorResponse_text 405 rfl (plain text)
  | missingIp => exact makeErrorResponse_text 400 rfl (plain text)
  | invalidIp => exact makeErrorResponse_text 400 rfl (plain text)
  | databaseError => exact makeErrorResponse_text 500 rfl (plain text)
  | lookupNotFound => exact makeErrorResponse_text 404 rfl (plain text)
  | unknown => exact makeErrorResponse_text 404 rfl (plain text)
  | metrics => cases text
  | health =>
      have wants : acceptWantsJson req.accept = false := by
        by_contra json
        simp [Server.healthResponse, json] at text
      simp only [Server.healthResponse, wants, Bool.false_eq_true, if_false]
      exact @iniText_line "status" (ascii "ok") rfl (noControl_ascii rfl)
  | lookupFound =>
      simp only [buildSuccessResponse, if_neg (plain text)]
      exact iniText_buildIniBody _ _

theorem Replies.prometheus_path {srv : Server} {req : HttpRequest} {reply : Reply}
    (h : Replies srv req reply) (prometheus : reply.2.format = .prometheus) :
    req.path = ascii "/metrics" ∧ reply.2.status = 200 := by
  have never := negotiateFormat_ne_prometheus req.accept
  cases h with
  | metrics routed => exact ⟨routed.2, rfl⟩
  | health =>
      simp only [Server.healthResponse] at prometheus
      split at prometheus <;> cases prometheus
  | notAllowed => exact absurd prometheus never
  | missingIp => exact absurd prometheus never
  | invalidIp => exact absurd prometheus never
  | databaseError => exact absurd prometheus never
  | lookupNotFound => exact absurd prometheus never
  | lookupFound => exact absurd prometheus never
  | unknown => exact absurd prometheus never

/-- A coordinate of the city record that no decimal text denotes. -/
def UnprintableRecord (db : GeoIpDatabases) (addr : ParsedAddr) : Prop :=
  ∃ entry, db.city.record addr = some entry ∧
    ∃ d, (getDouble entry ["location", "latitude"] = some d ∨
      getDouble entry ["location", "longitude"] = some d) ∧ d.isFinite = false

theorem merged_finite_iff (db : GeoIpDatabases) (addr : ParsedAddr) :
    Finite (db.merged addr).latitude ∧ Finite (db.merged addr).longitude ↔
      ¬ UnprintableRecord db addr := by
  unfold UnprintableRecord Finite GeoIpDatabases.merged
  cases db.city.record addr with
  | none => simp
  | some entry =>
      simp only [Option.bind_some, Option.some.injEq, exists_eq_left', not_exists, not_and,
        Bool.not_eq_false, Option.mem_def]
      constructor
      · rintro ⟨latitude, longitude⟩ d (h | h)
        · exact latitude d h
        · exact longitude d h
      · intro all
        exact ⟨fun d h => all d (.inl h), fun d h => all d (.inr h)⟩

/-- A request whose answer is a record with an unprintable coordinate. -/
structure UnprintableLookup (srv : Server) (req : HttpRequest) : Prop where
  routed : Routed req (ascii "/lookup")
  json : negotiateFormat req.accept = .json
  record : ∃ ipText addr, Looked req ipText addr ∧ srv.db.Sound addr ∧
    UnprintableRecord srv.db addr

theorem Replies.json_body {srv : Server} {req : HttpRequest} {reply : Reply}
    (h : Replies srv req reply) (json : reply.2.format = .json)
    (printable : ¬ UnprintableLookup srv req) : WellFormed reply.2.body := by
  have error : ∀ status message, negotiateFormat req.accept = .json →
      WellFormed (makeErrorResponse status message (negotiateFormat req.accept)).body := by
    intro status message eq
    rw [eq]
    exact makeErrorResponse_json status message
  cases h with
  | notAllowed => exact error 405 _ json
  | missingIp => exact error 400 _ json
  | invalidIp => exact error 400 _ json
  | databaseError => exact error 500 _ json
  | lookupNotFound => exact error 404 _ json
  | unknown => exact error 404 _ json
  | metrics => cases json
  | health =>
      have wants : acceptWantsJson req.accept = true := by
        by_contra text
        simp [Server.healthResponse, text] at json
      simp only [Server.healthResponse, wants, if_true]
      exact health_wellFormed srv
  | @lookupFound ipText addr routed looked noError found =>
      have format : negotiateFormat req.accept = .json := json
      have sound := GeoIpDatabases.sound_of_lookup noError
      have finite := (merged_finite_iff srv.db addr).mpr fun bad =>
        printable ⟨routed, format, ipText, addr, looked, sound, bad⟩
      simp only [buildSuccessResponse, if_pos format, GeoIpDatabases.lookup_eq_merged sound]
      exact (buildJsonBody_wellFormed_iff ipText _).mpr finite

/-! ### The declared type on the wire -/

/-- The only `Content-Type` line is the one `build_http_response` writes, and
it writes one only with a body. -/
theorem contentType_line {srv : Server} {events : List RecvEvent} {a : Answer}
    (h : srv.answer events = some a) {line : Bytes}
    (mem : line ∈ responseLines a.reply.2 a.includeBody)
    (typed : ascii "Content-Type: " <+: line) :
    a.includeBody = true ∧ line = ascii "Content-Type: " ++ contentType a.reply.2.format := by
  have extra := Server.answer_headers_extra h
  have clean := responseHeaders_clean (fun header mem => (extra header mem).clean) a.includeBody
  rcases List.mem_cons.mp mem with rfl | inside
  · obtain ⟨rest, eq⟩ := typed
    cases congrArg List.head? eq
  · obtain ⟨header, headerMem, eq⟩ := List.mem_map.mp inside
    have name := (clean header headerMem).name_of_typed (eq ▸ typed)
    have notLength : ascii "Content-Length" ≠ ascii "Content-Type" := by decide
    have notConnection : ascii "Connection" ≠ ascii "Content-Type" := by decide
    unfold responseHeaders at headerMem
    cases body : a.includeBody with
    | false =>
        rw [body] at headerMem
        simp only [Bool.false_eq_true, if_false, List.nil_append, List.cons_append,
          List.mem_cons] at headerMem
        rcases headerMem with rfl | rfl | own
        · exact absurd name notLength
        · exact absurd name notConnection
        · exact absurd name (extra header own).notType
    | true =>
        rw [body] at headerMem
        simp only [if_true, List.nil_append, List.cons_append, List.mem_cons] at headerMem
        rcases headerMem with rfl | rfl | rfl | own
        · exact ⟨rfl, eq.symm⟩
        · exact absurd name notLength
        · exact absurd name notConnection
        · exact absurd name (extra header own).notType

/-- What a client may expect of a complete response to a request for `path`:
a body that is what its declared type says. -/
structure BodyMatches (path message : Bytes) : Prop where
  json : ∀ lines body, readHead message = some (lines, body) →
    ascii "Content-Type: application/json" ∈ lines → WellFormed body
  text : ∀ lines body, readHead message = some (lines, body) →
    (∃ line ∈ lines, ascii "Content-Type: text/plain" <+: line) →
    (path = ascii "/lookup" ∨ lines.head? ≠ some (ascii "HTTP/1.1 200 OK")) → IniText body

/-- Every complete response to what a client sent is so. -/
def BodiesMatch (srv : Server) (events : List RecvEvent) : Prop :=
  ∀ sends path message, Action.recordRequest path ∈ srv.handleConnection ⟨events, sends⟩ →
    Action.write message true ∈ srv.handleConnection ⟨events, sends⟩ → BodyMatches path message

/-- A complete response is the one that was built, counted under its path. -/
theorem Answer.of_mem {srv : Server} {events : List RecvEvent} {a : Answer}
    (h : srv.answer events = some a) {sends : List SendOutcome} {path message : Bytes}
    (recorded : Action.recordRequest path ∈ a.actions sends)
    (written : Action.write message true ∈ a.actions sends) :
    path = a.path ∧ message = buildHttpResponse a.reply.2 a.includeBody := by
  constructor
  · unfold Answer.actions at recorded
    rcases Server.answer_counted h with none | found | missing
    · simpa [none, finish] using recorded
    · simpa [found, finish] using recorded
    · simpa [missing, finish] using recorded
  · have onWire : (message, true) ∈ wire (a.actions sends) :=
      List.mem_filterMap.mpr ⟨_, written, rfl⟩
    rw [Answer.wire_actions h, List.mem_singleton] at onWire
    have sent : message = (writeAll sends (buildHttpResponse a.reply.2 a.includeBody)).1 :=
      congrArg Prod.fst onWire
    have complete : true = (writeAll sends (buildHttpResponse a.reply.2 a.includeBody)).2 :=
      congrArg Prod.snd onWire
    rw [sent, writeAll_complete complete.symm]

/-- An answer that declares JSON has a JSON body, an unprintable lookup apart. -/
theorem Server.answer_json {srv : Server} {events : List RecvEvent} {a : Answer}
    (h : srv.answer events = some a) (body : a.includeBody = true)
    (json : a.reply.2.format = .json)
    (printable : ∀ raw req, readHttpHead srv.maxRequestBytes events [] = (.ok, raw) →
      parseHttpRequest raw = some req → req.method = ascii "GET" → ¬ UnprintableLookup srv req) :
    WellFormed a.reply.2.body := by
  rcases Server.answer_cases h with rfl | rfl | ⟨raw, req, read, parsed, replies, rfl⟩
  · exact makeErrorResponse_json 400 _
  · exact makeErrorResponse_json 400 _
  · refine replies.json_body json fun bad => ?_
    have notHead : req.method ≠ ascii "HEAD" := by simpa [isHead] using body
    exact printable raw req read parsed (bad.routed.1.resolve_right notHead) bad

theorem Server.answer_text {srv : Server} {events : List RecvEvent} {a : Answer}
    (h : srv.answer events = some a) (plain : a.reply.2.format ≠ .json)
    (lookupOrError : a.path = ascii "/lookup" ∨ a.reply.2.status ≠ 200) :
    IniText a.reply.2.body := by
  rcases Server.answer_cases h with rfl | rfl | ⟨raw, req, -, -, replies, rfl⟩
  · exact absurd rfl plain
  · exact absurd rfl plain
  · dsimp only at plain lookupOrError ⊢
    cases format : (srv.reply req).2.format with
    | json => exact absurd format plain
    | text => exact replies.text_body format
    | prometheus =>
        obtain ⟨path, status⟩ := replies.prometheus_path format
        rcases lookupOrError with lookup | error
        · rw [path] at lookup
          exact absurd lookup (by decide)
        · exact absurd status error

/-- An unprintable lookup is answered with the record all the same. -/
theorem UnprintableLookup.reply {srv : Server} {req : HttpRequest} (h : UnprintableLookup srv req) :
    ∃ ipText addr, UnprintableRecord srv.db addr ∧
      srv.reply req = ([.lookupFound], buildSuccessResponse ipText (srv.db.merged addr) .json) := by
  obtain ⟨routed, json, ipText, addr, looked, sound, record⟩ := h
  have found : (srv.db.merged addr).found = true := by
    obtain ⟨entry, some, -⟩ := record
    exact (merged_found_iff srv.db addr).mpr ⟨srv.db.city, by simp, entry, some⟩
  have known : ¬ (req.method ≠ ascii "GET" ∧ req.method ≠ ascii "HEAD") := by
    rintro ⟨get, head⟩
    exact routed.1.elim get head
  refine ⟨ipText, addr, record, ?_⟩
  simp only [Server.reply, if_neg known, if_pos routed.2, json,
    Server.lookupReply_of_looked looked sound, found, Bool.true_eq_false, if_false]

/-- The response to an unprintable lookup declares JSON and is not. -/
theorem not_bodiesMatch {srv : Server} {events : List RecvEvent} {raw : Bytes} {req : HttpRequest}
    (read : readHttpHead srv.maxRequestBytes events [] = (.ok, raw))
    (parsed : parseHttpRequest raw = some req) (method : req.method = ascii "GET")
    (bad : UnprintableLookup srv req) : ¬ BodiesMatch srv events := by
  intro bodies
  obtain ⟨ipText, addr, record, reply⟩ := bad.reply
  have answered := Server.answer_of_parsed read parsed
  have head : isHead req = false := by
    rw [isHead, method]
    decide
  rw [reply, head] at answered
  -- A kernel that takes the whole message makes the response complete.
  have matched := bodies [.sent _] req.path _
    (by rw [handleConnection_eq, answered]; exact List.mem_cons_self)
    (by
      rw [handleConnection_eq, answered]
      refine List.mem_cons_of_mem _ (List.mem_append_right _ (List.mem_cons_of_mem _ ?_))
      rw [writeAll_whole]
      exact List.mem_cons_self)
  have framing := (Server.answer_readsAs answered).head
  have wellFormed := matched.json _ _ framing (List.mem_cons_of_mem _ List.mem_cons_self)
  exact (merged_finite_iff srv.db addr).mp
    ((buildJsonBody_wellFormed_iff ipText _).mp wellFormed) record

/-- **What goes wrong, exactly.** Every complete response has the body its type
declares if and only if the request is not a `GET /lookup` that negotiates JSON
for an address whose city record has a coordinate that is not finite. -/
theorem bodiesMatch_iff (srv : Server) (events : List RecvEvent) :
    BodiesMatch srv events ↔
      ∀ raw req, readHttpHead srv.maxRequestBytes events [] = (.ok, raw) →
        parseHttpRequest raw = some req → req.method = ascii "GET" →
          ¬ UnprintableLookup srv req := by
  constructor
  · intro bodies raw req read parsed method bad
    exact not_bodiesMatch read parsed method bad bodies
  · intro printable sends path message recorded written
    rw [handleConnection_eq] at recorded written
    cases answered : srv.answer events with
    | none => simp [answered] at written
    | some a =>
        rw [answered] at recorded written
        obtain ⟨rfl, rfl⟩ := Answer.of_mem answered recorded written
        have framing := (Server.answer_readsAs answered).head
        constructor
        · intro lines body readBack typed
          rw [framing] at readBack
          cases readBack
          obtain ⟨body, line⟩ := contentType_line answered typed ⟨ascii "application/json", rfl⟩
          have json : a.reply.2.format = .json := by
            cases format : a.reply.2.format with
            | json => rfl
            | text => exact absurd line (by rw [format]; decide)
            | prometheus => exact absurd line (by rw [format]; decide)
          rw [writtenBody, if_pos body]
          exact Server.answer_json answered body json printable
        · rintro lines body readBack ⟨line, mem, typed⟩ which
          rw [framing] at readBack
          cases readBack
          have declared : ascii "Content-Type: " <+: line :=
            List.IsPrefix.trans ⟨ascii "text/plain", rfl⟩ typed
          obtain ⟨body, line⟩ := contentType_line answered mem declared
          have plain : a.reply.2.format ≠ .json := by
            intro json
            rw [line, json] at typed
            exact absurd typed (by decide)
          rw [writtenBody, if_pos body]
          refine Server.answer_text answered plain (which.imp_right fun notOk ok => notOk ?_)
          rw [List.head?_cons, statusLine, ok]
          decide

/-- A city record with a NaN for its latitude. -/
def nanEntry : MmdbEntry :=
  ⟨fun path => if path = ["location", "latitude"] then some (.double ⟨false, 2047, 1⟩) else none⟩

def nanServer : Server :=
  { sampleServer with db := { city := ⟨⟨1, fun _ => .found nanEntry, none, 0⟩, true⟩ } }

/-- A lookup of that record answers with a body that holds `nan` where JSON
wants a number, under `Content-Type: application/json`. -/
theorem nan_latitude_counterexample : ¬ BodiesMatch nanServer sampleConnection.events := by
  have looked : Looked sampleRequest (ascii "1.2.3.4") (.inet [1, 2, 3, 4]) :=
    ⟨by decide +kernel, by decide +kernel⟩
  have sound : nanServer.db.Sound (.inet [1, 2, 3, 4]) :=
    ⟨by simp [DbSlot.Sound, nanServer], by simp [DbSlot.Sound, nanServer],
      by simp [DbSlot.Sound, nanServer]⟩
  have record : UnprintableRecord nanServer.db (.inet [1, 2, 3, 4]) :=
    ⟨nanEntry, rfl, ⟨false, 2047, 1⟩, .inl rfl, rfl⟩
  exact @not_bodiesMatch nanServer sampleConnection.events sampleRaw sampleRequest
    (by decide +kernel) (by decide +kernel) (by decide)
    ⟨⟨.inl (by decide), by decide⟩, by decide +kernel, _, _, looked, sound, record⟩

end Nshgeoip
