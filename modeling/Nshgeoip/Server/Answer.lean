import Nshgeoip.Server

/-!
The answer of a connection, apart from how it is written.

`Server.answer` is the response `handle_connection` settles on before it
touches the socket again; `handleConnection_eq` puts the trace of the handler
together from it. `Replies` lists every way the routing can end, with the
conditions that lead there, and `Server.reply_replies` says the list is
complete: what holds of all replies is proved by one case for each line of it.
-/

namespace Nshgeoip

open ByteText

/-! ### The answer -/

/-- The path counted, the reply, and whether its body is written. -/
structure Answer where
  path : Bytes
  reply : Reply
  includeBody : Bool

/-- A refusal before routing: no path to count, always JSON, always with a body. -/
def refusal (message : Bytes) : Answer := ⟨[], ([], makeErrorResponse 400 message .json), true⟩

/-- The answer to the bytes read. -/
def Server.answerTo (srv : Server) (raw : Bytes) : Answer :=
  match parseHttpRequest raw with
  | none => refusal (ascii "malformed HTTP request")
  | some req => ⟨req.path, srv.reply req, !isHead req⟩

def Server.answer (srv : Server) (events : List RecvEvent) : Option Answer :=
  match readHttpHead srv.maxRequestBytes events [] with
  | (.tooLarge, _) => some (refusal (ascii "request too large"))
  | (.ok, raw) => some (srv.answerTo raw)
  | _ => none

def Answer.actions (a : Answer) (sends : List SendOutcome) : List Action :=
  .recordRequest a.path :: (a.reply.1 ++ finish sends a.reply.2 a.includeBody)

/-- The handler closes at once, or counts, answers and closes. -/
theorem handleConnection_eq (srv : Server) (conn : Connection) :
    srv.handleConnection conn =
      match srv.answer conn.events with
      | none => [.close]
      | some a => a.actions conn.sends := by
  unfold Server.handleConnection Server.answer
  rcases readHttpHead srv.maxRequestBytes conn.events [] with ⟨verdict, raw⟩
  cases verdict with
  | ok =>
      dsimp only [Server.answerTo]
      cases parseHttpRequest raw <;> rfl
  | _ => rfl

/-! ### Every way the routing ends -/

/-- A request that names an address: its text, and the address it denotes. -/
structure Looked (req : HttpRequest) (ipText : Bytes) (addr : ParsedAddr) : Prop where
  param : findQueryParam req (ascii "ip") = some ipText
  parsed : parseIpAddress ipText = some addr

def Routed (req : HttpRequest) (path : Bytes) : Prop :=
  (req.method = ascii "GET" ∨ req.method = ascii "HEAD") ∧ req.path = path

inductive Replies (srv : Server) (req : HttpRequest) : Reply → Prop where
  | notAllowed :
      req.method ≠ ascii "GET" → req.method ≠ ascii "HEAD" →
        Replies srv req ([],
          { makeErrorResponse 405 (ascii "method not allowed") (negotiateFormat req.accept) with
            headers := [(ascii "Allow", ascii "GET, HEAD")] })
  | missingIp :
      Routed req (ascii "/lookup") →
        Replies srv req
          ([], makeErrorResponse 400 (ascii "missing ip parameter") (negotiateFormat req.accept))
  | invalidIp :
      Routed req (ascii "/lookup") →
        Replies srv req
          ([], makeErrorResponse 400 (ascii "invalid ip address") (negotiateFormat req.accept))
  | databaseError {ipText : Bytes} {addr : ParsedAddr} :
      Routed req (ascii "/lookup") → Looked req ipText addr →
        (srv.db.lookup addr).2 = true →
          Replies srv req
            ([], makeErrorResponse 500 (ascii "internal database error")
              (negotiateFormat req.accept))
  | lookupNotFound {ipText : Bytes} {addr : ParsedAddr} :
      Routed req (ascii "/lookup") → Looked req ipText addr →
        (srv.db.lookup addr).2 = false → (srv.db.lookup addr).1.found = false →
          Replies srv req
            ([.lookupNotFound], makeErrorResponse 404 (ascii "no geoip information found")
              (negotiateFormat req.accept))
  | lookupFound {ipText : Bytes} {addr : ParsedAddr} :
      Routed req (ascii "/lookup") → Looked req ipText addr →
        (srv.db.lookup addr).2 = false → (srv.db.lookup addr).1.found = true →
          Replies srv req
            ([.lookupFound], buildSuccessResponse ipText (srv.db.lookup addr).1
              (negotiateFormat req.accept))
  | health : Routed req (ascii "/health") → Replies srv req ([], srv.healthResponse req)
  | metrics : Routed req (ascii "/metrics") → Replies srv req ([], srv.metricsResponse)
  | unknown :
      (req.method = ascii "GET" ∨ req.method = ascii "HEAD") → req.path ≠ ascii "/lookup" →
        req.path ≠ ascii "/health" → req.path ≠ ascii "/metrics" →
          Replies srv req
            ([], makeErrorResponse 404 (ascii "not found") (negotiateFormat req.accept))

theorem Server.lookupReply_replies {srv : Server} {req : HttpRequest}
    (routed : Routed req (ascii "/lookup")) :
    Replies srv req (srv.lookupReply req (negotiateFormat req.accept)) := by
  unfold Server.lookupReply
  cases param : findQueryParam req (ascii "ip") with
  | none => exact .missingIp routed
  | some ipText =>
      dsimp only
      split
      · exact .missingIp routed
      · cases parsed : parseIpAddress ipText with
        | none => exact .invalidIp routed
        | some addr =>
            have looked : Looked req ipText addr := ⟨param, parsed⟩
            dsimp only
            split
            · rename_i failed
              exact .databaseError routed looked failed
            · rename_i sound
              have sound' := Bool.eq_false_iff.mpr sound
              split
              · rename_i missing
                exact .lookupNotFound routed looked sound' missing
              · rename_i present
                exact .lookupFound routed looked sound' (Bool.eq_true_of_not_eq_false present)

/-- **The list of replies is complete.** -/
theorem Server.reply_replies (srv : Server) (req : HttpRequest) :
    Replies srv req (srv.reply req) := by
  unfold Server.reply
  dsimp only
  split
  · rename_i other
    exact .notAllowed other.1 other.2
  · rename_i known
    have method : req.method = ascii "GET" ∨ req.method = ascii "HEAD" := by
      by_contra neither
      exact known (not_or.mp neither)
    split
    · rename_i path
      exact Server.lookupReply_replies ⟨method, path⟩
    · rename_i notLookup
      split
      · rename_i path
        exact .health ⟨method, path⟩
      · rename_i notHealth
        split
        · rename_i path
          exact .metrics ⟨method, path⟩
        · rename_i notMetrics
          exact .unknown method notLookup notHealth notMetrics

theorem Replies.counted {srv : Server} {req : HttpRequest} {reply : Reply}
    (h : Replies srv req reply) :
    reply.1 = [] ∨ reply.1 = [.lookupFound] ∨ reply.1 = [.lookupNotFound] := by
  cases h with
  | lookupFound => exact .inr (.inl rfl)
  | lookupNotFound => exact .inr (.inr rfl)
  | _ => exact .inl rfl

/-- An answer is a refusal or a reply to a request. -/
theorem Server.answer_cases {srv : Server} {events : List RecvEvent} {a : Answer}
    (h : srv.answer events = some a) :
    a = refusal (ascii "request too large") ∨ a = refusal (ascii "malformed HTTP request") ∨
      ∃ raw req, readHttpHead srv.maxRequestBytes events [] = (.ok, raw) ∧
        parseHttpRequest raw = some req ∧ Replies srv req (srv.reply req) ∧
        a = ⟨req.path, srv.reply req, !isHead req⟩ := by
  unfold Server.answer at h
  split at h
  · cases h
    exact .inl rfl
  · rename_i raw read
    obtain rfl : srv.answerTo raw = a := Option.some.inj h
    unfold Server.answerTo
    cases parsed : parseHttpRequest raw with
    | none => exact .inr (.inl rfl)
    | some req => exact .inr (.inr ⟨raw, req, read, parsed, srv.reply_replies req, rfl⟩)
  · cases h

/-- On the way to an answer at most one lookup counter moves. -/
theorem Server.answer_counted {srv : Server} {events : List RecvEvent} {a : Answer}
    (h : srv.answer events = some a) :
    a.reply.1 = [] ∨ a.reply.1 = [.lookupFound] ∨ a.reply.1 = [.lookupNotFound] := by
  rcases Server.answer_cases h with rfl | rfl | ⟨raw, req, -, -, replies, rfl⟩
  · exact .inl rfl
  · exact .inl rfl
  · exact replies.counted

theorem Server.answer_of_parsed {srv : Server} {events : List RecvEvent} {raw : Bytes}
    {req : HttpRequest} (read : readHttpHead srv.maxRequestBytes events [] = (.ok, raw))
    (parsed : parseHttpRequest raw = some req) :
    srv.answer events = some ⟨req.path, srv.reply req, !isHead req⟩ := by
  simp [Server.answer, read, Server.answerTo, parsed]

end Nshgeoip
