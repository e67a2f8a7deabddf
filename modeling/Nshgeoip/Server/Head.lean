import Nshgeoip.Server.Framing
import Nshgeoip.Http.HeaderScan
import Nshgeoip.Http.RequestGrammar

/-!
`HEAD` against `GET`.

Two runs of the handler on requests that differ in the method alone: the
responses are the same up to the body and its `Content-Type`, provided the
request parses. A request the parser refuses is answered before the handler
looks at the method, so a malformed `HEAD` gets a body all the same.
`mirrors_iff` is the exact statement.
-/

namespace Nshgeoip

open ByteText

/-! ### The two requests -/

/-- The target of a request line, read from behind the method. -/
def parseLineRest (line : Bytes) : Option Bytes :=
  match cut [32] line with
  | none => none
  | some (target, version) =>
      if version ≠ ascii "HTTP/1.1" ∧ version ≠ ascii "HTTP/1.0" then none
      else if target = [] ∨ target.head? ≠ some 47 then none
      else some target

/-- A method of capital letters does not change how the rest is read. -/
theorem parseRequestLine_method {method : Bytes} (nonempty : method ≠ [])
    (upper : method.all isUpper = true) (line : Bytes) :
    parseRequestLine (method ++ 32 :: line) = (parseLineRest line).map fun t => (method, t) := by
  have noSpace : (32 : UInt8) ∉ method := by
    intro mem
    exact absurd (List.all_eq_true.mp upper 32 mem) (by decide)
  simp only [parseRequestLine, cut_byte_append noSpace, parseLineRest]
  cases cut [32] line with
  | none => rfl
  | some out =>
      simp only [nonempty, false_or, upper, if_true]
      split_ifs <;> rfl

/-- The request behind a method, as a function of the method. -/
def parseBehind (rest method : Bytes) : Option HttpRequest :=
  (cut crlf rest).bind fun out =>
    (parseLineRest out.1).bind fun target =>
      (parseTarget target).map fun parsed =>
        ⟨method, parsed.1, parsed.2, scanHeaders out.2.length out.2 []⟩

theorem parseHttpRequest_method {method : Bytes} (nonempty : method ≠ [])
    (upper : method.all isUpper = true) (rest : Bytes) :
    parseHttpRequest (method ++ 32 :: rest) = parseBehind rest method := by
  have noCr : (13 : UInt8) ∉ method ++ [32] := by
    intro mem
    rcases List.mem_append.mp mem with inside | space
    · exact absurd (List.all_eq_true.mp upper 13 inside) (by decide)
    · simp at space
  have moved := cut_crlf_prepend noCr rest
  simp only [List.append_assoc, List.singleton_append] at moved
  simp only [parseHttpRequest, moved, parseBehind]
  cases cut crlf rest with
  | none => rfl
  | some out =>
      simp only [Option.map_some, parseRequestLine_method nonempty upper, Option.bind_some]
      cases parseLineRest out.1 with
      | none => rfl
      | some target => rfl

theorem parseHttpRequest_get (rest : Bytes) :
    parseHttpRequest (ascii "GET " ++ rest) = parseBehind rest (ascii "GET") :=
  @parseHttpRequest_method (ascii "GET") (by decide) (by decide) rest

theorem parseHttpRequest_head (rest : Bytes) :
    parseHttpRequest (ascii "HEAD " ++ rest) = parseBehind rest (ascii "HEAD") :=
  @parseHttpRequest_method (ascii "HEAD") (by decide) (by decide) rest

theorem parseBehind_eq_none {rest method : Bytes} (h : parseBehind rest method = none)
    (other : Bytes) : parseBehind rest other = none := by
  unfold parseBehind at h ⊢
  cases found : cut crlf rest with
  | none => rfl
  | some out =>
      cases line : parseLineRest out.1 with
      | none => simp [line]
      | some target =>
          cases parsed : parseTarget target with
          | none => simp [line, parsed]
          | some parts => simp [found, line, parsed] at h

theorem parseBehind_head {rest : Bytes} {req : HttpRequest}
    (h : parseBehind rest (ascii "GET") = some req) :
    req.method = ascii "GET" ∧
      parseBehind rest (ascii "HEAD") = some { req with method := ascii "HEAD" } := by
  obtain ⟨out, found, bound⟩ := Option.bind_eq_some_iff.mp h
  obtain ⟨target, line, mapped⟩ := Option.bind_eq_some_iff.mp bound
  obtain ⟨parsed, eq, rfl⟩ := Option.map_eq_some_iff.mp mapped
  exact ⟨rfl, by simp [parseBehind, found, line, eq]⟩

/-- Behind the method check the reply does not look at the method. -/
theorem Server.reply_head {srv : Server} {req : HttpRequest} (get : req.method = ascii "GET") :
    srv.reply { req with method := ascii "HEAD" } = srv.reply req := by
  have known : ¬ (ascii "GET" ≠ ascii "GET" ∧ ascii "GET" ≠ ascii "HEAD") := by decide
  have known' : ¬ (ascii "HEAD" ≠ ascii "GET" ∧ ascii "HEAD" ≠ ascii "HEAD") := by decide
  simp only [Server.reply, get, if_neg known, if_neg known']
  rfl

/-! ### The two responses -/

def isContentType (line : Bytes) : Bool := (ascii "Content-Type: ").isPrefixOf line

/-- A message without its `Content-Type` line and without its body. -/
def withoutBody (message : Bytes) : Bytes :=
  match readHead message with
  | none => message
  | some (lines, _) => headText (lines.filter fun line => !isContentType line)

theorem CleanHeader.not_isContentType {header : Bytes × Bytes} (h : CleanHeader header)
    (other : header.1 ≠ ascii "Content-Type") : isContentType (headerLine header) = false := by
  by_contra typed
  rw [Bool.not_eq_false, isContentType, List.isPrefixOf_iff_prefix] at typed
  exact other (h.name_of_typed typed)

theorem filter_responseLines {resp : HttpResponse}
    (extra : ∀ header ∈ resp.headers, ExtraHeader header) :
    (responseLines resp true).filter (fun line => !isContentType line) =
      responseLines resp false := by
  have status : isContentType (statusLine resp) = false := rfl
  have type : isContentType (headerLine (ascii "Content-Type", contentType resp.format)) = true := by
    cases resp.format <;> decide
  have length : isContentType (headerLine (ascii "Content-Length", dec resp.body.length)) = false :=
    rfl
  have connection : isContentType (headerLine (ascii "Connection", ascii "close")) = false := rfl
  have others : (resp.headers.map headerLine).filter (fun line => !isContentType line) =
      resp.headers.map headerLine := by
    rw [List.filter_eq_self]
    intro line mem
    obtain ⟨header, inside, rfl⟩ := List.mem_map.mp mem
    simp [(extra header inside).clean.not_isContentType (extra header inside).notType]
  simp [responseLines, responseHeaders, status, type, length, connection, others]

/-- Leaving the body out is what `include_body = false` does. -/
theorem withoutBody_buildHttpResponse {resp : HttpResponse}
    (extra : ∀ header ∈ resp.headers, ExtraHeader header) :
    withoutBody (buildHttpResponse resp true) = buildHttpResponse resp false := by
  have clean := fun header mem => (extra header mem).clean
  rw [withoutBody, readHead_buildHttpResponse clean, buildHttpResponse_eq resp false]
  dsimp only
  rw [filter_responseLines extra]
  exact (List.append_nil _).symm

/-- The response to a connection is this message, however it is sent. -/
def Responds (srv : Server) (events : List RecvEvent) (message : Bytes) : Prop :=
  ∀ sends, wire (srv.handleConnection ⟨events, sends⟩) = [writeAll sends message]

/-- The second connection is answered like the first, less body and type. -/
def Mirrors (srv : Server) (getEvents headEvents : List RecvEvent) : Prop :=
  ∃ getMessage headMessage, Responds srv getEvents getMessage ∧
    Responds srv headEvents headMessage ∧ headMessage = withoutBody getMessage

theorem responds_of_answer {srv : Server} {events : List RecvEvent} {a : Answer}
    (h : srv.answer events = some a) :
    Responds srv events (buildHttpResponse a.reply.2 a.includeBody) := by
  intro sends
  rw [handleConnection_eq, h]
  exact Answer.wire_actions h sends

/-- A message is determined by how it is sent. -/
theorem Responds.unique {srv : Server} {events : List RecvEvent} {m₁ m₂ : Bytes}
    (h₁ : Responds srv events m₁) (h₂ : Responds srv events m₂) : m₁ = m₂ := by
  have whole : ∀ m : Bytes, m.length ≤ m₁.length + m₂.length →
      writeAll [.sent (m₁.length + m₂.length)] m = (m, true) := by
    intro m bound
    cases m with
    | nil => rfl
    | cons b bs =>
        have all : (b :: bs).take (m₁.length + m₂.length) = b :: bs := List.take_of_length_le bound
        have none : (b :: bs).drop (m₁.length + m₂.length) = [] := List.drop_of_length_le bound
        simp only [writeAll, all, none, List.append_nil]
  have same := (h₁ [.sent (m₁.length + m₂.length)]).symm.trans (h₂ _)
  rw [whole m₁ (by omega), whole m₂ (by omega)] at same
  exact congrArg Prod.fst (List.cons.inj same).1

/-- A request within the limit is answered as a whole, however it is cut. -/
theorem Server.answer_of_received {srv : Server} {events : List RecvEvent} {raw : Bytes}
    (quiet : ∀ event ∈ events, event.quiet = true) (delivered : received events = raw)
    (ended : terminator <:+: raw) (within : raw.length ≤ srv.maxRequestBytes) :
    srv.answer events = some (srv.answerTo raw) := by
  subst delivered
  have ok := readHttpHead_ok_of_within quiet ended within
  rcases read : readHttpHead srv.maxRequestBytes events [] with ⟨verdict, buffer⟩
  rw [read] at ok
  obtain rfl : verdict = .ok := ok
  obtain ⟨inBuffer, more, whole⟩ := readHttpHead_ok_buffer read
  have same : parseHttpRequest (received events) = parseHttpRequest buffer := by
    rw [← List.nil_append (received events), ← whole, parseHttpRequest_append inBuffer]
  simp only [Server.answer, read, Server.answerTo, same]

section

variable {srv : Server} {rest : Bytes} {getEvents headEvents : List RecvEvent}

/-- A parsed `GET` and `HEAD` get the same reply. -/
theorem mirrors_of_parsed {req : HttpRequest} (parsed : parseBehind rest (ascii "GET") = some req)
    (get : srv.answer getEvents = some (srv.answerTo (ascii "GET " ++ rest)))
    (head : srv.answer headEvents = some (srv.answerTo (ascii "HEAD " ++ rest))) :
    Mirrors srv getEvents headEvents := by
  obtain ⟨method, parsedHead⟩ := parseBehind_head parsed
  have getAnswer : srv.answerTo (ascii "GET " ++ rest) = ⟨req.path, srv.reply req, true⟩ := by
    have notHead : isHead req = false := by
      rw [isHead, method]
      decide
    simp [Server.answerTo, parseHttpRequest_get, parsed, notHead]
  have headAnswer : srv.answerTo (ascii "HEAD " ++ rest) = ⟨req.path, srv.reply req, false⟩ := by
    simp [Server.answerTo, parseHttpRequest_head, parsedHead, Server.reply_head method, isHead]
  rw [getAnswer] at get
  rw [headAnswer] at head
  refine ⟨_, _, responds_of_answer get, responds_of_answer head, ?_⟩
  exact (withoutBody_buildHttpResponse (Server.answer_headers_extra get)).symm

/-- A malformed `HEAD` is answered with the body a `GET` gets. -/
theorem not_mirrors_of_malformed (malformed : parseBehind rest (ascii "GET") = none)
    (get : srv.answer getEvents = some (srv.answerTo (ascii "GET " ++ rest)))
    (head : srv.answer headEvents = some (srv.answerTo (ascii "HEAD " ++ rest))) :
    ¬ Mirrors srv getEvents headEvents := by
  rintro ⟨getMessage, headMessage, getResponds, headResponds, mirror⟩
  have getAnswer : srv.answerTo (ascii "GET " ++ rest) =
      refusal (ascii "malformed HTTP request") := by
    simp [Server.answerTo, parseHttpRequest_get, malformed]
  have headAnswer : srv.answerTo (ascii "HEAD " ++ rest) =
      refusal (ascii "malformed HTTP request") := by
    simp [Server.answerTo, parseHttpRequest_head, parseBehind_eq_none malformed]
  rw [getAnswer] at get
  rw [headAnswer] at head
  have getEq := getResponds.unique (responds_of_answer get)
  have headEq := headResponds.unique (responds_of_answer head)
  have withBody : withoutBody (buildHttpResponse
      (refusal (ascii "malformed HTTP request")).reply.2 true) =
      buildHttpResponse (refusal (ascii "malformed HTTP request")).reply.2 false :=
    withoutBody_buildHttpResponse (Server.answer_headers_extra get)
  rw [headEq, getEq] at mirror
  exact absurd (mirror.trans withBody) (by decide +kernel)

end

/-- **`HEAD` mirrors `GET`, exactly.** For the same target, version and headers,
within the limit and however the two requests are cut, the response to `HEAD`
is that to `GET` without `Content-Type` and body if and only if the request is
one the parser accepts. -/
theorem mirrors_iff (srv : Server) (rest : Bytes) (getEvents headEvents : List RecvEvent)
    (getQuiet : ∀ event ∈ getEvents, event.quiet = true)
    (headQuiet : ∀ event ∈ headEvents, event.quiet = true)
    (get : received getEvents = ascii "GET " ++ rest)
    (head : received headEvents = ascii "HEAD " ++ rest) (ended : terminator <:+: rest)
    (getWithin : (ascii "GET " ++ rest).length ≤ srv.maxRequestBytes)
    (headWithin : (ascii "HEAD " ++ rest).length ≤ srv.maxRequestBytes) :
    Mirrors srv getEvents headEvents ↔ RequestText (ascii "GET " ++ rest) := by
  have behind : ∀ pre : Bytes, terminator <:+: pre ++ rest := fun pre =>
    ended.trans (List.suffix_append pre rest).isInfix
  have getAnswer := Server.answer_of_received getQuiet get (behind _) getWithin
  have headAnswer := Server.answer_of_received headQuiet head (behind _) headWithin
  cases parsed : parseBehind rest (ascii "GET") with
  | some req =>
      have accepted : parseHttpRequest (ascii "GET " ++ rest) = some req := by
        rw [parseHttpRequest_get, parsed]
      exact iff_of_true (mirrors_of_parsed parsed getAnswer headAnswer)
        (parseHttpRequest_sound accepted).1
  | none =>
      refine iff_of_false (not_mirrors_of_malformed parsed getAnswer headAnswer) fun text => ?_
      have accepted := parseHttpRequest_complete text
      rw [parseHttpRequest_get, parsed] at accepted
      cases accepted

/-- A server without databases. -/
def bareServer : Server := ⟨256, {}, {}, ⟨0, 0, [], fun _ => 0, fun _ => []⟩⟩

/-- A text small enough for one segment. -/
def segment (text : String) (nonempty : 0 < (ascii text).length)
    (fits : (ascii text).length ≤ 4096) : List RecvEvent :=
  [.data ⟨ascii text, nonempty, fits⟩]

def getHealth : List RecvEvent := segment "GET /health HTTP/1.1\r\n\r\n" (by decide) (by decide)

def headHealth : List RecvEvent := segment "HEAD /health HTTP/1.1\r\n\r\n" (by decide) (by decide)

theorem mirrors_health : Mirrors bareServer getHealth headHealth :=
  (mirrors_iff bareServer (ascii "/health HTTP/1.1\r\n\r\n") getHealth headHealth
    (by decide) (by decide) (by decide) (by decide) (cut_isSome_iff.mp (by decide +kernel))
    (by decide) (by decide)).mpr
    (parseHttpRequest_sound (Option.some_get (by decide +kernel :
      (parseHttpRequest (ascii "GET " ++ ascii "/health HTTP/1.1\r\n\r\n")).isSome = true)).symm).1

def getNul : List RecvEvent := segment "GET /%00 HTTP/1.1\r\n\r\n" (by decide) (by decide)

def headNul : List RecvEvent := segment "HEAD /%00 HTTP/1.1\r\n\r\n" (by decide) (by decide)

/-- A `HEAD` for a target with an escaped NUL is answered with a body. -/
theorem head_nul_counterexample :
    received getNul = ascii "GET " ++ ascii "/%00 HTTP/1.1\r\n\r\n" ∧
      received headNul = ascii "HEAD " ++ ascii "/%00 HTTP/1.1\r\n\r\n" ∧
      ¬ Mirrors bareServer getNul headNul := by
  have malformed : parseBehind (ascii "/%00 HTTP/1.1\r\n\r\n") (ascii "GET") = none := by
    decide +kernel
  refine ⟨by decide, by decide, ?_⟩
  exact not_mirrors_of_malformed malformed
    (Server.answer_of_received (by decide) (by decide) (cut_isSome_iff.mp (by decide +kernel))
      (by decide))
    (Server.answer_of_received (by decide) (by decide) (cut_isSome_iff.mp (by decide +kernel))
      (by decide))

end Nshgeoip
