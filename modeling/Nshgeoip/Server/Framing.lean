import Nshgeoip.Server.Answer
import Nshgeoip.Server.Bodies
import Nshgeoip.Http.Framing

/-!
No response splitting.

Every header the handler adds has a fixed name and a value that is digits, a
printed double or sanitized text, so every response reads back as intended;
and `write_all` sends a prefix of it, all of it when it returns true, whatever
the kernel does. `handleConnection_one_response` puts the two together for
every connection.
-/

namespace Nshgeoip

open ByteText

/-! ### The write loop -/

theorem writeAll_prefix (sends : List SendOutcome) (data : Bytes) :
    (writeAll sends data).1 <+: data := by
  induction sends generalizing data with
  | nil => cases data <;> simp [writeAll]
  | cons outcome sends ih =>
      cases data with
      | nil => simp [writeAll]
      | cons b bs =>
          cases outcome with
          | interrupted => exact ih (b :: bs)
          | error => exact List.nil_prefix
          | sent count =>
              have rest := ih ((b :: bs).drop count)
              have whole : (b :: bs).take count ++ (writeAll sends ((b :: bs).drop count)).1 <+:
                  (b :: bs).take count ++ (b :: bs).drop count :=
                List.prefix_append_right_inj _ |>.mpr rest
              rw [List.take_append_drop] at whole
              exact whole

theorem writeAll_complete {sends : List SendOutcome} {data : Bytes}
    (h : (writeAll sends data).2 = true) : (writeAll sends data).1 = data := by
  induction sends generalizing data with
  | nil =>
      cases data with
      | nil => rfl
      | cons b bs => cases h
  | cons outcome sends ih =>
      cases data with
      | nil => rfl
      | cons b bs =>
          cases outcome with
          | interrupted => exact ih h
          | error => cases h
          | sent count =>
              have rest := @ih ((b :: bs).drop count) h
              simp only [writeAll, rest, List.take_append_drop]

/-- A kernel that takes everything at once. -/
theorem writeAll_whole (data : Bytes) : writeAll [.sent data.length] data = (data, true) := by
  cases data <;> simp [writeAll]

/-! ### The headers of every answer -/

/-- The names of the headers `build_http_response` writes itself, in lower case. -/
def ownNames : List Bytes := [ascii "content-type", ascii "content-length", ascii "connection"]

/-- A header the handler adds: clean, and not one `build_http_response` writes, not even in
other letters. -/
structure ExtraHeader (header : Bytes × Bytes) : Prop where
  clean : CleanHeader header
  notOwn : toLower header.1 ∉ ownNames

theorem ExtraHeader.notType {header : Bytes × Bytes} (h : ExtraHeader header) :
    header.1 ≠ ascii "Content-Type" := by
  intro type
  refine h.notOwn ?_
  rw [type]
  exact List.mem_cons_self

theorem extraHeader_ascii {name : String} {value : Bytes}
    (h : (ascii name).all (fun b => !isControl b && b != 58) = true)
    (other : (ownNames.contains (toLower (ascii name))) = false) (clean : NoControl value) :
    ExtraHeader (ascii name, value) := by
  refine ⟨cleanHeader_ascii h clean, fun own => ?_⟩
  rw [List.contains_iff_mem.mpr own] at other
  cases other

theorem successHeaders_extra (result : GeoIpResult) :
    ∀ header ∈ successHeaders result, ExtraHeader header := by
  have text := sanitizeHeaderValue_noControl
  have double := formatDouble_noControl
  intro header mem
  simp only [successHeaders, List.mem_append, or_assoc] at mem
  rcases mem with mem | mem | mem | mem | mem | mem | mem | mem | mem
  · exact forall_headerOf (fun v => extraHeader_ascii rfl rfl (text v)) _ _ mem
  · exact forall_headerOf (fun v => extraHeader_ascii rfl rfl (text v)) _ _ mem
  · exact forall_headerOf (fun v => extraHeader_ascii rfl rfl (dec_noControl _)) _ _ mem
  · exact forall_headerOf (fun v => extraHeader_ascii rfl rfl (text v)) _ _ mem
  · exact forall_headerOf (fun v => extraHeader_ascii rfl rfl (text v)) _ _ mem
  · exact forall_headerOf (fun v => extraHeader_ascii rfl rfl (text v)) _ _ mem
  · exact forall_headerOf (fun v => extraHeader_ascii rfl rfl (double v)) _ _ mem
  · exact forall_headerOf (fun v => extraHeader_ascii rfl rfl (double v)) _ _ mem
  · exact forall_headerOf (fun v => extraHeader_ascii rfl rfl (dec_noControl _)) _ _ mem

theorem Replies.headers_extra {srv : Server} {req : HttpRequest} {reply : Reply}
    (h : Replies srv req reply) : ∀ header ∈ reply.2.headers, ExtraHeader header := by
  have none : ∀ header ∈ ([] : List (Bytes × Bytes)), ExtraHeader header := by simp
  cases h with
  | notAllowed =>
      refine List.forall_mem_cons.mpr ⟨?_, none⟩
      exact extraHeader_ascii rfl rfl (noControl_ascii rfl)
  | lookupFound => exact successHeaders_extra _
  | missingIp => exact none
  | invalidIp => exact none
  | databaseError => exact none
  | lookupNotFound => exact none
  | health => exact none
  | metrics => exact none
  | unknown => exact none

theorem Server.answer_headers_extra {srv : Server} {events : List RecvEvent} {a : Answer}
    (h : srv.answer events = some a) : ∀ header ∈ a.reply.2.headers, ExtraHeader header := by
  rcases Server.answer_cases h with rfl | rfl | ⟨raw, req, -, -, replies, rfl⟩
  · simp [refusal, makeErrorResponse]
  · simp [refusal, makeErrorResponse]
  · exact replies.headers_extra

/-! ### One response on the wire -/

/-- The bytes an action puts on the connection, and whether they were all. -/
def Action.written : Action → Option (Bytes × Bool)
  | .write sent complete => some (sent, complete)
  | _ => none

/-- What a trace puts on the connection, one entry for each write. -/
def wire (actions : List Action) : List (Bytes × Bool) := actions.filterMap Action.written

/-- A message as a client reads it: the status line, the headers split at
their first colon, and what follows the blank line. -/
structure ReadsAs (message : Bytes) (resp : HttpResponse) (includeBody : Bool) : Prop where
  head : readHead message =
    some (statusLine resp :: (responseHeaders resp includeBody).map headerLine,
      writtenBody resp includeBody)
  headers : ((responseHeaders resp includeBody).map headerLine).map (cut (ascii ": ")) =
    (responseHeaders resp includeBody).map some
  clean : ∀ header ∈ responseHeaders resp includeBody, NoControl header.1 ∧ NoControl header.2
  status : NoControl (statusLine resp)

/-- The values of a header, its name compared as clients compare names. -/
def valuesOf (name : Bytes) (headers : List (Bytes × Bytes)) : List Bytes :=
  (headers.filter fun header => toLower header.1 = name).map (·.2)

/-- One length and one connection header, and one type exactly when there is a body. -/
structure FramedOnce (resp : HttpResponse) (includeBody : Bool) : Prop where
  type : valuesOf (ascii "content-type") (responseHeaders resp includeBody) =
    if includeBody then [contentType resp.format] else []
  length : valuesOf (ascii "content-length") (responseHeaders resp includeBody) =
    [dec resp.body.length]
  connection : valuesOf (ascii "connection") (responseHeaders resp includeBody) = [ascii "close"]

theorem valuesOf_extra {name : Bytes} {headers : List (Bytes × Bytes)} (own : name ∈ ownNames)
    (extra : ∀ header ∈ headers, ExtraHeader header) : valuesOf name headers = [] := by
  have none : headers.filter (fun header => toLower header.1 = name) = [] := by
    refine List.filter_eq_nil_iff.mpr fun header mem same => ?_
    rw [← of_decide_eq_true same] at own
    exact (extra header mem).notOwn own
  rw [valuesOf, none, List.map_nil]

theorem framedOnce {resp : HttpResponse} (extra : ∀ header ∈ resp.headers, ExtraHeader header)
    (includeBody : Bool) : FramedOnce resp includeBody := by
  have split : ∀ name ∈ ownNames, valuesOf name (responseHeaders resp includeBody) =
      valuesOf name ((if includeBody then [(ascii "Content-Type", contentType resp.format)] else [])
        ++ [(ascii "Content-Length", dec resp.body.length), (ascii "Connection", ascii "close")]) := by
    intro name own
    have none := valuesOf_extra own extra
    rw [valuesOf] at none ⊢
    rw [responseHeaders, List.filter_append, List.map_append, none, List.append_nil]
    rfl
  refine ⟨?_, ?_, ?_⟩
  · rw [split _ List.mem_cons_self]
    cases includeBody <;> rfl
  · rw [split _ (List.mem_cons_of_mem _ List.mem_cons_self)]
    cases includeBody <;> rfl
  · rw [split _ (List.mem_cons_of_mem _ (List.mem_cons_of_mem _ List.mem_cons_self))]
    cases includeBody <;> rfl

theorem Server.answer_readsAs {srv : Server} {events : List RecvEvent} {a : Answer}
    (h : srv.answer events = some a) :
    ReadsAs (buildHttpResponse a.reply.2 a.includeBody) a.reply.2 a.includeBody := by
  have clean := fun header mem => (Server.answer_headers_extra h header mem).clean
  have cleanAll := responseHeaders_clean clean a.includeBody
  exact ⟨readHead_buildHttpResponse clean a.includeBody, map_cut_headerLine cleanAll,
    fun header mem => ⟨(cleanAll header mem).name, (cleanAll header mem).value⟩,
    statusLine_noControl _⟩

theorem Answer.wire_actions {srv : Server} {events : List RecvEvent} {a : Answer}
    (h : srv.answer events = some a) (sends : List SendOutcome) :
    wire (a.actions sends) = [writeAll sends (buildHttpResponse a.reply.2 a.includeBody)] := by
  have counted : wire a.reply.1 = [] := by
    rcases Server.answer_counted h with none | found | missing
    · rw [none]
      rfl
    · rw [found]
      rfl
    · rw [missing]
      rfl
  have split : wire (a.actions sends) =
      wire a.reply.1 ++ wire (finish sends a.reply.2 a.includeBody) := by
    rw [wire, Answer.actions, List.filterMap_cons_none rfl, List.filterMap_append]
    rfl
  rw [split, counted]
  rfl

theorem Server.answer_eq_none {srv : Server} {events : List RecvEvent}
    (h : srv.answer events = none) :
    (readHttpHead srv.maxRequestBytes events []).1 ≠ .ok ∧
      (readHttpHead srv.maxRequestBytes events []).1 ≠ .tooLarge := by
  unfold Server.answer at h
  rcases read : readHttpHead srv.maxRequestBytes events [] with ⟨verdict, raw⟩
  rw [read] at h
  cases verdict <;> simp at h ⊢

/-- **No response splitting.** Either reading failed and nothing is written, or
one prefix of one response is: all of it when `write_all` returns true. It is the
response the handler settled on, and it reads back as its status line, its intended
headers and nothing else, each framing header once, and the body of exactly the
announced length or no byte. -/
theorem handleConnection_one_response (srv : Server) (conn : Connection) :
    ((readHttpHead srv.maxRequestBytes conn.events []).1 ≠ .ok ∧
        (readHttpHead srv.maxRequestBytes conn.events []).1 ≠ .tooLarge ∧
        wire (srv.handleConnection conn) = []) ∨
      ∃ a sent complete, srv.answer conn.events = some a ∧
        srv.handleConnection conn = a.actions conn.sends ∧
          wire (srv.handleConnection conn) = [(sent, complete)] ∧
          (sent, complete) = writeAll conn.sends (buildHttpResponse a.reply.2 a.includeBody) ∧
          sent <+: buildHttpResponse a.reply.2 a.includeBody ∧
          (complete = true → sent = buildHttpResponse a.reply.2 a.includeBody) ∧
          ReadsAs (buildHttpResponse a.reply.2 a.includeBody) a.reply.2 a.includeBody ∧
          FramedOnce a.reply.2 a.includeBody := by
  rw [handleConnection_eq]
  cases answered : srv.answer conn.events with
  | none =>
      obtain ⟨notOk, notLarge⟩ := Server.answer_eq_none answered
      exact .inl ⟨notOk, notLarge, rfl⟩
  | some a =>
      exact .inr ⟨a, _, _, rfl, rfl, Answer.wire_actions answered conn.sends, rfl,
        writeAll_prefix _ _, writeAll_complete, Server.answer_readsAs answered,
        framedOnce (Server.answer_headers_extra answered) a.includeBody⟩

end Nshgeoip
