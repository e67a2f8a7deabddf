import Nshgeoip.Main
import Nshgeoip.Config.Ranges
import Nshgeoip.Http.ReadLoop
import Nshgeoip.Server.Framing
import Nshgeoip.Server.Lookup

/-!
`--health-check` against the daemon.

The client writes one request, reads once and looks at the first twelve bytes; the
daemon answers one request for each connection. Between the two the kernel may deliver
a part of what was written, and may stop at any point. `healthCheck_exit` is what
the exit status says about the daemon then.
-/

namespace Nshgeoip

open ByteText

/-- All the bytes a handler sends. -/
def sentBytes (actions : List Action) : Bytes := (wire actions).flatMap (·.1)

/-- A health check as both ends see it: neither reads what the other has not written. -/
structure Exchange (srv : Server) (conn : Connection) (a : Attempt) : Prop where
  request : received conn.events <+: healthRequest
  response : ∀ response, a.read = .ok response → response <+: sentBytes (srv.handleConnection conn)

/-- The request is there before a timeout, an error or the end of the stream. -/
def Delivered (events : List RecvEvent) : Prop :=
  ∃ before after, events = before ++ after ∧ (∀ event ∈ before, event.quiet = true) ∧
    received before = healthRequest

/-- The answer to a health check. -/
def healthy : HttpResponse := ⟨200, .text, [], ascii "status=ok\n"⟩

/-! ### What the loop makes of a part of the request -/

theorem quiet_of_ok {maxBytes : Nat} {events : List RecvEvent} {out raw : Bytes}
    (h : readHttpHead maxBytes events out = (.ok, raw)) :
    ∃ before after, events = before ++ after ∧ (∀ event ∈ before, event.quiet = true) ∧
      raw = out ++ received before := by
  induction events generalizing out with
  | nil => cases h
  | cons event events ih =>
      cases event with
      | timeout => cases h
      | error => cases h
      | closed => cases h
      | interrupted =>
          obtain ⟨before, after, rfl, quiet, buffer⟩ := ih h
          exact ⟨.interrupted :: before, after, rfl, List.forall_mem_cons.mpr ⟨rfl, quiet⟩, buffer⟩
      | data chunk =>
          rw [readHttpHead] at h
          split at h
          · cases h
          · split at h
            · cases h
              refine ⟨[.data chunk], events, rfl, List.forall_mem_singleton.mpr rfl, ?_⟩
              simp [received, RecvEvent.bytes]
            · obtain ⟨before, after, rfl, quiet, buffer⟩ := ih h
              refine ⟨.data chunk :: before, after, rfl, List.forall_mem_cons.mpr ⟨rfl, quiet⟩, ?_⟩
              rw [buffer, received_cons, List.append_assoc]
              rfl

theorem large_of_tooLarge {maxBytes : Nat} {events : List RecvEvent} {out raw : Bytes}
    (h : readHttpHead maxBytes events out = (.tooLarge, raw)) :
    maxBytes < (out ++ received events).length := by
  induction events generalizing out with
  | nil => cases h
  | cons event events ih =>
      cases event with
      | timeout => cases h
      | error => cases h
      | closed => cases h
      | interrupted => exact ih h
      | data chunk =>
          rw [received_cons, ← List.append_assoc]
          rw [readHttpHead] at h
          split at h
          · rename_i large
            exact large.trans_le (by simp [RecvEvent.bytes])
          · split at h
            · cases h
            · exact ih h

theorem cut_healthRequest :
    cut terminator healthRequest =
      some (ascii "GET /health HTTP/1.1\r\nHost: localhost\r\nConnection: close", []) := by
  decide +kernel

theorem length_healthRequest : healthRequest.length = 60 := by decide

/-- No part of the request is a whole head. -/
theorem eq_healthRequest_of_head {raw : Bytes} (part : raw <+: healthRequest)
    (head : terminator <:+: raw) : raw = healthRequest := by
  obtain ⟨rest, whole⟩ := part
  have complete : cut terminator (raw ++ rest) = _ := whole ▸ cut_healthRequest
  have long := (cut_prefix_isSome_iff complete).mp (cut_isSome_iff.mpr head)
  have total := congrArg List.length whole
  rw [List.length_append, length_healthRequest] at total
  have bound : 60 ≤ raw.length := long
  obtain rfl : rest = [] := List.length_eq_zero_iff.mp (by omega)
  rw [← whole, List.append_nil]

theorem parse_healthRequest :
    parseHttpRequest healthRequest = some ⟨ascii "GET", ascii "/health", [], []⟩ := by
  decide +kernel

section Daemon

variable {srv : Server} {events : List RecvEvent}

theorem answer_delivered (limit : 256 ≤ srv.maxRequestBytes) (request : received events <+: healthRequest)
    (delivered : Delivered events) : srv.answer events = some ⟨ascii "/health", ([], healthy), true⟩ := by
  obtain ⟨before, after, rfl, quiet, whole⟩ := delivered
  have head : terminator <:+: received before := by
    rw [whole]
    exact cut_isSome_iff.mp (by rw [cut_healthRequest]; rfl)
  have within : (received before).length ≤ srv.maxRequestBytes := by
    rw [whole, length_healthRequest]
    omega
  have verdict := ok_of_complete quiet head within after
  obtain ⟨raw, read⟩ : ∃ raw, readHttpHead srv.maxRequestBytes (before ++ after) [] = (.ok, raw) :=
    ⟨_, Prod.ext verdict rfl⟩
  obtain ⟨found, part⟩ := readHttpHead_ok_buffer read
  obtain rfl := eq_healthRequest_of_head (part.trans request) found
  exact Server.answer_of_parsed read parse_healthRequest

/-- Without the whole request there is no answer, not even a refusal. -/
theorem delivered_of_answer (limit : 256 ≤ srv.maxRequestBytes)
    (request : received events <+: healthRequest) {a : Answer} (h : srv.answer events = some a) :
    Delivered events := by
  unfold Server.answer at h
  split at h
  · rename_i raw read
    have large := large_of_tooLarge read
    have short := request.length_le
    rw [length_healthRequest] at short
    rw [List.nil_append] at large
    omega
  · rename_i raw read
    obtain ⟨found, part⟩ := readHttpHead_ok_buffer read
    obtain rfl := eq_healthRequest_of_head (part.trans request) found
    obtain ⟨before, after, split, quiet, buffer⟩ := quiet_of_ok read
    exact ⟨before, after, split, quiet, buffer.symm⟩
  · cases h

end Daemon

/-! ### The verdict of the client -/

/-- The status line the client looks for. -/
def okStatus : Bytes := ascii "HTTP/1.1 200"

theorem orFail_eq_ok_iff (failure : Option Bytes) (what : Bytes) :
    orFail failure what = .ok () ↔ failure = none := by
  cases failure <;> simp [orFail]

theorem judgeResponse_eq_ok_iff (response : Bytes) :
    judgeResponse response = .ok () ↔ okStatus <+: response := by
  unfold judgeResponse
  split_ifs with empty found
  · rw [empty]
    exact iff_of_false (fun no => by cases no) (fun no => absurd (List.prefix_nil.mp no) (by decide))
  · exact iff_of_true rfl (List.isPrefixOf_iff_prefix.mp found)
  · exact iff_of_false (fun no => by cases no) (fun yes => found (List.isPrefixOf_iff_prefix.mpr yes))

theorem checkHealth_eq_ok_iff (socketPath : Bytes) (port : Int) (a : Attempt) :
    checkHealth socketPath port a = .ok () ↔ connectHealth socketPath port a = .ok () ∧ a.write = none ∧
      ∃ response, a.read = .ok response ∧ okStatus <+: response := by
  rw [← orFail_eq_ok_iff a.write (ascii "write failed: ")]
  unfold checkHealth
  cases connectHealth socketPath port a with
  | error err => exact iff_of_false (fun no => by cases no) (fun no => by cases no.1)
  | ok done =>
      cases orFail a.write (ascii "write failed: ") with
      | error err => exact iff_of_false (fun no => by cases no) (fun no => by cases no.2.1)
      | ok done =>
          cases a.read with
          | error errno =>
              exact iff_of_false (fun no => by cases no) (fun ⟨_, _, _, no, _⟩ => by cases no)
          | ok response =>
              refine (judgeResponse_eq_ok_iff response).trans ⟨fun found => ⟨rfl, rfl, _, rfl, found⟩, ?_⟩
              rintro ⟨-, -, _, ⟨⟩, found⟩
              exact found

theorem healthExit_eq_zero_iff (socketPath : Bytes) (port : Int) (a : Attempt) :
    (healthExit socketPath port a).1 = 0 ↔ checkHealth socketPath port a = .ok () := by
  unfold healthExit
  cases checkHealth socketPath port a <;> simp

/-- Of a first part of the answer, twelve bytes are enough. -/
theorem okStatus_prefix_iff {sends : List SendOutcome} {response : Bytes}
    (part : response <+: (writeAll sends (buildHttpResponse healthy true)).1) :
    okStatus <+: response ↔ 12 ≤ response.length := by
  have whole : okStatus <+: buildHttpResponse healthy true := by decide +kernel
  have sent := writeAll_prefix sends (buildHttpResponse healthy true)
  have within := part.trans sent
  constructor
  · intro found
    exact found.length_le
  · intro long
    exact List.prefix_of_prefix_length_le whole within long

theorem sentBytes_finish (path : Bytes) (sends : List SendOutcome) (resp : HttpResponse)
    (includeBody : Bool) :
    sentBytes (.recordRequest path :: finish sends resp includeBody) =
      (writeAll sends (buildHttpResponse resp includeBody)).1 := by
  exact List.append_nil _

/-! ### Both ends -/

/-- **The exit status of a health check.** Against a daemon with any configuration it starts
with, whatever its databases hold and wherever either stream is cut off: the daemon answers
`200` once the whole request has arrived and otherwise closes without a word, and the check
passes if and only if the client could connect and write, the request arrived, and the single
`read` returned at least twelve bytes. -/
theorem healthCheck_exit {detected : UInt32} {path : Bytes} {explicitPath : Bool} {file : ConfigFile}
    {env : Environment} {regularFileExists : Bytes → Bool} {cfg : Config}
    (started : startupConfig detected path explicitPath file env regularFileExists = .ok cfg)
    {srv : Server} (limit : srv.maxRequestBytes = cfg.maxRequestBytes) {conn : Connection} {a : Attempt}
    (exchange : Exchange srv conn a) (socketPath : Bytes) (port : Int) :
    (Delivered conn.events →
      srv.handleConnection conn = .recordRequest (ascii "/health") :: finish conn.sends healthy true) ∧
    (¬ Delivered conn.events → srv.handleConnection conn = [.close]) ∧
    ((healthExit socketPath port a).1 = 0 ↔
      connectHealth socketPath port a = .ok () ∧ a.write = none ∧ Delivered conn.events ∧
        ∃ response, a.read = .ok response ∧ 12 ≤ response.length) := by
  have large : 256 ≤ srv.maxRequestBytes := limit ▸ (startupConfig_inRange started).maxRequestBytes.1
  have answers : Delivered conn.events →
      srv.handleConnection conn = .recordRequest (ascii "/health") :: finish conn.sends healthy true := by
    intro delivered
    rw [handleConnection_eq, answer_delivered large exchange.request delivered]
    rfl
  have closes : ¬ Delivered conn.events → srv.handleConnection conn = [.close] := by
    intro missing
    rw [handleConnection_eq]
    cases answered : srv.answer conn.events with
    | none => rfl
    | some a => exact absurd (delivered_of_answer large exchange.request answered) missing
  refine ⟨answers, closes, ?_⟩
  rw [healthExit_eq_zero_iff, checkHealth_eq_ok_iff]
  refine and_congr_right fun _ => and_congr_right fun _ => ?_
  constructor
  · rintro ⟨response, read, found⟩
    have part := exchange.response response read
    have delivered : Delivered conn.events := by
      by_contra missing
      rw [closes missing] at part
      rw [List.prefix_nil.mp part] at found
      exact absurd (List.prefix_nil.mp found) (by decide)
    exact ⟨delivered, response, read, found.length_le⟩
  · rintro ⟨delivered, response, read, long⟩
    have part := exchange.response response read
    rw [answers delivered, sentBytes_finish] at part
    exact ⟨response, read, (okStatus_prefix_iff part).mpr long⟩

/-- A request in two pieces, and an answer cut off behind its status. -/
def requestInPieces : Connection :=
  ⟨[.data ⟨healthRequest.take 7, by decide, by decide⟩, .interrupted,
      .data ⟨healthRequest.drop 7, by decide, by decide⟩, .closed], [.sent 12, .error]⟩

def cutOff : Attempt := ⟨none, none, none, .ok okStatus⟩

theorem healthCheck_exit_pieces :
    received requestInPieces.events = healthRequest ∧
      (healthExit (ascii "/run/nshgeoip/nshgeoip.sock") 0 cutOff).1 = 0 := by
  have started : startupConfig 8 (ascii "/etc/nshgeoip/nshgeoip.conf") false
      (.text (ascii "max_request_bytes = 256\n")) (fun _ => none) (fun _ => false)
        = .ok { Config.default 8 with maxRequestBytes := 256 } := by decide +kernel
  have whole : received requestInPieces.events = healthRequest := by decide
  have delivered : Delivered requestInPieces.events :=
    ⟨requestInPieces.events.take 3, [.closed], rfl, by decide, by decide⟩
  have exchange : Exchange sampleServer requestInPieces cutOff := by
    refine ⟨whole ▸ List.prefix_rfl, ?_⟩
    rintro response ⟨⟩
    decide +kernel
  have law := healthCheck_exit started (rfl : sampleServer.maxRequestBytes = 256) exchange
    (ascii "/run/nshgeoip/nshgeoip.sock") 0
  exact ⟨whole, law.2.2.mpr ⟨rfl, rfl, delivered, okStatus, rfl, by decide⟩⟩

end Nshgeoip
