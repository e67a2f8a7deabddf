import Nshgeoip.Http

/-!
The wire form of a response.

`buildHttpResponse` prints a status line, headers, a blank line and perhaps a
body. A client that splits lines at CRLF and headers at the first colon reads
back exactly the intended headers (`readHead_buildHttpResponse`), as long as no
name or value holds a control byte: that is what the sanitizers are for.
-/

namespace Nshgeoip

open ByteText

def statusLine (resp : HttpResponse) : Bytes :=
  ascii "HTTP/1.1 " ++ dec resp.status ++ ascii " " ++ reasonPhrase resp.status

/-- The headers a response is meant to carry, in order. -/
def responseHeaders (resp : HttpResponse) (includeBody : Bool) : List (Bytes × Bytes) :=
  (if includeBody then [(ascii "Content-Type", contentType resp.format)] else [])
    ++ [(ascii "Content-Length", dec resp.body.length), (ascii "Connection", ascii "close")]
    ++ resp.headers

def headerLine (header : Bytes × Bytes) : Bytes := header.1 ++ ascii ": " ++ header.2

def responseLines (resp : HttpResponse) (includeBody : Bool) : List Bytes :=
  statusLine resp :: (responseHeaders resp includeBody).map headerLine

/-- The bytes behind the blank line. -/
def writtenBody (resp : HttpResponse) (includeBody : Bool) : Bytes :=
  if includeBody then resp.body else []

/-- A header that survives the wire. -/
structure CleanHeader (header : Bytes × Bytes) : Prop where
  name : NoControl header.1
  noColon : 58 ∉ header.1
  value : NoControl header.2

/-- A header with a literal name. -/
theorem cleanHeader_ascii {name : String} {value : Bytes}
    (h : (ascii name).all (fun b => !isControl b && b != 58) = true) (clean : NoControl value) :
    CleanHeader (ascii name, value) := by
  have each := List.all_eq_true.mp h
  refine ⟨?_, ?_, clean⟩
  · intro b mem
    have := each b mem
    simp only [Bool.and_eq_true, Bool.not_eq_true'] at this
    exact this.1
  · intro mem
    exact absurd (each 58 mem) (by decide)

theorem buildHttpResponse_eq (resp : HttpResponse) (includeBody : Bool) :
    buildHttpResponse resp includeBody =
      headText (responseLines resp includeBody) ++ writtenBody resp includeBody := by
  have lines : ∀ headers : List (Bytes × Bytes),
      (headers.map headerLine).flatMap (· ++ crlf) =
        headers.flatMap fun h => h.1 ++ ascii ": " ++ h.2 ++ crlf := by
    intro headers
    rw [List.flatMap_map]
    rfl
  cases includeBody with
  | true =>
      simp only [buildHttpResponse, headText, responseLines, responseHeaders, writtenBody,
        statusLine, lines, List.flatMap_cons, if_true, List.append_assoc, List.cons_append,
        List.nil_append]
      rfl
  | false =>
      simp only [buildHttpResponse, headText, responseLines, responseHeaders, writtenBody,
        statusLine, lines, List.flatMap_cons, Bool.false_eq_true, if_false, List.append_assoc,
        List.cons_append, List.nil_append]
      rfl

theorem reasonPhrase_noControl (status : Nat) : NoControl (reasonPhrase status) := by
  unfold reasonPhrase
  split <;> exact noControl_ascii rfl

theorem statusLine_noControl (resp : HttpResponse) : NoControl (statusLine resp) :=
  (((noControl_ascii rfl).append (dec_noControl _)).append
    (noControl_ascii rfl)).append (reasonPhrase_noControl _)

theorem contentType_noControl (format : ResponseFormat) : NoControl (contentType format) := by
  cases format <;> exact noControl_ascii rfl

theorem responseHeaders_clean {resp : HttpResponse} (clean : ∀ h ∈ resp.headers, CleanHeader h)
    (includeBody : Bool) : ∀ h ∈ responseHeaders resp includeBody, CleanHeader h := by
  have type : CleanHeader (ascii "Content-Type", contentType resp.format) :=
    cleanHeader_ascii rfl (contentType_noControl _)
  have length : CleanHeader (ascii "Content-Length", dec resp.body.length) :=
    cleanHeader_ascii rfl (dec_noControl _)
  have connection : CleanHeader (ascii "Connection", ascii "close") :=
    cleanHeader_ascii rfl (noControl_ascii rfl)
  cases includeBody <;> simpa [responseHeaders, type, length, connection] using clean

theorem CleanHeader.line_noControl {header : Bytes × Bytes} (h : CleanHeader header) :
    NoControl (headerLine header) :=
  (h.name.append (noControl_ascii rfl)).append h.value

theorem CleanHeader.cut_line {header : Bytes × Bytes} (h : CleanHeader header) :
    cut (ascii ": ") (headerLine header) = some header := by
  have found := @cut_append 58 [32] header.1 h.noColon header.2
  rw [headerLine, List.append_assoc]
  exact found

/-- The name of a header ends at the first colon of its line. -/
theorem CleanHeader.name_of_typed {header : Bytes × Bytes} (h : CleanHeader header)
    (typed : ascii "Content-Type: " <+: headerLine header) : header.1 = ascii "Content-Type" := by
  obtain ⟨rest, eq⟩ := typed
  have left := cut_byte_append h.noColon (32 :: header.2)
  have right := @cut_byte_append 58 (ascii "Content-Type") (by decide) (32 :: rest)
  have same : header.1 ++ 58 :: 32 :: header.2 = ascii "Content-Type" ++ 58 :: 32 :: rest := by
    simpa [headerLine, ascii] using eq.symm
  rw [same, right] at left
  exact (congrArg Prod.fst (Option.some.inj left)).symm

theorem headerLine_ne_nil (header : Bytes × Bytes) : headerLine header ≠ [] := by
  simp [headerLine, ascii]

/-- **A response reads back as it was meant**: one status line, the intended
headers and no other line, and behind the blank line the body or nothing. -/
theorem readHead_buildHttpResponse {resp : HttpResponse}
    (clean : ∀ h ∈ resp.headers, CleanHeader h) (includeBody : Bool) :
    readHead (buildHttpResponse resp includeBody) =
      some (responseLines resp includeBody, writtenBody resp includeBody) := by
  have cleanAll := responseHeaders_clean clean includeBody
  have noControl : ∀ line ∈ responseLines resp includeBody, NoControl line := by
    refine List.forall_mem_cons.mpr ⟨statusLine_noControl resp, ?_⟩
    intro line mem
    obtain ⟨header, inside, rfl⟩ := List.mem_map.mp mem
    exact (cleanAll header inside).line_noControl
  rw [buildHttpResponse_eq]
  refine readHead_headText ?_ (fun line mem => (noControl line mem).no_crlf) _
  refine List.forall_mem_cons.mpr ⟨by simp [statusLine, ascii], ?_⟩
  intro line mem
  obtain ⟨header, -, rfl⟩ := List.mem_map.mp mem
  exact headerLine_ne_nil header

/-- The header lines split into the intended names and values. -/
theorem map_cut_headerLine {headers : List (Bytes × Bytes)} (clean : ∀ h ∈ headers, CleanHeader h) :
    (headers.map headerLine).map (cut (ascii ": ")) = headers.map some := by
  rw [List.map_map]
  exact List.map_congr_left fun h mem => (clean h mem).cut_line

end Nshgeoip
