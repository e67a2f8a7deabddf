import Nshgeoip.Http.ReadHead

/-!
What the header scan of `parse_http_request` can see.

The loop stops at the first blank line and keeps one value, so the request is a
function of the first line and of the `Accept` lines before that blank line
(`parseHttpRequest_eq_of_accept`). In particular nothing after the blank line
matters, which is why a buffer cut off anywhere behind it parses like the whole
stream (`parseHttpRequest_append`).
-/

namespace Nshgeoip

open ByteText

/-- The bytes before the first CRLF. -/
def firstLine (raw : Bytes) : Option Bytes := (crlfLines raw).head?

/-- The lines after the first, up to the first blank one. -/
def headerLines (raw : Bytes) : List Bytes := (crlfLines raw).tail.takeWhile (· ≠ [])

def isAccept (line : Bytes) : Bool :=
  match headerParts line with
  | none => false
  | some (name, _) => toLower (trimSpaces name) = ascii "accept"

def acceptLines (raw : Bytes) : List Bytes := (headerLines raw).filter isAccept

/-- What stands after the colon, without the spaces around it. -/
def headerValue (line : Bytes) : Bytes :=
  match headerParts line with
  | none => []
  | some (_, value) => trimSpaces value

/-! ### The loop as a fold over lines -/

theorem scanLine_eq (accept line : Bytes) :
    scanLine accept line = if isAccept line then headerValue line else accept := by
  unfold scanLine isAccept headerValue
  cases headerParts line with
  | none => simp
  | some parts => simp

/-- The loop visits the complete lines before the first blank one. -/
theorem scanHeaders_eq_foldl {fuel : Nat} {rest : Bytes} (enough : rest.length ≤ fuel)
    (accept : Bytes) :
    scanHeaders fuel rest accept =
      ((crlfLines rest).dropLast.takeWhile (· ≠ [])).foldl scanLine accept := by
  induction fuel generalizing rest accept with
  | zero =>
      obtain rfl : rest = [] := List.length_eq_zero_iff.mp (Nat.le_zero.mp enough)
      rfl
  | succ fuel ih =>
      rw [scanHeaders, crlfLines_eq_cut]
      cases found : cut crlf rest with
      | none => rfl
      | some out =>
          obtain ⟨line, after⟩ := out
          have shorter := cut_length_lt (by simp [crlf]) found
          dsimp only
          rw [List.dropLast_cons_of_ne_nil (crlfLines_ne_nil after)]
          by_cases blank : line = []
          · simp [blank]
          · rw [if_neg blank, ih (by omega)]
            simp [blank]

theorem foldl_scanLine (lines : List Bytes) (accept : Bytes) :
    lines.foldl scanLine accept =
      match (lines.filter isAccept).getLast? with
      | none => accept
      | some line => headerValue line := by
  induction lines generalizing accept with
  | nil => rfl
  | cons line lines ih =>
      rw [List.foldl_cons, ih, scanLine_eq]
      cases this : isAccept line with
      | false => simp [this]
      | true =>
          cases later : (lines.filter isAccept).getLast? with
          | none => simp [List.getLast?_eq_none_iff.mp later, this]
          | some last => simp [this, List.getLast?_cons, later]

/-- A terminator puts a blank line behind the lines before it. -/
theorem crlfLines_terminator (p q : Bytes) :
    crlfLines (p ++ terminator ++ q) = crlfLines p ++ [] :: crlfLines q := by
  have blank : crlfLines (crlf ++ q) = [] :: crlfLines q :=
    crlfLines_append (a := []) (by simp [crlf]) q
  rw [← blank, ← crlfLines_append_crlf]
  simp [terminator]

theorem crlfLines_tail_terminator (p q : Bytes) :
    (crlfLines (p ++ terminator ++ q)).tail = (crlfLines p).tail ++ [] :: crlfLines q := by
  rw [crlfLines_terminator, List.tail_append_of_ne_nil (crlfLines_ne_nil p)]

theorem takeWhile_blank (before after : List Bytes) :
    (before ++ [] :: after).takeWhile (· ≠ []) = before.takeWhile (· ≠ []) := by
  induction before with
  | nil => simp
  | cons line before ih =>
      simp only [List.cons_append, List.takeWhile_cons, ih]

/-- Only the text before a terminator decides the header lines. -/
theorem headerLines_terminator (p q : Bytes) :
    headerLines (p ++ terminator ++ q) = (crlfLines p).tail.takeWhile (· ≠ []) := by
  rw [headerLines, crlfLines_tail_terminator, takeWhile_blank]

theorem firstLine_terminator (p q : Bytes) :
    firstLine (p ++ terminator ++ q) = (crlfLines p).head? := by
  rw [firstLine, crlfLines_terminator, List.head?_append_of_ne_nil _ (crlfLines_ne_nil p)]

/-- The loop keeps the value of the last `Accept` line before the first blank
line, once there is a terminator to stop it. -/
theorem scanHeaders_eq {raw line rest : Bytes} (ended : terminator <:+: raw)
    (first : cut crlf raw = some (line, rest)) :
    scanHeaders rest.length rest [] =
      match (acceptLines raw).getLast? with
      | none => []
      | some line => headerValue line := by
  obtain ⟨p, q, rfl⟩ := ended
  have lines : crlfLines rest = (crlfLines p).tail ++ [] :: crlfLines q := by
    rw [← crlfLines_tail_terminator, crlfLines_eq_cut (p ++ terminator ++ q), first]
    rfl
  have kept : (crlfLines rest).dropLast.takeWhile (· ≠ []) =
      headerLines (p ++ terminator ++ q) := by
    rw [lines, List.dropLast_append_of_ne_nil (by simp),
      List.dropLast_cons_of_ne_nil (crlfLines_ne_nil q), takeWhile_blank, headerLines_terminator]
  rw [scanHeaders_eq_foldl le_rfl, kept, foldl_scanLine, acceptLines]

/-! ### The request as a function of what the scan sees -/

theorem cut_crlf_of_terminator {raw : Bytes} (ended : terminator <:+: raw) :
    ∃ line rest, cut crlf raw = some (line, rest) ∧ firstLine raw = some line := by
  have inside : crlf <:+: raw := List.IsInfix.trans ⟨[], crlf, rfl⟩ ended
  obtain ⟨⟨line, rest⟩, found⟩ := Option.isSome_iff_exists.mp (cut_isSome_iff.mpr inside)
  refine ⟨line, rest, found, ?_⟩
  rw [firstLine, crlfLines_eq_cut, found]
  rfl

/-- The request, given the first line and the value the scan keeps. -/
def requestOf (line accept : Bytes) : Option HttpRequest :=
  (parseRequestLine line).bind fun parts =>
    (parseTarget parts.2).map fun parsed => ⟨parts.1, parsed.1, parsed.2, accept⟩

theorem parseHttpRequest_eq {raw line : Bytes} (ended : terminator <:+: raw)
    (first : firstLine raw = some line) :
    parseHttpRequest raw = requestOf line
      (match (acceptLines raw).getLast? with
      | none => []
      | some line => headerValue line) := by
  obtain ⟨line', rest, found, first'⟩ := cut_crlf_of_terminator ended
  obtain rfl : line' = line := Option.some.inj (first'.symm.trans first)
  simp only [parseHttpRequest, found, scanHeaders_eq ended found, requestOf]
  cases parseRequestLine line' with
  | none => rfl
  | some parts => rfl

/-- **Only the request line and `Accept` matter.** Two terminated texts with
the same first line and the same `Accept` lines before their first blank line
parse alike, and the value kept is that of the last such line. -/
theorem parseHttpRequest_eq_of_accept (raw₁ raw₂ : Bytes)
    (ended₁ : terminator <:+: raw₁) (ended₂ : terminator <:+: raw₂)
    (first : firstLine raw₁ = firstLine raw₂) (accept : acceptLines raw₁ = acceptLines raw₂) :
    parseHttpRequest raw₁ = parseHttpRequest raw₂ ∧
      ∀ req, parseHttpRequest raw₁ = some req →
        req.accept = match (acceptLines raw₁).getLast? with
          | none => []
          | some line => headerValue line := by
  obtain ⟨line, -, -, firstEq⟩ := cut_crlf_of_terminator ended₁
  have parsed₁ := parseHttpRequest_eq ended₁ firstEq
  have parsed₂ := parseHttpRequest_eq ended₂ (first ▸ firstEq)
  refine ⟨?_, ?_⟩
  · rw [parsed₁, parsed₂, accept]
  · intro req h
    rw [parsed₁] at h
    obtain ⟨parts, -, mapped⟩ := Option.bind_eq_some_iff.mp h
    obtain ⟨parsed, -, rfl⟩ := Option.map_eq_some_iff.mp mapped
    rfl

/-- A forged `Accept` line in the body and a header of no interest change
nothing. -/
theorem parseHttpRequest_forged_accept :
    parseHttpRequest (ascii "GET /lookup HTTP/1.1\r\nAccept: text/plain\r\n\r\n") =
      parseHttpRequest (ascii
        "GET /lookup HTTP/1.1\r\nHost: a\r\nAccept: text/plain\r\n\r\nAccept: */*\r\n\r\n") ∧
      parseHttpRequest (ascii "GET /lookup HTTP/1.1\r\nAccept: text/plain\r\n\r\n") =
        some ⟨ascii "GET", ascii "/lookup", [], ascii "text/plain"⟩ ∧
      ∀ req, parseHttpRequest (ascii "GET /lookup HTTP/1.1\r\nAccept: text/plain\r\n\r\n") =
        some req → req.accept = ascii "text/plain" := by
  obtain ⟨same, value⟩ := parseHttpRequest_eq_of_accept
    (ascii "GET /lookup HTTP/1.1\r\nAccept: text/plain\r\n\r\n")
    (ascii "GET /lookup HTTP/1.1\r\nHost: a\r\nAccept: text/plain\r\n\r\nAccept: */*\r\n\r\n")
    (cut_isSome_iff.mp (by decide +kernel)) (cut_isSome_iff.mp (by decide +kernel))
    (by decide +kernel) (by decide +kernel)
  refine ⟨same, by decide +kernel, ?_⟩
  intro req h
  rw [value req h]
  decide +kernel

/-- Bytes behind a terminated text do not change how it parses. -/
theorem parseHttpRequest_append {raw : Bytes} (ended : terminator <:+: raw) (more : Bytes) :
    parseHttpRequest (raw ++ more) = parseHttpRequest raw := by
  obtain ⟨line, -, -, first⟩ := cut_crlf_of_terminator ended
  have longer : terminator <:+: raw ++ more := ended.trans (List.prefix_append raw more).isInfix
  obtain ⟨p, q, rfl⟩ := ended
  have assoc : p ++ terminator ++ q ++ more = p ++ terminator ++ (q ++ more) := by simp
  have first' : firstLine (p ++ terminator ++ q ++ more) = some line := by
    rw [assoc, firstLine_terminator, ← firstLine_terminator p q, first]
  have accept : acceptLines (p ++ terminator ++ q ++ more) = acceptLines (p ++ terminator ++ q) := by
    rw [acceptLines, acceptLines, assoc, headerLines_terminator, headerLines_terminator]
  rw [parseHttpRequest_eq longer first', parseHttpRequest_eq ⟨p, q, rfl⟩ first, accept]

end Nshgeoip
