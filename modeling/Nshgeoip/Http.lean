import Nshgeoip.TextUtil

/-!
`http.cpp`: just enough HTTP/1.1 for one request per connection.

The receiving half is a loop over what `poll` and `recv` report
(`RecvEvent`); the list of events stands for everything that happens on the
descriptor before the deadline, so running out of it is a timeout. The parser
keeps the request line, the query parameters and the last `Accept` value;
`std::string::find` with the substrings around the match is `cut`. Character
classes are those of the C locale, which the daemon never changes.
-/

namespace Nshgeoip

open ByteText JsonText

/-! ### Reading the request head -/

inductive ReadResult where
  | ok
  | tooLarge
  | connectionClosed
  | timeout
  | ioError
  deriving DecidableEq, Repr

/-- The bytes one successful `recv` into the 4096-byte buffer delivers. -/
structure Chunk where
  bytes : Bytes
  nonempty : 0 < bytes.length
  fits : bytes.length ≤ 4096

/-- What one iteration of the read loop meets: the deadline or a `poll`
timeout, an interrupted system call, another error, end of stream, or data. -/
inductive RecvEvent where
  | timeout
  | interrupted
  | error
  | closed
  | data (chunk : Chunk)

/-- The loop of `read_http_head`, with `out` the buffer read so far. -/
def readHttpHead (maxBytes : Nat) : List RecvEvent → Bytes → ReadResult × Bytes
  | [], out => (.timeout, out)
  | .timeout :: _, out => (.timeout, out)
  | .interrupted :: events, out => readHttpHead maxBytes events out
  | .error :: _, out => (.ioError, out)
  | .closed :: _, out => (.connectionClosed, out)
  | .data chunk :: events, out =>
      if maxBytes < (out ++ chunk.bytes).length then (.tooLarge, out ++ chunk.bytes)
      else if (cut (crlf ++ crlf) (out ++ chunk.bytes)).isSome then (.ok, out ++ chunk.bytes)
      else readHttpHead maxBytes events (out ++ chunk.bytes)

/-! ### Parsing the request -/

/-- Form decoding: `+` is a space, `%XY` a byte other than NUL, raw control
bytes are refused. -/
def percentDecode : Bytes → Option Bytes
  | [] => some []
  | c :: rest =>
      if c = 43 then (percentDecode rest).map (32 :: ·)
      else if c = 37 then
        match rest with
        | h :: l :: rest =>
            match hexVal h, hexVal l with
            | some hi, some lo =>
                if hi * 16 + lo = 0 then none
                else (percentDecode rest).map ((hi * 16 + lo).toUInt8 :: ·)
            | _, _ => none
        | _ => none
      else if c < 0x20 ∨ c = 0x7f then none
      else (percentDecode rest).map (c :: ·)

def trimSpaces (s : Bytes) : Bytes := (s.dropWhile (· == 32)).rdropWhile (· == 32)

/-- `tolower` in the C locale. -/
def toLower (s : Bytes) : Bytes := s.map fun c => if 65 ≤ c ∧ c ≤ 90 then c + 32 else c

/-- `isupper` in the C locale. -/
def isUpper (c : UInt8) : Bool := decide (65 ≤ c ∧ c ≤ 90)

structure HttpRequest where
  method : Bytes
  path : Bytes
  query : List (Bytes × Bytes)
  accept : Bytes
  deriving DecidableEq

/-- The name and the value around the first colon of a header line. -/
def headerParts (line : Bytes) : Option (Bytes × Bytes) := cut [58] line

/-- One header line of the scan: `Accept` replaces the value kept so far. -/
def scanLine (accept line : Bytes) : Bytes :=
  match headerParts line with
  | none => accept
  | some (name, value) =>
      if toLower (trimSpaces name) = ascii "accept" then trimSpaces value else accept

/-- The header loop, on the bytes from `header_pos` on: it stops at the blank
line or when no line is complete. The fuel bounds the lines. -/
def scanHeaders : Nat → Bytes → Bytes → Bytes
  | 0, _, accept => accept
  | fuel + 1, rest, accept =>
      match cut crlf rest with
      | none => accept
      | some (line, after) =>
          if line = [] then accept else scanHeaders fuel after (scanLine accept line)

/-- The method and the target of a request line that passes every check. -/
def parseRequestLine (line : Bytes) : Option (Bytes × Bytes) :=
  match cut [32] line with
  | none => none
  | some (method, rest) =>
      match cut [32] rest with
      | none => none
      | some (target, version) =>
          if version ≠ ascii "HTTP/1.1" ∧ version ≠ ascii "HTTP/1.0" then none
          else if method = [] ∨ target = [] ∨ target.head? ≠ some 47 then none
          else if method.all isUpper then some (method, target)
          else none

/-- One `&`-separated component: `key=value`, or a key alone. -/
def parsePair (pair : Bytes) : Option (Bytes × Bytes) :=
  let parts := (cut [61] pair).getD (pair, [])
  match percentDecode parts.1, percentDecode parts.2 with
  | some k, some v => some (k, v)
  | _, _ => none

/-- The `&` loop: empty components are skipped. -/
def parseQuery : List Bytes → Option (List (Bytes × Bytes))
  | [] => some []
  | pair :: rest =>
      if pair = [] then parseQuery rest
      else
        match parsePair pair with
        | none => none
        | some kv => (parseQuery rest).map (kv :: ·)

/-- The decoded path and parameters of a target. -/
def parseTarget (target : Bytes) : Option (Bytes × List (Bytes × Bytes)) :=
  let parts := (cut [63] target).getD (target, [])
  match percentDecode parts.1 with
  | none => none
  | some path => (parseQuery (parts.2.splitOn 38)).map (path, ·)

def parseHttpRequest (raw : Bytes) : Option HttpRequest :=
  match cut crlf raw with
  | none => none
  | some (line, rest) =>
      match parseRequestLine line with
      | none => none
      | some (method, target) =>
          (parseTarget target).map fun parsed =>
            ⟨method, parsed.1, parsed.2, scanHeaders rest.length rest []⟩

def findQueryParam (req : HttpRequest) (key : Bytes) : Option Bytes :=
  (req.query.find? fun kv => kv.1 == key).map (·.2)

/-! ### Content negotiation -/

inductive ResponseFormat where
  | json
  | text
  | prometheus
  deriving DecidableEq, Repr

def contains (s word : Bytes) : Bool := (cut word s).isSome

def negotiateFormat (accept : Bytes) : ResponseFormat :=
  if contains (toLower accept) (ascii "application/json") then .json
  else if contains (toLower accept) (ascii "text/plain") then .text
  else .json

def acceptWantsJson (accept : Bytes) : Bool :=
  contains (toLower accept) (ascii "application/json")

/-! ### Responses -/

structure HttpResponse where
  status : Nat
  format : ResponseFormat
  headers : List (Bytes × Bytes)
  body : Bytes

def reasonPhrase (status : Nat) : Bytes :=
  match status with
  | 200 => ascii "OK"
  | 400 => ascii "Bad Request"
  | 404 => ascii "Not Found"
  | 405 => ascii "Method Not Allowed"
  | 500 => ascii "Internal Server Error"
  | _ => ascii "Unknown"

def contentType : ResponseFormat → Bytes
  | .json => ascii "application/json"
  | .text => ascii "text/plain; charset=utf-8"
  | .prometheus => ascii "text/plain; version=0.0.4; charset=utf-8"

def buildHttpResponse (resp : HttpResponse) (includeBody : Bool) : Bytes :=
  ascii "HTTP/1.1 " ++ dec resp.status ++ ascii " " ++ reasonPhrase resp.status ++ crlf
    ++ (if includeBody then ascii "Content-Type: " ++ contentType resp.format ++ crlf else [])
    ++ ascii "Content-Length: " ++ dec resp.body.length ++ crlf
    ++ ascii "Connection: close\r\n"
    ++ resp.headers.flatMap (fun h => h.1 ++ ascii ": " ++ h.2 ++ crlf)
    ++ crlf
    ++ (if includeBody then resp.body else [])

def makeErrorResponse (status : Nat) (message : Bytes) (format : ResponseFormat) : HttpResponse :=
  { status := status
    format := format
    headers := []
    body :=
      if format = .json then ascii "\x7b\"error\":\"" ++ jsonEscape message ++ ascii "\"\x7d"
      else ascii "error=" ++ message ++ ascii "\n" }

end Nshgeoip
