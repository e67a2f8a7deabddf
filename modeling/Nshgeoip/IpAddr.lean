import Nshgeoip.Lib.Decimal

/-!
`ip_addr.cpp`: recognising an address literal.

`inet_pton` is the C library's: a dotted quad of four decimal octets without
superfluous zeros, or an IPv6 literal of groups of one to four hexadecimal
digits, at most one `::` (which stands for at least one group), optionally
ending in a dotted quad. It reads a C string, so it sees the text only up to
its first NUL.
-/

namespace Nshgeoip

open ByteText

/-- The filled-in socket address: its family and its address bytes. -/
inductive ParsedAddr where
  | inet (addr : Bytes)
  | inet6 (addr : Bytes)
  deriving DecidableEq

/-- A decimal octet: one to three digits, no superfluous zero, at most 255. -/
def inetOctet (s : Bytes) : Option UInt8 :=
  if s ≠ [] ∧ s.all isDigit ∧ (s.head? = some 48 → s.length = 1) ∧ s.length ≤ 3 ∧
      digitsVal s ≤ 255
  then some (digitsVal s).toUInt8 else none

/-- `inet_pton(AF_INET, ...)`. -/
def inetPton4 (s : Bytes) : Option Bytes :=
  match s.splitOn 46 with
  | [a, b, c, d] => do
      return [← inetOctet a, ← inetOctet b, ← inetOctet c, ← inetOctet d]
  | _ => none

/-- A group of one to four hexadecimal digits, as two bytes. -/
def inetGroup (s : Bytes) : Option Bytes :=
  if s ≠ [] ∧ s.length ≤ 4 then do
    let value := (← s.mapM hexVal).foldl (fun acc v => acc * 16 + v) 0
    return [(value / 256).toUInt8, (value % 256).toUInt8]
  else none

/-- Colon-separated groups; the last may be a dotted quad where `quad` says so. -/
def inetGroups (quad : Bool) : List Bytes → Option Bytes
  | [] => some []
  | [g] => if quad ∧ 46 ∈ g then inetPton4 g else inetGroup g
  | g :: gs => do return (← inetGroup g) ++ (← inetGroups quad gs)

def inetSide (quad : Bool) (s : Bytes) : Option Bytes :=
  if s = [] then some [] else inetGroups quad (s.splitOn 58)

/-- `inet_pton(AF_INET6, ...)`. -/
def inetPton6 (s : Bytes) : Option Bytes :=
  match cut [58, 58] s with
  | none => (inetGroups true (s.splitOn 58)).filter fun addr => addr.length = 16
  | some (l, r) => do
      let left ← inetSide false l
      let right ← inetSide true r
      if left.length + right.length ≤ 14 then
        return left ++ List.replicate (16 - left.length - right.length) 0 ++ right
      else none

/-- `c_str()`: the text up to its first NUL. -/
def cStr (s : Bytes) : Bytes := s.takeWhile (· ≠ 0)

/-- `kMaxAddrTextLen`. -/
def maxAddrTextLen : Nat := 45

def parseIpAddress (text : Bytes) : Option ParsedAddr :=
  if text = [] ∨ maxAddrTextLen < text.length then none
  else
    match inetPton4 (cStr text) with
    | some addr => some (.inet addr)
    | none => (inetPton6 (cStr text)).map .inet6

/-! ### The output parameter -/

/-- `family` of the structure, `sa_family` of the socket address. -/
inductive AddressFamily where
  /-- `AF_UNSPEC`. -/
  | unspec
  /-- `AF_INET`. -/
  | inet
  /-- `AF_INET6`. -/
  | inet6
  deriving DecidableEq

/-- A `sockaddr_storage`, by the socket address that was put into it. -/
inductive SockaddrStorage where
  /-- All bytes zero. -/
  | zero
  | sockaddrIn (family : AddressFamily) (port : UInt16) (addr : Bytes)
  | sockaddrIn6 (family : AddressFamily) (port : UInt16) (flowinfo : UInt32) (addr : Bytes)
      (scopeId : UInt32)
  deriving DecidableEq

/-- The members of `ParsedAddr`, with the initial values they have. -/
structure ParsedAddr.Members where
  storage : SockaddrStorage := .zero
  len : Nat := 0
  family : AddressFamily := .unspec
  deriving DecidableEq

/-- `sizeof(sockaddr_in)`. -/
def sizeofSockaddrIn : Nat := 16

/-- `sizeof(sockaddr_in6)`. -/
def sizeofSockaddrIn6 : Nat := 28

/-- The members as an accepted literal sets them. -/
def ParsedAddr.members : ParsedAddr → ParsedAddr.Members
  | .inet addr => ⟨.sockaddrIn .inet 0 addr, sizeofSockaddrIn, .inet⟩
  | .inet6 addr => ⟨.sockaddrIn6 .inet6 0 0 addr 0, sizeofSockaddrIn6, .inet6⟩

/-- `parse_ip_address` with the value it returns and the output it leaves behind. -/
def parseIpAddressInto (text : Bytes) (out : ParsedAddr.Members) : Bool × ParsedAddr.Members :=
  if text = [] ∨ maxAddrTextLen < text.length then (false, out)
  else
    match inetPton4 (cStr text) with
    | some addr4 =>
        (true, { storage := .sockaddrIn .inet 0 addr4, len := sizeofSockaddrIn, family := .inet })
    | none =>
        match inetPton6 (cStr text) with
        | some addr6 =>
            (true,
              { storage := .sockaddrIn6 .inet6 0 0 addr6 0, len := sizeofSockaddrIn6,
                family := .inet6 })
        | none => (false, out)

theorem parseIpAddressInto_eq (text : Bytes) (out : ParsedAddr.Members) :
    parseIpAddressInto text out =
      match parseIpAddress text with
      | some addr => (true, addr.members)
      | none => (false, out) := by
  unfold parseIpAddressInto parseIpAddress
  split_ifs
  · rfl
  · cases inetPton4 (cStr text) with
    | some addr4 => rfl
    | none => cases inetPton6 (cStr text) <;> rfl

theorem parseIpAddress_ne_nil {text : Bytes} {addr : ParsedAddr}
    (h : parseIpAddress text = some addr) : text ≠ [] := by
  rintro rfl
  simp [parseIpAddress] at h

end Nshgeoip
