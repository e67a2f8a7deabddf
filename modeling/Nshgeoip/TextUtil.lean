import Nshgeoip.Lib.Json

/-!
`text_util.cpp`: the two sanitizers every value from a database passes through
before it leaves the daemon.

* `jsonEscape_chars` — the escaped text of any byte string is the inside of a
  JSON string literal denoting exactly those bytes.
* `sanitizeHeaderValue_noControl` — what `sanitizeHeaderValue` lets through has
  no control byte, so it stays on one line.
-/

namespace Nshgeoip

open ByteText JsonText

/-- One byte of `json_escape`'s loop. -/
def jsonEscapeByte (c : UInt8) : Bytes :=
  if c = 34 then ascii "\\\""
  else if c = 92 then ascii "\\\\"
  else if c = 8 then ascii "\\b"
  else if c = 12 then ascii "\\f"
  else if c = 10 then ascii "\\n"
  else if c = 13 then ascii "\\r"
  else if c = 9 then ascii "\\t"
  else if c < 0x20 then ascii "\\u" ++ hexPad 4 c.toNat
  else [c]

def jsonEscape (s : Bytes) : Bytes := s.flatMap jsonEscapeByte

/-- `"\"" + json_escape(s) + "\""`: the string literal of any bytes. -/
def jsonString (s : Bytes) : Bytes := ascii "\"" ++ jsonEscape s ++ ascii "\""

def sanitizeHeaderValue (s : Bytes) : Bytes :=
  s.filter fun c => !decide (c = 13 ∨ c = 10 ∨ c < 0x20 ∨ c = 0x7f)

/-! ### Escaping -/

/-- `\u%04x` of a byte below the space denotes that byte. -/
theorem chars_unicode {c : UInt8} (low : c < 32) {d s : Bytes} (rest : Chars d s) :
    Chars (c :: d) (ascii "\\u" ++ hexPad 4 c.toNat ++ s) := by
  have all : ∀ n < 32, hex4 (hexDigit (n / 16 / 16 / 16 % 16)) (hexDigit (n / 16 / 16 % 16))
      (hexDigit (n / 16 % 16)) (hexDigit (n % 16)) = some n := by decide
  have bound : c.toNat < 32 := by simpa [UInt8.lt_iff_toNat_lt] using low
  have step := Chars.unicode (all c.toNat bound) rest
  have single : utf8 c.toNat = [c] := by
    have : c.toNat < 128 := by omega
    simp [utf8, this]
  rw [single] at step
  exact step

theorem chars_jsonEscapeByte (c : UInt8) {d s : Bytes} (rest : Chars d s) :
    Chars (c :: d) (jsonEscapeByte c ++ s) := by
  unfold jsonEscapeByte
  split_ifs with quote backslash b f n r t low
  · subst quote; exact .escape rfl rest
  · subst backslash; exact .escape rfl rest
  · subst b; exact .escape rfl rest
  · subst f; exact .escape rfl rest
  · subst n; exact .escape rfl rest
  · subst r; exact .escape rfl rest
  · subst t; exact .escape rfl rest
  · exact chars_unicode low rest
  · exact .plain low quote backslash rest

/-- **Escaping loses nothing**: the escaped text denotes the original bytes,
whatever they are. -/
theorem jsonEscape_chars (s : Bytes) : Chars s (jsonEscape s) := by
  induction s with
  | nil => exact .nil
  | cons c s ih => exact chars_jsonEscapeByte c ih

theorem derives_jsonString (s : Bytes) : Derives (.value (.str s)) (jsonString s) :=
  .str (jsonEscape_chars s)

/-! ### Sanitizing -/

theorem sanitizeHeaderValue_noControl (s : Bytes) : NoControl (sanitizeHeaderValue s) := by
  intro b hb
  have kept := (List.mem_filter.mp hb).2
  simp only [Bool.not_eq_true', decide_eq_false_iff_not, not_or] at kept
  simp only [isControl, decide_eq_false_iff_not, not_or]
  exact ⟨kept.2.2.1, kept.2.2.2⟩

end Nshgeoip
