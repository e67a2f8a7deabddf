import Nshgeoip.IpAddr
import Nshgeoip.Lib.CText
import Nshgeoip.Lib.InetText
import Nshgeoip.TextUtil

/-!
Which texts `parse_ip_address` accepts.

`inetPton4_iff` and `inetPton6_iff` say that the two recognisers accept exactly the
literals of the two grammars, with the addresses these denote. The length guard in front
of them rejects no literal, and what passes it is made of bytes that neither sanitizer
touches (`recognised`).
-/

namespace Nshgeoip

open ByteText InetText

/-! ### Dotted quads -/

/-- An octet is the decimal of a byte. -/
theorem inetOctet_iff {s : Bytes} {v : UInt8} : inetOctet s = some v ↔ s = dec v.toNat := by
  unfold inetOctet
  constructor
  · intro h
    split_ifs at h with octet
    obtain ⟨nonempty, digits, plain, -, small⟩ := octet
    have value : v.toNat = digitsVal s := by
      rw [← Option.some.inj h, Nat.toUInt8_eq, UInt8.toNat_ofNat']
      omega
    rw [value, dec_digitsVal nonempty (List.all_eq_true.mp digits) plain]
  · rintro rfl
    have small := v.toNat_lt
    have digits : (dec v.toNat).all isDigit = true :=
      List.all_eq_true.mpr fun b mem => isDigit_of_mem_dec mem
    rw [if_pos ⟨dec_ne_nil _, digits, dec_no_leading_zero, length_dec_le v, by
      rw [digitsVal_dec]; omega⟩, digitsVal_dec, Nat.toUInt8_eq, UInt8.ofNat_toNat]

theorem splitOn_quad (a b c d : Nat) :
    (dec a ++ 46 :: (dec b ++ 46 :: (dec c ++ 46 :: dec d))).splitOn 46 =
      [dec a, dec b, dec c, dec d] := by
  have fresh : ∀ n, (dec n).splitOn 46 = [dec n] := by
    intro n
    exact List.splitOn_eq_singleton (not_mem_dec (by decide) n)
  simp only [List.splitOn_append_cons_self, fresh, List.cons_append, List.nil_append]

/-- **`inet_pton(AF_INET, ...)` recognises dotted quads.** -/
theorem inetPton4_iff {s addr : Bytes} : inetPton4 s = some addr ↔ Ipv4 s addr := by
  constructor
  · intro h
    have text : [46].intercalate (s.splitOn 46) = s := List.intercalate_splitOn 46
    unfold inetPton4 at h
    split at h
    · rename_i a b c d pieces
      rw [pieces] at text
      simp only [Option.bind_eq_bind, Option.bind_eq_some_iff, Option.pure_def, Option.some.injEq,
        inetOctet_iff] at h
      obtain ⟨a, rfl, b, rfl, c, rfl, d, rfl, rfl⟩ := h
      rw [← text]
      simpa [List.intercalate, List.intersperse] using Ipv4.quad a b c d
    · cases h
  · rintro ⟨a, b, c, d⟩
    have octet : ∀ v : UInt8, inetOctet (dec v.toNat) = some v := fun v => inetOctet_iff.mpr rfl
    rw [inetPton4, splitOn_quad]
    simp [octet]

/-! ### Groups -/

/-- The digits of a group, when they all are digits. -/
theorem mapM_hexVal_iff {s : Bytes} {values : List Nat} :
    s.mapM hexVal = some values ↔
      (∀ b ∈ s, (hexVal b).isSome = true) ∧ values = s.map fun b => (hexVal b).getD 0 := by
  induction s generalizing values with
  | nil =>
      constructor
      · intro h
        obtain rfl := Option.some.inj h
        exact ⟨fun b mem => (List.not_mem_nil mem).elim, rfl⟩
      · rintro ⟨-, rfl⟩
        rfl
  | cons b s ih =>
      rw [List.mapM_cons]
      simp only [Option.bind_eq_bind, Option.bind_eq_some_iff, Option.pure_def, Option.some.injEq, ih,
        List.forall_mem_cons, List.map_cons]
      constructor
      · rintro ⟨v, digit, rest, ⟨hex, rfl⟩, rfl⟩
        exact ⟨⟨by rw [digit, Option.isSome_some], hex⟩, by rw [digit, Option.getD_some]⟩
      · rintro ⟨⟨digit, hex⟩, rfl⟩
        obtain ⟨v, eq⟩ := Option.isSome_iff_exists.mp digit
        exact ⟨v, eq, _, ⟨hex, rfl⟩, by rw [eq, Option.getD_some]⟩

theorem inetGroup_iff {s addr : Bytes} : inetGroup s = some addr ↔ Group s addr := by
  unfold inetGroup
  constructor
  · intro h
    split_ifs at h with sized
    simp only [Option.bind_eq_bind, Option.bind_eq_some_iff, Option.pure_def, Option.some.injEq,
      mapM_hexVal_iff] at h
    obtain ⟨values, ⟨hex, rfl⟩, rfl⟩ := h
    rw [List.foldl_map]
    exact .digits sized.1 sized.2 hex
  · rintro ⟨nonempty, short, hex⟩
    rw [if_pos ⟨nonempty, short⟩, mapM_hexVal_iff.mpr ⟨hex, rfl⟩]
    simp only [Option.bind_eq_bind, Option.bind_some, Option.pure_def, List.foldl_map]
    rfl

/-- A run of groups, split at its colons. -/
theorem groups_of_inetGroups {quad : Bool} {pieces : List Bytes} (nonempty : pieces ≠ [])
    {addr : Bytes} (h : inetGroups quad pieces = some addr) :
    Groups quad ([58].intercalate pieces) addr := by
  induction pieces generalizing addr with
  | nil => exact absurd rfl nonempty
  | cons g gs ih =>
      cases gs with
      | nil =>
          rw [inetGroups] at h
          have single : [58].intercalate [g] = g := by simp [List.intercalate]
          rw [single]
          split_ifs at h with dotted
          · exact .ipv4 dotted.1 (inetPton4_iff.mp h)
          · exact .last (inetGroup_iff.mp h)
      | cons g' gs =>
          rw [inetGroups] at h
          · simp only [Option.bind_eq_bind, Option.bind_eq_some_iff, Option.pure_def,
              Option.some.injEq] at h
            obtain ⟨front, group, back, rest, rfl⟩ := h
            have cons : [58].intercalate (g :: g' :: gs) = g ++ 58 :: [58].intercalate (g' :: gs) := by
              simp [List.intercalate]
            rw [cons]
            exact .cons (inetGroup_iff.mp group) (ih (List.cons_ne_nil _ _) rest)
          · simp

theorem inetGroups_of_groups {quad : Bool} {s addr : Bytes} (h : Groups quad s addr) :
    inetGroups quad (s.splitOn 58) = some addr := by
  induction h with
  | last group =>
      rw [List.splitOn_eq_singleton group.separator_not_mem.2, inetGroups,
        if_neg fun dotted => group.separator_not_mem.1 dotted.2]
      exact inetGroup_iff.mpr group
  | ipv4 allowed dotted =>
      rw [List.splitOn_eq_singleton dotted.colon_not_mem, inetGroups,
        if_pos ⟨allowed, dotted.dot_mem⟩]
      exact inetPton4_iff.mpr dotted
  | @cons s a t b group _ ih =>
      rw [List.splitOn_append_cons_self, List.splitOn_eq_singleton group.separator_not_mem.2,
        List.cons_append, List.nil_append, inetGroups, inetGroup_iff.mpr group, ih]
      · rfl
      · exact List.splitOn_ne_nil 58 t

theorem inetGroups_iff {quad : Bool} {s addr : Bytes} :
    inetGroups quad (s.splitOn 58) = some addr ↔ Groups quad s addr := by
  constructor
  · intro h
    have groups := groups_of_inetGroups (List.splitOn_ne_nil 58 s) h
    rwa [List.intercalate_splitOn] at groups
  · exact inetGroups_of_groups

theorem inetSide_iff {quad : Bool} {s addr : Bytes} :
    inetSide quad s = some addr ↔ Side quad s addr := by
  unfold inetSide
  constructor
  · intro h
    split_ifs at h with blank
    · obtain rfl := Option.some.inj h
      subst blank
      exact .empty
    · exact .groups (inetGroups_iff.mp h)
  · intro h
    cases h with
    | empty => rfl
    | groups groups =>
        have full := groups.splitOn_full
        have nonempty : s ≠ [] := by
          rintro rfl
          exact full (by simp)
        rw [if_neg nonempty, inetGroups_of_groups groups]

/-! ### The longer form -/

/-- The first `::` of a compressed literal is the one it has. -/
theorem cut_side {quad : Bool} {s addr : Bytes} (left : Side quad s addr) (t : Bytes) :
    cut [58, 58] (s ++ [58, 58] ++ t) = some (s, t) := by
  refine cut_of_fresh (List.cons_ne_nil _ _) ?_ t
  cases left with
  | empty =>
      intro inside
      exact absurd inside.length_le (by decide)
  | groups groups => exact not_infix_of_splitOn groups.splitOn_full

/-- A run of groups has no `::`. -/
theorem cut_groups {quad : Bool} {s addr : Bytes} (groups : Groups quad s addr) :
    cut [58, 58] s = none := by
  refine cut_eq_none_iff.mpr fun inside => ?_
  exact not_infix_of_splitOn groups.splitOn_full (inside.trans (List.prefix_append s [58]).isInfix)

/-- **`inet_pton(AF_INET6, ...)` recognises IPv6 literals.** -/
theorem inetPton6_iff {s addr : Bytes} : inetPton6 s = some addr ↔ Ipv6 s addr := by
  constructor
  · intro h
    unfold inetPton6 at h
    split at h
    · obtain ⟨groups, sixteen⟩ := Option.filter_eq_some_iff.mp h
      exact .full (inetGroups_iff.mp groups) (of_decide_eq_true sixteen)
    · rename_i l r found
      simp only [Option.bind_eq_bind, Option.bind_eq_some_iff, inetSide_iff] at h
      obtain ⟨a, left, b, right, h⟩ := h
      split_ifs at h with room
      rw [cut_eq_append found, ← Option.some.inj h]
      exact .compressed left right room
  · intro h
    cases h with
    | full groups sixteen =>
        rw [inetPton6, cut_groups groups]
        dsimp only
        rw [inetGroups_of_groups groups]
        simp [sixteen]
    | @compressed l a r b left right room =>
        rw [inetPton6, cut_side left]
        dsimp only
        rw [inetSide_iff.mpr left, inetSide_iff.mpr right]
        simp [room]

/-! ### The guard and the bytes -/

theorem cStr_eq_self {text : Bytes} (nulFree : 0 ∉ text) : cStr text = text :=
  cString_eq_self nulFree

section Parse

variable {text addr : Bytes}

theorem parseIpAddress_of_short (nulFree : 0 ∉ text) (nonempty : text ≠ [])
    (short : text.length ≤ maxAddrTextLen) :
    parseIpAddress text = ((inetPton4 text).map .inet).or ((inetPton6 text).map .inet6) := by
  have guarded : ¬ (text = [] ∨ maxAddrTextLen < text.length) :=
    not_or.mpr ⟨nonempty, Nat.not_lt.mpr short⟩
  rw [parseIpAddress, if_neg guarded, cStr_eq_self nulFree]
  cases inetPton4 text <;> rfl

theorem parseIpAddress_of_ipv4 (nulFree : 0 ∉ text) (h : Ipv4 text addr) :
    parseIpAddress text = some (.inet addr) := by
  have short : text.length ≤ maxAddrTextLen := h.length_le.trans (by decide)
  rw [parseIpAddress_of_short nulFree (List.ne_nil_of_mem h.dot_mem) short, inetPton4_iff.mpr h,
    Option.map_some, Option.some_or]

theorem parseIpAddress_of_ipv6 (nulFree : 0 ∉ text) (h : Ipv6 text addr) :
    parseIpAddress text = some (.inet6 addr) := by
  have other : inetPton4 text = none := by
    refine Option.eq_none_iff_forall_ne_some.mpr fun quad accepted => ?_
    exact (inetPton4_iff.mp accepted).not_ipv6 h
  rw [parseIpAddress_of_short nulFree (List.ne_nil_of_mem h.colon_mem) h.length_le, other,
    inetPton6_iff.mpr h, Option.map_none, Option.none_or, Option.map_some]

/-- What is accepted is a literal of one of the two forms. -/
theorem literal_of_parseIpAddress (nulFree : 0 ∉ text) {parsed : ParsedAddr}
    (h : parseIpAddress text = some parsed) :
    (∃ addr, Ipv4 text addr) ∨ ∃ addr, Ipv6 text addr := by
  unfold parseIpAddress at h
  rw [cStr_eq_self nulFree] at h
  split_ifs at h
  cases quad : inetPton4 text with
  | some addr => exact .inl ⟨addr, inetPton4_iff.mp quad⟩
  | none =>
      rw [quad] at h
      obtain ⟨addr, accepted, -⟩ := Option.map_eq_some_iff.mp h
      exact .inr ⟨addr, inetPton6_iff.mp accepted⟩

end Parse

section Echo

/-- The bytes of a literal lie between the ones the sanitizers look for. -/
theorem literal_bounds {b : UInt8} (h : isLiteralByte b = true) :
    46 ≤ b.toNat ∧ b.toNat ≤ 102 ∧ b.toNat ≠ 92 := by
  simp only [isLiteralByte, decide_eq_true_eq, UInt8.le_iff_toNat_le, ← UInt8.toNat_inj,
    UInt8.reduceToNat] at h
  omega

theorem jsonEscapeByte_literal {b : UInt8} (h : isLiteralByte b = true) : jsonEscapeByte b = [b] := by
  have bounds := literal_bounds h
  unfold jsonEscapeByte
  simp only [← UInt8.toNat_inj, UInt8.lt_iff_toNat_lt, UInt8.reduceToNat]
  repeat rw [if_neg (by omega)]

variable {text : Bytes}

theorem jsonEscape_literal (h : ∀ b ∈ text, isLiteralByte b = true) : jsonEscape text = text := by
  induction text with
  | nil => rfl
  | cons b text ih =>
      obtain ⟨first, rest⟩ := List.forall_mem_cons.mp h
      have tail : text.flatMap jsonEscapeByte = text := ih rest
      rw [jsonEscape, List.flatMap_cons, jsonEscapeByte_literal first, tail]
      rfl

theorem sanitizeHeaderValue_literal (h : ∀ b ∈ text, isLiteralByte b = true) :
    sanitizeHeaderValue text = text := by
  refine List.filter_eq_self.mpr fun b mem => ?_
  have bounds := literal_bounds (h b mem)
  simp only [Bool.not_eq_true', decide_eq_false_iff_not, ← UInt8.toNat_inj, UInt8.lt_iff_toNat_lt,
    UInt8.reduceToNat]
  omega

end Echo

/-! ### The function -/

/-- **What `parse_ip_address` does with a text**: it accepts the literals of the two forms
and no others, fills the output with the one address they denote and otherwise leaves it
alone, and what it accepts passes both sanitizers unchanged. -/
structure Recognised (text : Bytes) (out : ParsedAddr.Members) : Prop where
  accepted : (parseIpAddressInto text out).1 = true ↔
    (∃ addr, Ipv4 text addr) ∨ ∃ addr, Ipv6 text addr
  inet : ∀ addr, Ipv4 text addr →
    (parseIpAddressInto text out).2 = ⟨.sockaddrIn .inet 0 addr, 16, .inet⟩
  inet6 : ∀ addr, Ipv6 text addr →
    (parseIpAddressInto text out).2 = ⟨.sockaddrIn6 .inet6 0 0 addr 0, 28, .inet6⟩
  apart : ∀ a b, Ipv4 text a → ¬ Ipv6 text b
  rejected : (parseIpAddressInto text out).1 = false → (parseIpAddressInto text out).2 = out
  bytes : (parseIpAddressInto text out).1 = true → ∀ b ∈ text, isLiteralByte b = true
  json : (parseIpAddressInto text out).1 = true → jsonEscape text = text
  header : (parseIpAddressInto text out).1 = true → sanitizeHeaderValue text = text

/-- **Address recognition**, for every text without NUL bytes and every previous output. -/
theorem recognised (text : Bytes) (nulFree : 0 ∉ text) (out : ParsedAddr.Members) :
    Recognised text out := by
  have accepted : (parseIpAddressInto text out).1 = true ↔
      (∃ addr, Ipv4 text addr) ∨ ∃ addr, Ipv6 text addr := by
    rw [parseIpAddressInto_eq]
    constructor
    · intro h
      cases parsed : parseIpAddress text with
      | none =>
          rw [parsed] at h
          cases h
      | some addr => exact literal_of_parseIpAddress nulFree parsed
    · rintro (⟨addr, quad⟩ | ⟨addr, long⟩)
      · rw [parseIpAddress_of_ipv4 nulFree quad]
      · rw [parseIpAddress_of_ipv6 nulFree long]
  have bytes : (parseIpAddressInto text out).1 = true → ∀ b ∈ text, isLiteralByte b = true := by
    intro h
    rcases accepted.mp h with ⟨addr, quad⟩ | ⟨addr, long⟩
    · exact quad.isLiteralByte
    · exact long.isLiteralByte
  constructor
  case accepted => exact accepted
  case inet =>
    intro addr quad
    rw [parseIpAddressInto_eq, parseIpAddress_of_ipv4 nulFree quad]
    rfl
  case inet6 =>
    intro addr long
    rw [parseIpAddressInto_eq, parseIpAddress_of_ipv6 nulFree long]
    rfl
  case apart => exact fun a b quad => quad.not_ipv6
  case rejected =>
    rw [parseIpAddressInto_eq]
    intro h
    cases parsed : parseIpAddress text with
    | none => rfl
    | some addr =>
        rw [parsed] at h
        cases h
  case bytes => exact bytes
  case json => exact fun h => jsonEscape_literal (bytes h)
  case header => exact fun h => sanitizeHeaderValue_literal (bytes h)

/-- The longest literal there is, at the guard's limit. -/
theorem recognised_longest :
    (ascii "ffff:ffff:ffff:ffff:ffff:ffff:255.255.255.255").length = maxAddrTextLen ∧
      Recognised (ascii "ffff:ffff:ffff:ffff:ffff:ffff:255.255.255.255") {} ∧
      parseIpAddressInto (ascii "ffff:ffff:ffff:ffff:ffff:ffff:255.255.255.255") {} =
        (true, ⟨.sockaddrIn6 .inet6 0 0 (List.replicate 16 255) 0, 28, .inet6⟩) := by
  refine ⟨by decide +kernel, recognised _ (by decide +kernel) _, by decide +kernel⟩

end Nshgeoip
