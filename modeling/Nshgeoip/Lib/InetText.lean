import Nshgeoip.Lib.Decimal
import Nshgeoip.Lib.Lines

/-!
The text forms of IP addresses.

`Ipv4 text addr` and `Ipv6 text addr` say that `text` is a literal of the address with
the bytes `addr`, in network order. A literal is built from a small alphabet
(`isLiteralByte`), the two forms have no literal in common (`Ipv4.not_ipv6`), and none
is longer than 45 bytes (`Ipv6.length_le`): the number of groups a text spells out
bounds its length, whatever mix of groups, `::` and dotted quad it is.
-/

namespace InetText

open ByteText

/-! ### The grammar -/

/-- Four decimal octets. `dec` writes no superfluous zero. -/
inductive Ipv4 : Bytes → Bytes → Prop where
  | quad (a b c d : UInt8) :
      Ipv4 (dec a.toNat ++ 46 :: (dec b.toNat ++ 46 :: (dec c.toNat ++ 46 :: dec d.toNat)))
        [a, b, c, d]

/-- The number hexadecimal digits denote. -/
def hexValue (s : Bytes) : Nat := s.foldl (fun acc b => acc * 16 + (hexVal b).getD 0) 0

/-- One to four hexadecimal digits, as two bytes. -/
inductive Group : Bytes → Bytes → Prop where
  | digits {s : Bytes} (nonempty : s ≠ []) (short : s.length ≤ 4)
      (hex : ∀ b ∈ s, (hexVal b).isSome = true) :
      Group s [(hexValue s / 256).toUInt8, (hexValue s % 256).toUInt8]

/-- Groups with a colon between any two; the last may be a dotted quad where `quad` is
set. -/
inductive Groups (quad : Bool) : Bytes → Bytes → Prop where
  | last {s a : Bytes} : Group s a → Groups quad s a
  | ipv4 {s a : Bytes} : quad = true → Ipv4 s a → Groups quad s a
  | cons {s a t b : Bytes} : Group s a → Groups quad t b → Groups quad (s ++ 58 :: t) (a ++ b)

/-- What stands on one side of `::`. -/
inductive Side (quad : Bool) : Bytes → Bytes → Prop where
  | empty : Side quad [] []
  | groups {s a : Bytes} : Groups quad s a → Side quad s a

/-- Eight groups, or fewer with a `::` that stands for the others, one at least. A dotted
quad counts as two groups and comes last. -/
inductive Ipv6 : Bytes → Bytes → Prop where
  | full {s a : Bytes} : Groups true s a → a.length = 16 → Ipv6 s a
  | compressed {s a t b : Bytes} : Side false s a → Side true t b → a.length + b.length ≤ 14 →
      Ipv6 (s ++ [58, 58] ++ t) (a ++ List.replicate (16 - a.length - b.length) 0 ++ b)

/-! ### The alphabet -/

/-- `0`–`9`, `a`–`f`, `A`–`F`, `:` and `.`. -/
def isLiteralByte (b : UInt8) : Bool :=
  decide ((48 ≤ b ∧ b ≤ 57) ∨ (97 ≤ b ∧ b ≤ 102) ∨ (65 ≤ b ∧ b ≤ 70) ∨ b = 58 ∨ b = 46)

theorem hexVal_isSome_iff {b : UInt8} : (hexVal b).isSome = true ↔
    (48 ≤ b ∧ b ≤ 57) ∨ (97 ≤ b ∧ b ≤ 102) ∨ (65 ≤ b ∧ b ≤ 70) := by
  unfold hexVal
  split_ifs <;> simp_all

theorem isLiteralByte_of_hexVal {b : UInt8} (h : (hexVal b).isSome = true) :
    isLiteralByte b = true := by
  rw [hexVal_isSome_iff] at h
  rw [isLiteralByte, decide_eq_true_eq]
  tauto

theorem hexVal_of_isDigit {b : UInt8} (h : isDigit b = true) : (hexVal b).isSome = true :=
  hexVal_isSome_iff.mpr (.inl (of_decide_eq_true h))

theorem hexVal_ne_separator {b : UInt8} (h : (hexVal b).isSome = true) : b ≠ 46 ∧ b ≠ 58 := by
  constructor
  · rintro rfl
    cases h
  · rintro rfl
    cases h

theorem not_mem_dec {b : UInt8} (separator : hexVal b = none) (n : Nat) : b ∉ dec n := by
  intro mem
  have digit := hexVal_of_isDigit (isDigit_of_mem_dec mem)
  rw [separator] at digit
  cases digit

/-- Where a byte of a dotted quad comes from. -/
theorem Ipv4.mem {s a : Bytes} (h : Ipv4 s a) {x : UInt8} (mem : x ∈ s) :
    x = 46 ∨ isDigit x = true := by
  cases h with
  | quad a b c d =>
      simp only [List.mem_append, List.mem_cons] at mem
      rcases mem with first | rfl | second | rfl | third | rfl | fourth
      · exact .inr (isDigit_of_mem_dec first)
      · exact .inl rfl
      · exact .inr (isDigit_of_mem_dec second)
      · exact .inl rfl
      · exact .inr (isDigit_of_mem_dec third)
      · exact .inl rfl
      · exact .inr (isDigit_of_mem_dec fourth)

theorem Ipv4.isLiteralByte {s a : Bytes} (h : Ipv4 s a) : ∀ x ∈ s, isLiteralByte x = true := by
  intro x mem
  rcases h.mem mem with rfl | digit
  · rfl
  · exact isLiteralByte_of_hexVal (hexVal_of_isDigit digit)

theorem Group.isLiteralByte {s a : Bytes} (h : Group s a) : ∀ x ∈ s, isLiteralByte x = true := by
  cases h with
  | digits _ _ hex => exact fun x mem => isLiteralByte_of_hexVal (hex x mem)

theorem Groups.isLiteralByte {quad : Bool} {s a : Bytes} (h : Groups quad s a) :
    ∀ x ∈ s, isLiteralByte x = true := by
  induction h with
  | last group => exact group.isLiteralByte
  | ipv4 _ dotted => exact dotted.isLiteralByte
  | cons group _ ih =>
      intro x mem
      rcases List.mem_append.mp mem with front | back
      · exact group.isLiteralByte x front
      · rcases List.mem_cons.mp back with rfl | later
        · rfl
        · exact ih x later

theorem Side.isLiteralByte {quad : Bool} {s a : Bytes} (h : Side quad s a) :
    ∀ x ∈ s, isLiteralByte x = true := by
  cases h with
  | empty => exact fun x mem => (List.not_mem_nil mem).elim
  | groups groups => exact groups.isLiteralByte

theorem Ipv6.isLiteralByte {s a : Bytes} (h : Ipv6 s a) : ∀ x ∈ s, isLiteralByte x = true := by
  cases h with
  | full groups _ => exact groups.isLiteralByte
  | compressed left right _ =>
      intro x mem
      rcases List.mem_append.mp mem with front | back
      · rcases List.mem_append.mp front with inLeft | colon
        · exact left.isLiteralByte x inLeft
        · obtain rfl : x = 58 := by simpa using colon
          rfl
      · exact right.isLiteralByte x back

/-! ### What a text denotes -/

theorem Ipv4.length_addr {s a : Bytes} (h : Ipv4 s a) : a.length = 4 := by
  cases h
  rfl

theorem Group.length_addr {s a : Bytes} (h : Group s a) : a.length = 2 := by
  cases h
  rfl

theorem Ipv4.colon_not_mem {s a : Bytes} (h : Ipv4 s a) : 58 ∉ s := by
  intro mem
  rcases h.mem mem with dot | digit
  · cases dot
  · exact (hexVal_ne_separator (hexVal_of_isDigit digit)).2 rfl

theorem Ipv4.dot_mem {s a : Bytes} (h : Ipv4 s a) : 46 ∈ s := by
  cases h
  simp

theorem Group.separator_not_mem {s a : Bytes} (h : Group s a) : 46 ∉ s ∧ 58 ∉ s := by
  cases h with
  | digits _ _ hex =>
      exact ⟨fun mem => (hexVal_ne_separator (hex _ mem)).1 rfl,
        fun mem => (hexVal_ne_separator (hex _ mem)).2 rfl⟩

/-- No group is empty, so the colons of a run of groups are single ones. -/
theorem Groups.splitOn_full {quad : Bool} {s a : Bytes} (h : Groups quad s a) :
    [] ∉ s.splitOn 58 := by
  induction h with
  | last group =>
      rw [List.splitOn_eq_singleton group.separator_not_mem.2, List.mem_singleton]
      obtain ⟨nonempty, -, -⟩ := group
      exact nonempty.symm
  | ipv4 _ dotted =>
      rw [List.splitOn_eq_singleton dotted.colon_not_mem, List.mem_singleton]
      exact (List.ne_nil_of_mem dotted.dot_mem).symm
  | cons group _ ih =>
      rw [List.splitOn_append_cons_self, List.splitOn_eq_singleton group.separator_not_mem.2,
        List.mem_append, List.mem_singleton]
      obtain ⟨nonempty, -, -⟩ := group
      exact not_or.mpr ⟨nonempty.symm, ih⟩

/-- Eight groups need colons. -/
theorem Ipv6.colon_mem {s a : Bytes} (h : Ipv6 s a) : 58 ∈ s := by
  cases h with
  | full groups sixteen =>
      cases groups with
      | last group =>
          rw [group.length_addr] at sixteen
          cases sixteen
      | ipv4 _ dotted =>
          rw [dotted.length_addr] at sixteen
          cases sixteen
      | cons _ _ => simp
  | compressed _ _ _ => simp

/-- **The two forms have no literal in common**: only the longer one has colons. -/
theorem Ipv4.not_ipv6 {s a b : Bytes} (h : Ipv4 s a) : ¬ Ipv6 s b :=
  fun other => h.colon_not_mem other.colon_mem

/-! ### How long a text is -/

theorem length_dec_le (a : UInt8) : (dec a.toNat).length ≤ 3 := by
  have small : Nat.log 10 a.toNat < 3 := Nat.log_lt_of_lt_pow' (by decide) (by have := a.toNat_lt; omega)
  rw [dec, length_digitsPad]
  exact small

theorem Ipv4.length_le {s a : Bytes} (h : Ipv4 s a) : s.length ≤ 15 := by
  cases h with
  | quad a b c d =>
      have first := length_dec_le a
      have second := length_dec_le b
      have third := length_dec_le c
      have fourth := length_dec_le d
      simp only [List.length_append, List.length_cons]
      omega

/-- A group takes five bytes with its colon and denotes two; a dotted quad takes six bytes
more than the two groups it stands for. -/
theorem Groups.length_le {quad : Bool} {s a : Bytes} (h : Groups quad s a) :
    2 * (s.length + 1) ≤ 5 * a.length + if quad then 12 else 0 := by
  induction h with
  | last group =>
      have two := group.length_addr
      obtain ⟨-, short, -⟩ := group
      omega
  | ipv4 allowed dotted =>
      have four := dotted.length_addr
      have short := dotted.length_le
      rw [if_pos allowed]
      omega
  | cons group _ ih =>
      have two := group.length_addr
      obtain ⟨-, short, -⟩ := group
      simp only [List.length_append, List.length_cons] at two ⊢
      omega

theorem Side.length_le {quad : Bool} {s a : Bytes} (h : Side quad s a) :
    2 * s.length ≤ 5 * a.length + if quad then 10 else 0 := by
  cases h with
  | empty => simp
  | groups groups =>
      have := groups.length_le
      cases quad <;> simp_all <;> omega

/-- **No literal is longer than 45 bytes**: six groups of four digits and a dotted quad
of four times three. -/
theorem Ipv6.length_le {s a : Bytes} (h : Ipv6 s a) : s.length ≤ 45 := by
  cases h with
  | full groups sixteen =>
      have := groups.length_le
      rw [if_pos rfl] at this
      omega
  | compressed left right room =>
      have front := left.length_le
      have back := right.length_le
      rw [if_neg Bool.false_ne_true] at front
      rw [if_pos rfl] at back
      simp only [List.length_append, List.length_cons, List.length_nil]
      omega

end InetText
