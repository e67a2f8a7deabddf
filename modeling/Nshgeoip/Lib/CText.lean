import Mathlib.Data.List.DropRight
import Mathlib.Algebra.Order.Ring.Int
import Nshgeoip.Lib.Bytes

/-!
Text as the C library reads it: white space, C strings and `strtol`.

`scanInteger` takes an integer literal off the front of a text and
`scanInteger_iff` says which texts it takes whole. `strtol` is the same scan
with the result clamped to a 64-bit `long`.
-/

namespace ByteText

/-- `isspace` in the C locale. -/
def isSpace (b : UInt8) : Bool := decide (b = 32 ∨ (9 ≤ b ∧ b ≤ 13))

/-- A text without the white space around it. -/
def trim (s : Bytes) : Bytes := (s.dropWhile isSpace).rdropWhile isSpace

/-- What a function that takes a `char *` sees of a string. -/
def cString (s : Bytes) : Bytes := s.takeWhile (· ≠ 0)

/-- The digits below `base`, for a base up to ten. -/
def isBaseDigit (base : Nat) (b : UInt8) : Bool := decide (48 ≤ b ∧ b.toNat < 48 + base)

def baseVal (base : Nat) (ds : Bytes) : Nat :=
  ds.foldl (fun acc b => acc * base + (b.toNat - 48)) 0

/-- An optional sign: whether it negates, and the text after it. -/
def unsign : Bytes → Bool × Bytes
  | [] => (false, [])
  | b :: rest =>
      if b = 45 then (true, rest) else if b = 43 then (false, rest) else (false, b :: rest)

def signed (negative : Bool) (n : Nat) : Int := if negative then -(n : Int) else n

/-- White space, a sign and digits off the front of a text: their value and the
text after them, if there is a digit at all. -/
def scanInteger (base : Nat) (s : Bytes) : Option (Int × Bytes) :=
  let body := unsign (s.dropWhile isSpace)
  let digits := body.2.takeWhile (isBaseDigit base)
  if digits = [] then none
  else some (signed body.1 (baseVal base digits), body.2.dropWhile (isBaseDigit base))

/-- What `strtol` reports: the value, `errno == ERANGE`, and the text its end
pointer points at. -/
structure Strtol where
  value : Int
  erange : Bool
  rest : Bytes
  deriving DecidableEq

def longMin : Int := -(2 ^ 63)

def longMax : Int := 2 ^ 63 - 1

/-- `none` is an end pointer still at the start. -/
def strtol (base : Nat) (s : Bytes) : Option Strtol :=
  (scanInteger base s).map fun out =>
    if out.1 < longMin then ⟨longMin, true, out.2⟩
    else if longMax < out.1 then ⟨longMax, true, out.2⟩
    else ⟨out.1, false, out.2⟩

/-! ### Integer literals -/

/-- Optional white space, an optional sign and one or more digits, to the end. -/
def IntegerLiteral (base : Nat) (s : Bytes) (n : Int) : Prop :=
  ∃ blanks sign digits,
    s = blanks ++ (sign ++ digits) ∧ (∀ b ∈ blanks, isSpace b = true) ∧ digits ≠ [] ∧
      (∀ d ∈ digits, isBaseDigit base d = true) ∧
      ((sign = [] ∨ sign = [43]) ∧ n = baseVal base digits ∨
        sign = [45] ∧ n = -(baseVal base digits : Int))

theorem isBaseDigit_not_special {base : Nat} {b : UInt8} (h : isBaseDigit base b = true) :
    isSpace b = false ∧ b ≠ 45 ∧ b ≠ 43 := by
  simp only [isBaseDigit, decide_eq_true_eq, UInt8.le_iff_toNat_le, UInt8.reduceToNat] at h
  simp only [isSpace, decide_eq_false_iff_not, ne_eq, UInt8.le_iff_toNat_le, ← UInt8.toNat_inj,
    UInt8.reduceToNat]
  omega

theorem unsign_digits {base : Nat} {digits : Bytes}
    (h : ∀ d ∈ digits, isBaseDigit base d = true) : unsign digits = (false, digits) := by
  cases digits with
  | nil => rfl
  | cons d rest =>
      obtain ⟨-, minus, plus⟩ := isBaseDigit_not_special (h d List.mem_cons_self)
      rw [unsign, if_neg minus, if_neg plus]

/-- The body of a literal starts with a sign or a digit, never a blank. -/
theorem dropWhile_blanks {blanks body : Bytes} (h : ∀ b ∈ blanks, isSpace b = true)
    (head : ∀ b ∈ body.head?, isSpace b = false) :
    (blanks ++ body).dropWhile isSpace = body := by
  rw [List.dropWhile_append_of_pos h]
  cases body with
  | nil => rfl
  | cons b rest =>
      have : ¬ isSpace b = true := by simp [head b rfl]
      exact List.dropWhile_cons_of_neg this

theorem scanInteger_of_literal {base : Nat} {s : Bytes} {n : Int} (h : IntegerLiteral base s n) :
    scanInteger base s = some (n, []) := by
  obtain ⟨blanks, sign, digits, rfl, spaces, nonempty, all, value⟩ := h
  obtain ⟨d, rest, rfl⟩ := List.exists_cons_of_ne_nil nonempty
  have digit := isBaseDigit_not_special (all d List.mem_cons_self)
  have taken : (d :: rest).takeWhile (isBaseDigit base) = d :: rest :=
    List.takeWhile_eq_self_iff.mpr all
  have dropped : (d :: rest).dropWhile (isBaseDigit base) = [] :=
    List.dropWhile_eq_nil_iff.mpr all
  have body : ∃ negative, unsign ((blanks ++ (sign ++ d :: rest)).dropWhile isSpace)
      = (negative, d :: rest) ∧ n = signed negative (baseVal base (d :: rest)) := by
    rcases value with ⟨rfl | rfl, rfl⟩ | ⟨rfl, rfl⟩
    · rw [dropWhile_blanks spaces (by simpa using digit.1)]
      exact ⟨false, unsign_digits all, rfl⟩
    · rw [dropWhile_blanks spaces (by simp [isSpace])]
      exact ⟨false, rfl, rfl⟩
    · rw [dropWhile_blanks spaces (by simp [isSpace])]
      exact ⟨true, rfl, rfl⟩
  obtain ⟨negative, bodyEq, rfl⟩ := body
  simp only [scanInteger, bodyEq, taken, dropped]
  rfl

theorem unsign_sign (s : Bytes) : ∃ sign, s = sign ++ (unsign s).2 ∧
    ((sign = [] ∨ sign = [43]) ∧ (unsign s).1 = false ∨ sign = [45] ∧ (unsign s).1 = true) := by
  cases s with
  | nil => exact ⟨[], rfl, .inl ⟨.inl rfl, rfl⟩⟩
  | cons b rest =>
      simp only [unsign]
      split_ifs with minus plus
      · exact ⟨[45], by simp [minus], .inr ⟨rfl, rfl⟩⟩
      · exact ⟨[43], by simp [plus], .inl ⟨.inr rfl, rfl⟩⟩
      · exact ⟨[], rfl, .inl ⟨.inl rfl, rfl⟩⟩

theorem literal_of_scanInteger {base : Nat} {s : Bytes} {n : Int}
    (h : scanInteger base s = some (n, [])) : IntegerLiteral base s n := by
  unfold scanInteger at h
  dsimp only at h
  split_ifs at h with empty
  simp only [Option.some.injEq, Prod.mk.injEq] at h
  obtain ⟨value, rest⟩ := h
  obtain ⟨sign, split, polarity⟩ := unsign_sign (s.dropWhile isSpace)
  have all := List.dropWhile_eq_nil_iff.mp rest
  rw [List.takeWhile_eq_self_iff.mpr all] at value empty
  refine ⟨s.takeWhile isSpace, sign, _, ?_, ?_, empty, all, ?_⟩
  · rw [← split, List.takeWhile_append_dropWhile]
  · intro b mem
    exact List.mem_takeWhile_imp mem
  · rcases polarity with ⟨plain, positive⟩ | ⟨minus, negative⟩
    · rw [positive] at value
      exact .inl ⟨plain, value.symm⟩
    · rw [negative] at value
      exact .inr ⟨minus, value.symm⟩

/-- A text is taken whole exactly when it is a literal. -/
theorem scanInteger_iff {base : Nat} {s : Bytes} {n : Int} :
    scanInteger base s = some (n, []) ↔ IntegerLiteral base s n :=
  ⟨literal_of_scanInteger, scanInteger_of_literal⟩

/-- `strtol` without an error and with nothing left reads a literal that a
`long` holds. -/
theorem strtol_whole_iff {base : Nat} {s : Bytes} {n : Int} :
    strtol base s = some ⟨n, false, []⟩ ↔
      IntegerLiteral base s n ∧ longMin ≤ n ∧ n ≤ longMax := by
  rw [← scanInteger_iff, strtol, Option.map_eq_some_iff]
  constructor
  · rintro ⟨⟨v, rest⟩, scanned, eq⟩
    dsimp only at eq
    split_ifs at eq with low high
    · cases eq
    · cases eq
    · cases eq
      exact ⟨scanned, Int.not_lt.mp low, Int.not_lt.mp high⟩
  · rintro ⟨scanned, low, high⟩
    refine ⟨_, scanned, ?_⟩
    rw [if_neg (Int.not_lt.mpr low), if_neg (Int.not_lt.mpr high)]

theorem cString_eq_self {s : Bytes} (nulFree : 0 ∉ s) : cString s = s := by
  refine List.takeWhile_eq_self_iff.mpr fun b mem => ?_
  exact decide_eq_true fun zero => nulFree (zero ▸ mem)

theorem NoControl.cString {s : Bytes} (h : NoControl s) : NoControl (cString s) :=
  fun b mem => h b (List.takeWhile_subset _ mem)

theorem mem_of_mem_trim {s : Bytes} {b : UInt8} (h : b ∈ trim s) : b ∈ s :=
  (List.dropWhile_suffix _).subset ((List.rdropWhile_prefix _ _).subset h)

/-! ### Trimming -/

/-- Trimming takes nothing but white space. -/
theorem mem_trim_of_not_space {s : Bytes} {b : UInt8} (mem : b ∈ s) (solid : isSpace b = false) :
    b ∈ trim s := by
  have front : b ∈ s.dropWhile isSpace := by
    have whole : s.takeWhile isSpace ++ s.dropWhile isSpace = s := List.takeWhile_append_dropWhile
    rw [← whole] at mem
    rcases List.mem_append.mp mem with blank | rest
    · exact absurd (List.mem_takeWhile_imp blank) (by simp [solid])
    · exact rest
  have whole : trim s ++ (s.dropWhile isSpace).rtakeWhile isSpace = s.dropWhile isSpace :=
    List.rdropWhile_append_rtakeWhile
  rw [← whole] at front
  rcases List.mem_append.mp front with kept | blank
  · exact kept
  · exact absurd (List.mem_rtakeWhile_imp blank) (by simp [solid])

/-- White space at the end is dropped behind anything. -/
theorem rdropWhile_append_blanks {blanks : Bytes} (spaces : ∀ b ∈ blanks, isSpace b = true) (s : Bytes) :
    (s ++ blanks).rdropWhile isSpace = s.rdropWhile isSpace := by
  rw [List.rdropWhile, List.reverse_append, List.dropWhile_append_of_pos, List.rdropWhile]
  intro b mem
  exact spaces b (List.mem_reverse.mp mem)

theorem rdropWhile_append_solid {c : UInt8} (solid : isSpace c = false) (a s : Bytes) :
    (a ++ c :: s).rdropWhile isSpace = a ++ c :: s.rdropWhile isSpace := by
  induction s using List.reverseRecOn with
  | nil => simp [solid]
  | append_singleton s b ih =>
      rw [← List.cons_append, ← List.append_assoc, List.rdropWhile_concat, List.rdropWhile_concat]
      split
      · exact ih
      · simp

/-- Trimming is not hurt by trimming the end first. -/
theorem trim_rdropWhile (s : Bytes) : trim (s.rdropWhile isSpace) = trim s := by
  have spaces : ∀ b ∈ s.rtakeWhile isSpace, isSpace b = true := fun b => List.mem_rtakeWhile_imp
  have whole : s.rdropWhile isSpace ++ s.rtakeWhile isSpace = s :=
    List.rdropWhile_append_rtakeWhile
  by_cases blank : ∀ b ∈ s, isSpace b = true
  · have none : s.rdropWhile isSpace = [] := (List.rdropWhile_eq_nil_iff).mpr blank
    rw [none, trim, trim, List.dropWhile_eq_nil_iff.mpr blank]
    rfl
  · have some : (s.rdropWhile isSpace).dropWhile isSpace ≠ [] := by
      intro nil
      refine blank fun b mem => ?_
      rw [← whole] at mem
      rcases List.mem_append.mp mem with kept | dropped
      · exact List.dropWhile_eq_nil_iff.mp nil b kept
      · exact spaces b dropped
    have front : s.dropWhile isSpace =
        (s.rdropWhile isSpace).dropWhile isSpace ++ s.rtakeWhile isSpace := by
      conv_lhs => rw [← whole]
      rw [List.dropWhile_append, if_neg (by simpa using some)]
    rw [trim, trim, front, rdropWhile_append_blanks spaces]

theorem mem_intercalate_of_mem {pieces : List Bytes} {piece : Bytes} {b c : UInt8}
    (h : piece ∈ pieces) (mem : b ∈ piece) : b ∈ [c].intercalate pieces := by
  induction pieces with
  | nil => cases h
  | cons first rest ih =>
      cases rest with
      | nil =>
          obtain rfl := List.mem_singleton.mp h
          simpa using mem
      | cons next rest =>
          rw [List.intercalate_cons_cons, List.append_assoc]
          rcases List.mem_cons.mp h with rfl | later
          · exact List.mem_append_left _ mem
          · exact List.mem_append_right _ (List.mem_append_right _ (ih later))

theorem mem_of_mem_splitOn {text piece : Bytes} {b c : UInt8} (h : piece ∈ text.splitOn c)
    (mem : b ∈ piece) : b ∈ text := by
  have whole := mem_intercalate_of_mem (c := c) h mem
  rwa [List.intercalate_splitOn] at whole

end ByteText
