import Mathlib.Data.Int.Log
import Mathlib.Data.Rat.Floor
import Mathlib.Algebra.Order.Field.Power
import Mathlib.Tactic.NormNum
import Nshgeoip.Lib.Decimal

/-!
IEEE 754 binary64 numbers and the decimal text a C stream prints for them.

A `Binary64` is its three interchange fields, so every value is one of the
2^64 bit patterns. `formatG` is `%.<prec>g` (a stream's default notation) and
`formatF` is `%.<prec>f` (`std::fixed`): finite numbers print a decimal
`Literal`, the others `inf` or `nan` behind an optional sign. The printed
literal is always well formed (`literalG_wf`, `literalF_wf`) and denotes the
number rounded to the requested digits, ties to even (`literalG_value`,
`literalF_value`). `ofRat` is the correctly rounded conversion that multiplication
and division are built from: it gives the nearest multiple of the unit in the last
place (`magnitude_ofRat`), so a number of 53 binary digits is kept as it is
(`magnitude_ofRat_dyadic`).
-/

namespace ByteText

/-- The nearest integer, ties to even. -/
def roundEven (q : ℚ) : ℤ :=
  if q - ⌊q⌋ < 1 / 2 then ⌊q⌋
  else if 1 / 2 < q - ⌊q⌋ then ⌊q⌋ + 1
  else if ⌊q⌋ % 2 = 0 then ⌊q⌋ else ⌊q⌋ + 1

theorem abs_roundEven_sub_le (q : ℚ) : |(roundEven q : ℚ) - q| ≤ 1 / 2 := by
  have low := Int.floor_le q
  have high := Int.lt_floor_add_one q
  unfold roundEven
  split_ifs with below above even
  all_goals
    rw [abs_le]
    push_cast
    constructor <;> linarith

theorem le_roundEven {q : ℚ} {n : ℤ} (h : (n : ℚ) ≤ q) : n ≤ roundEven q := by
  have : n ≤ ⌊q⌋ := Int.le_floor.mpr h
  unfold roundEven
  split_ifs <;> omega

theorem roundEven_le {q : ℚ} {n : ℤ} (h : q ≤ n) : roundEven q ≤ n := by
  have near := (abs_le.mp (abs_roundEven_sub_le q)).2
  have : (roundEven q : ℚ) < n + 1 := by linarith
  have : roundEven q < n + 1 := by exact_mod_cast this
  omega

@[simp] theorem roundEven_intCast (n : ℤ) : roundEven n = n :=
  le_antisymm (roundEven_le le_rfl) (le_roundEven le_rfl)

/-! ### The number format -/

/-- A binary64 number: sign, biased exponent, fraction. -/
structure Binary64 where
  sign : Bool
  expo : BitVec 11
  frac : BitVec 52
  deriving DecidableEq

namespace Binary64

/-- The all-ones exponent is kept for infinities and NaNs. -/
def isFinite (d : Binary64) : Bool := decide (d.expo ≠ 2047)

/-- The absolute value of a finite number. -/
def magnitude (d : Binary64) : ℚ :=
  if d.expo = 0 then d.frac.toNat * 2 ^ (-1074 : ℤ)
  else (2 ^ 52 + d.frac.toNat) * 2 ^ ((d.expo.toNat : ℤ) - 1075)

def value (d : Binary64) : ℚ := if d.sign then -d.magnitude else d.magnitude

theorem magnitude_nonneg (d : Binary64) : 0 ≤ d.magnitude := by
  unfold magnitude
  split <;> positivity

/-! ### Rounding to significant digits -/

/-- `x` scaled to an integer of `p + 1` decimal digits, with the exponent of
the first digit. A rounding that carries into a new digit moves the exponent. -/
def sigDigits (p : Nat) (x : ℚ) : Nat × ℤ :=
  let first := Int.log 10 x
  let scaled := (roundEven (x / 10 ^ (first - p))).toNat
  if scaled = 10 ^ (p + 1) then (10 ^ p, first + 1) else (scaled, first)

/-- `v` rounded to `p + 1` significant decimal digits, ties to even. -/
def roundSig (p : Nat) (v : ℚ) : ℚ :=
  if v = 0 then 0
  else
    (if v < 0 then -1 else 1) * roundEven (|v| / 10 ^ (Int.log 10 |v| - p)) *
      10 ^ (Int.log 10 |v| - p)

theorem sigDigits_value {p : Nat} {x : ℚ} (positive : 0 < x) :
    ((sigDigits p x).1 : ℚ) * 10 ^ ((sigDigits p x).2 - p) =
      roundEven (x / 10 ^ (Int.log 10 x - p)) * 10 ^ (Int.log 10 x - p) := by
  have nonneg : 0 ≤ roundEven (x / 10 ^ (Int.log 10 x - p)) :=
    le_roundEven (by push_cast; positivity)
  have cast : (((roundEven (x / 10 ^ (Int.log 10 x - p))).toNat : ℕ) : ℚ) =
      roundEven (x / 10 ^ (Int.log 10 x - p)) := by
    exact_mod_cast congrArg (Int.cast (R := ℚ)) (Int.toNat_of_nonneg nonneg)
  simp only [sigDigits]
  split
  · rename_i carry
    have carried : (roundEven (x / 10 ^ (Int.log 10 x - p)) : ℚ) = 10 ^ (p + 1) := by
      rw [← cast, carry]
      push_cast
      ring
    rw [carried]
    push_cast
    rw [show Int.log 10 x + 1 - (p : ℤ) = Int.log 10 x - p + 1 by ring,
      zpow_add_one₀ (by norm_num), pow_succ]
    ring
  · rw [cast]

/-- Rounding to a multiple of a unit moves a number by at most half of it. -/
theorem abs_roundEven_mul_sub_le {x unit : ℚ} (positive : 0 < unit) :
    |roundEven (x / unit) * unit - x| ≤ unit / 2 := by
  have near := abs_roundEven_sub_le (x / unit)
  have factor : roundEven (x / unit) * unit - x = (roundEven (x / unit) - x / unit) * unit := by
    field_simp
  rw [factor, abs_mul, abs_of_pos positive]
  calc |(roundEven (x / unit) : ℚ) - x / unit| * unit ≤ 1 / 2 * unit := by gcongr
    _ = unit / 2 := by ring

/-- Rounding to `p + 1` significant digits moves a number by at most half a
unit of its last digit. -/
theorem abs_roundSig_sub_le (p : Nat) (v : ℚ) :
    |roundSig p v - v| ≤ |v| / (2 * 10 ^ p) := by
  by_cases zero : v = 0
  · simp [roundSig, zero]
  have positive : 0 < |v| := abs_pos.mpr zero
  have signed : |roundSig p v - v| =
      |roundEven (|v| / 10 ^ (Int.log 10 |v| - p)) * 10 ^ (Int.log 10 |v| - p) - (|v|)| := by
    unfold roundSig
    rw [if_neg zero]
    rcases lt_or_gt_of_ne zero with neg | pos
    · rw [if_pos neg, abs_of_neg neg, ← abs_neg]
      congr 1
      ring
    · rw [if_neg (not_lt.mpr pos.le), abs_of_pos pos, one_mul]
  generalize |v| = x at *
  have unitLe : (10 : ℚ) ^ (Int.log 10 x - p) ≤ x / 10 ^ p := by
    have low := Int.zpow_log_le_self (b := 10) (by decide) positive
    rw [le_div_iff₀ (by positivity), ← zpow_natCast, ← zpow_add₀ (by norm_num)]
    simpa using low
  rw [signed]
  calc |roundEven (x / 10 ^ (Int.log 10 x - p)) * 10 ^ (Int.log 10 x - p) - x|
      ≤ 10 ^ (Int.log 10 x - p) / 2 := abs_roundEven_mul_sub_le (by positivity)
    _ ≤ x / 10 ^ p / 2 := by gcongr
    _ = x / (2 * 10 ^ p) := by rw [div_div, mul_comm]

/-! ### The printed text -/

/-- The digits after the point of `scaled / 10 ^ k`, trailing zeros dropped. -/
def fraction (k scaled : Nat) : Option Bytes :=
  match (digitsPad k scaled).rdropWhile (· == 48) with
  | [] => none
  | f => some f

/-- The exponent part of the exponent notation: a sign and at least two digits. -/
def exponentPart (e : ℤ) : Exponent :=
  ⟨false, some (decide (e < 0)), digitsPad (max 2 (Nat.log 10 e.natAbs + 1)) e.natAbs⟩

/-- `%.<p+1>g`: exponent notation when the exponent is below -4 or has no room
in the precision, fixed notation otherwise, no trailing zeros. -/
def literalG (p : Nat) (d : Binary64) : Literal :=
  if d.magnitude = 0 then ⟨d.sign, [48], none, none⟩
  else
    let s := sigDigits p d.magnitude
    if s.2 < -4 ∨ (p : ℤ) < s.2 then
      ⟨d.sign, dec (s.1 / 10 ^ p), fraction p s.1, some (exponentPart s.2)⟩
    else
      let k := (p - s.2).toNat
      ⟨d.sign, dec (s.1 / 10 ^ k), fraction k s.1, none⟩

/-- `%.<p>f`: exactly `p` digits after the point. -/
def literalF (p : Nat) (d : Binary64) : Literal :=
  let scaled := (roundEven (d.magnitude * 10 ^ p)).toNat
  ⟨d.sign, dec (scaled / 10 ^ p), if p = 0 then none else some (digitsPad p scaled), none⟩

/-- A number as a stream prints it, given the literal of the finite ones. -/
def format (literal : Binary64 → Literal) (d : Binary64) : Bytes :=
  if d.isFinite then (literal d).text
  else signText d.sign ++ if d.frac = 0 then ascii "inf" else ascii "nan"

def formatG (p : Nat) : Binary64 → Bytes := format (literalG p)

def formatF (p : Nat) : Binary64 → Bytes := format (literalF p)

theorem mem_rdropWhile {f : Bytes} {b : UInt8} (h : b ∈ f.rdropWhile (· == 48)) : b ∈ f :=
  (List.rdropWhile_prefix _ _).subset h

theorem fraction_digitRun {k scaled : Nat} : ∀ f ∈ fraction k scaled, DigitRun f := by
  intro f hf
  unfold fraction at hf
  split at hf
  · cases hf
  · rename_i nonempty
    cases hf
    exact ⟨nonempty, fun b hb => isDigit_of_mem_digitsPad (mem_rdropWhile hb)⟩

theorem digitsPad_digitRun {k : Nat} (positive : 0 < k) (n : Nat) : DigitRun (digitsPad k n) := by
  refine ⟨fun h => ?_, fun _ => isDigit_of_mem_digitsPad⟩
  have := congrArg List.length h
  rw [length_digitsPad, List.length_nil] at this
  omega

/-- Every literal printed in the default notation is well formed. -/
theorem literalG_wf (p : Nat) (d : Binary64) : (literalG p d).WF := by
  unfold literalG
  split
  · exact ⟨⟨by simp, by simp [isDigit]⟩, by simp, by simp, by simp⟩
  · dsimp only
    split
    · refine ⟨dec_digitRun _, dec_no_leading_zero, fraction_digitRun, ?_⟩
      intro e he
      cases he
      exact digitsPad_digitRun (by omega) _
    · exact ⟨dec_digitRun _, dec_no_leading_zero, fraction_digitRun, by simp⟩

/-- Every literal printed in fixed notation is well formed. -/
theorem literalF_wf (p : Nat) (d : Binary64) : (literalF p d).WF := by
  refine ⟨dec_digitRun _, dec_no_leading_zero, ?_, by simp [literalF]⟩
  intro f hf
  simp only [literalF] at hf
  split at hf
  · cases hf
  · cases hf
    exact digitsPad_digitRun (by omega) _

theorem fracVal_fraction (k scaled : Nat) :
    fracVal (fraction k scaled) = (scaled % 10 ^ k : Nat) / 10 ^ k := by
  have whole := digitsVal_rdropWhile (digitsPad k scaled)
  have shorter : ((digitsPad k scaled).rdropWhile (· == 48)).length ≤ k := by
    simpa using (List.rdropWhile_prefix (· == 48) (l := digitsPad k scaled)).length_le
  rw [digitsVal_digitsPad, length_digitsPad] at whole
  rw [whole]
  unfold fraction
  split
  · rename_i empty
    simp [fracVal, empty, digitsVal]
  · simp only [fracVal]
    generalize (digitsPad k scaled).rdropWhile (· == 48) = f at *
    rw [div_eq_div_iff (by positivity) (by positivity)]
    push_cast
    rw [mul_assoc, ← pow_add, Nat.sub_add_cancel shorter]

/-- Integer digits and fraction digits together give the scaled integer back. -/
theorem int_add_fraction (k scaled : Nat) :
    (digitsVal (dec (scaled / 10 ^ k)) : ℚ) + fracVal (fraction k scaled) = scaled / 10 ^ k := by
  have parts : (10 ^ k * (scaled / 10 ^ k) + scaled % 10 ^ k : ℕ) = scaled :=
    Nat.div_add_mod scaled (10 ^ k)
  have parts' : (10 : ℚ) ^ k * (scaled / 10 ^ k : ℕ) + (scaled % 10 ^ k : ℕ) = scaled := by
    exact_mod_cast parts
  rw [digitsVal_dec, fracVal_fraction, ← parts']
  field_simp

theorem expVal_exponentPart (e : ℤ) : expVal (some (exponentPart e)) = e := by
  have enough : e.natAbs < 10 ^ max 2 (Nat.log 10 e.natAbs + 1) :=
    (Nat.lt_pow_succ_log_self (by decide) e.natAbs).trans_le
      (Nat.pow_le_pow_right (by decide) (le_max_right _ _))
  simp only [expVal, exponentPart, digitsVal_digitsPad, Nat.mod_eq_of_lt enough,
    Option.some.injEq, decide_eq_true_eq]
  split <;> omega

/-- **A finite number prints, in the default notation, as itself rounded to
the requested significant digits.** -/
theorem literalG_value (p : Nat) (d : Binary64) :
    (literalG p d).value = roundSig p d.value := by
  have nonneg := d.magnitude_nonneg
  by_cases zero : d.magnitude = 0
  · have : d.value = 0 := by simp [value, zero]
    simp [literalG, zero, roundSig, this, Literal.value, fracVal, expVal, digitsVal]
  have positive : 0 < d.magnitude := lt_of_le_of_ne nonneg (Ne.symm zero)
  have spec : roundSig p d.value = (if d.sign then -1 else 1) *
      (((sigDigits p d.magnitude).1 : ℚ) * 10 ^ ((sigDigits p d.magnitude).2 - p)) := by
    rw [sigDigits_value positive]
    cases sign : d.sign
    · simp [value, sign, roundSig, zero, abs_of_pos positive, not_lt.mpr nonneg]
    · simp [value, sign, roundSig, zero, abs_of_pos positive, positive]
  rw [spec]
  unfold literalG
  rw [if_neg zero]
  dsimp only
  split
  · rw [Literal.value, int_add_fraction, expVal_exponentPart, zpow_sub₀ (by norm_num),
      zpow_natCast]
    ring
  · rename_i fixed
    have room : (sigDigits p d.magnitude).2 ≤ p := by omega
    have shift : (sigDigits p d.magnitude).2 - (p : ℤ) =
        -(((p - (sigDigits p d.magnitude).2).toNat : ℕ) : ℤ) := by omega
    rw [Literal.value, int_add_fraction, shift, zpow_neg, zpow_natCast]
    simp only [expVal, zpow_zero]
    rw [div_eq_mul_inv]
    ring

/-! ### Rounding to decimal places -/

/-- `v` rounded to `p` decimal places, ties to even. -/
def roundPlaces (p : Nat) (v : ℚ) : ℚ :=
  (if v < 0 then -1 else 1) * (roundEven (|v| * 10 ^ p) / 10 ^ p)

theorem abs_roundPlaces_sub_le (p : Nat) (v : ℚ) : |roundPlaces p v - v| ≤ 1 / (2 * 10 ^ p) := by
  have unit : |v| * 10 ^ p = |v| / ((10 : ℚ) ^ p)⁻¹ := by rw [div_inv_eq_mul]
  have near := @abs_roundEven_mul_sub_le (|v|) ((10 : ℚ) ^ p)⁻¹ (by positivity)
  rw [← unit, ← div_eq_mul_inv] at near
  have signed : |roundPlaces p v - v| = |roundEven (|v| * 10 ^ p) / 10 ^ p - (|v|)| := by
    unfold roundPlaces
    rcases lt_or_ge v 0 with neg | nonneg
    · rw [if_pos neg, abs_of_neg neg, ← abs_neg]
      congr 1
      ring
    · rw [if_neg (not_lt.mpr nonneg), abs_of_nonneg nonneg, one_mul]
  rw [signed]
  calc |(roundEven (|v| * 10 ^ p) : ℚ) / 10 ^ p - (|v|)| ≤ ((10 : ℚ) ^ p)⁻¹ / 2 := near
    _ = 1 / (2 * 10 ^ p) := by rw [inv_eq_one_div, div_div, mul_comm]

/-- A finite number prints, in fixed notation, as itself rounded to the requested
places. -/
theorem literalF_value (p : Nat) (d : Binary64) : (literalF p d).value = roundPlaces p d.value := by
  have nonneg := d.magnitude_nonneg
  have scaledNonneg : 0 ≤ roundEven (d.magnitude * 10 ^ p) :=
    le_roundEven (by push_cast; positivity)
  have cast : (((roundEven (d.magnitude * 10 ^ p)).toNat : ℕ) : ℚ) =
      roundEven (d.magnitude * 10 ^ p) := by
    exact_mod_cast congrArg (Int.cast (R := ℚ)) (Int.toNat_of_nonneg scaledNonneg)
  have parts : ∀ scaled : ℕ, (digitsVal (dec (scaled / 10 ^ p)) : ℚ) +
      fracVal (if p = 0 then none else some (digitsPad p scaled)) = scaled / 10 ^ p := by
    intro scaled
    have same : fracVal (if p = 0 then none else some (digitsPad p scaled)) =
        fracVal (fraction p scaled) := by
      rw [fracVal_fraction]
      by_cases whole : p = 0
      · simp [whole, fracVal, Nat.mod_one]
      · simp [whole, fracVal, digitsVal_digitsPad]
    rw [same, int_add_fraction]
  have magnitude : (literalF p d).value =
      (if d.sign then -1 else 1) * (roundEven (d.magnitude * 10 ^ p) / 10 ^ p) := by
    rw [Literal.value, literalF]
    dsimp only
    rw [parts, cast]
    simp [expVal]
  rw [magnitude]
  cases sign : d.sign with
  | false => simp [roundPlaces, value, sign, abs_of_nonneg nonneg, not_lt.mpr nonneg]
  | true =>
      rcases nonneg.eq_or_lt with zero | positive
      · simp [roundPlaces, value, sign, ← zero, roundEven]
      · simp [roundPlaces, value, sign, positive, abs_of_pos positive]

theorem format_noControl {literal : Binary64 → Literal} (wf : ∀ d, (literal d).WF) (d : Binary64) :
    NoControl (format literal d) := by
  unfold format
  split
  · exact Literal.text_noControl (wf d)
  · refine (signText_noControl d.sign).append ?_
    split
    · exact noControl_ascii rfl
    · exact noControl_ascii rfl

/-! ### Correctly rounded arithmetic -/

/-- The binary64 number nearest to `x`, ties to even; too large a magnitude
becomes an infinity. `neg` is the sign of the result, zero included. -/
def ofRat (neg : Bool) (x : ℚ) : Binary64 :=
  if x = 0 then ⟨neg, 0, 0⟩
  else
    let unit := max (Int.log 2 x - 52) (-1074)
    let scaled := (roundEven (x / 2 ^ unit)).toNat
    if scaled < 2 ^ 52 then ⟨neg, 0, BitVec.ofNat 52 scaled⟩
    else
      let carry := scaled = 2 ^ 53
      let biased := ((if carry then unit + 1 else unit) + 1075).toNat
      if 2047 ≤ biased then ⟨neg, 2047, 0⟩
      else ⟨neg, BitVec.ofNat 11 biased, BitVec.ofNat 52 (if carry then 0 else scaled - 2 ^ 52)⟩

def ofInt (n : ℤ) : Binary64 := ofRat (decide (n < 0)) |(n : ℚ)|

def nan : Binary64 := ⟨false, 2047, 1⟩

def isNan (d : Binary64) : Bool := decide (d.expo = 2047 ∧ d.frac ≠ 0)

def isInf (d : Binary64) : Bool := decide (d.expo = 2047 ∧ d.frac = 0)

theorem isNan_of_isFinite {d : Binary64} (finite : d.isFinite = true) : d.isNan = false := by
  have ones : ¬ d.expo = 2047 := by simpa [isFinite] using finite
  exact decide_eq_false fun nan => ones nan.1

theorem isInf_of_isFinite {d : Binary64} (finite : d.isFinite = true) : d.isInf = false := by
  have ones : ¬ d.expo = 2047 := by simpa [isFinite] using finite
  exact decide_eq_false fun inf => ones inf.1

def mul (a b : Binary64) : Binary64 :=
  if a.isNan ∨ b.isNan ∨ (a.isInf ∧ b.magnitude = 0) ∨ (b.isInf ∧ a.magnitude = 0) then nan
  else if a.isInf ∨ b.isInf then ⟨a.sign ^^ b.sign, 2047, 0⟩
  else ofRat (a.sign ^^ b.sign) (a.magnitude * b.magnitude)

def div (a b : Binary64) : Binary64 :=
  if a.isNan ∨ b.isNan ∨ (a.isInf ∧ b.isInf) ∨ (a.magnitude = 0 ∧ b.magnitude = 0) then nan
  else if a.isInf ∨ b.magnitude = 0 then ⟨a.sign ^^ b.sign, 2047, 0⟩
  else if b.isInf then ⟨a.sign ^^ b.sign, 0, 0⟩
  else ofRat (a.sign ^^ b.sign) (a.magnitude / b.magnitude)

/-- The unit of the last digit in the top binade. -/
def topUnit : ℚ := 2 ^ (971 : ℤ)

/-- The largest finite magnitude. -/
def maxFinite : ℚ := (2 ^ 53 - 1) * topUnit

theorem zpow_le_topUnit {e : ℤ} (h : e ≤ 971) : (2 : ℚ) ^ e ≤ topUnit :=
  zpow_le_zpow_right₀ (by norm_num) h

theorem one_le_topUnit : 1 ≤ topUnit := by
  simpa using zpow_le_topUnit (e := 0) (by norm_num)

theorem maxFinite_lt : maxFinite < 2 ^ (1024 : ℤ) := by
  have positive : 0 < topUnit := lt_of_lt_of_le one_pos one_le_topUnit
  calc maxFinite < 2 ^ (53 : ℤ) * topUnit := by
        refine mul_lt_mul_of_pos_right ?_ positive
        norm_num
    _ = 2 ^ (1024 : ℤ) := by
        rw [topUnit, ← zpow_add₀ (by norm_num)]
        rfl

theorem magnitude_le_maxFinite {d : Binary64} (finite : d.isFinite = true) :
    d.magnitude ≤ maxFinite := by
  have ones : d.expo ≠ 2047 := by simpa [isFinite] using finite
  have expo : d.expo.toNat ≤ 2046 := by
    have bound := d.expo.isLt
    have other : d.expo.toNat ≠ 2047 := fun h => ones (BitVec.eq_of_toNat_eq h)
    omega
  have frac : (d.frac.toNat : ℚ) + 1 ≤ 2 ^ 52 := by exact_mod_cast d.frac.isLt
  have nonneg : (0 : ℚ) ≤ d.frac.toNat := Nat.cast_nonneg _
  have range : (0 : ℚ) ≤ 2 ^ 53 - 1 := by norm_num
  unfold magnitude maxFinite
  split
  · refine mul_le_mul ?_ (zpow_le_topUnit (by norm_num)) (by positivity) range
    linarith
  · refine mul_le_mul ?_ (zpow_le_topUnit (by omega)) (by positivity) range
    linarith

/-! ### What rounding gives -/

/-- The exponent of the unit in the last place of `x`. -/
def unitOf (x : ℚ) : ℤ := max (Int.log 2 x - 52) (-1074)

/-- `x` in units of the last place, rounded. -/
def scaledOf (x : ℚ) : ℕ := (roundEven (x / 2 ^ unitOf x)).toNat

/-- The biased exponent of a normal number; a carry moves it. -/
def biasedOf (x : ℚ) : ℕ := ((if scaledOf x = 2 ^ 53 then unitOf x + 1 else unitOf x) + 1075).toNat

theorem ofRat_eq {x : ℚ} (neg : Bool) (nonzero : x ≠ 0) :
    ofRat neg x =
      if scaledOf x < 2 ^ 52 then ⟨neg, 0, BitVec.ofNat 52 (scaledOf x)⟩
      else if 2047 ≤ biasedOf x then ⟨neg, 2047, 0⟩
      else ⟨neg, BitVec.ofNat 11 (biasedOf x),
        BitVec.ofNat 52 (if scaledOf x = 2 ^ 53 then 0 else scaledOf x - 2 ^ 52)⟩ := by
  rw [ofRat, if_neg nonzero]
  rfl

/-- Only a magnitude beyond the largest finite one overflows. -/
theorem biasedOf_lt {x : ℚ} (bound : x ≤ maxFinite) : biasedOf x < 2047 := by
  have small : Int.log 2 x < 1024 := by
    rcases lt_or_ge 0 x with positive | nonpos
    · exact (Int.lt_zpow_iff_log_lt (by decide) positive).mp (lt_of_le_of_lt bound maxFinite_lt)
    · rw [Int.log_of_right_le_zero 2 nonpos]
      decide
  -- In the top binade the significand stays below the carry.
  have top : unitOf x = 971 → scaledOf x ≠ 2 ^ 53 := by
    intro unit
    rw [scaledOf, unit]
    have le : x / topUnit ≤ ((2 ^ 53 - 1 : ℤ) : ℚ) := by
      rw [div_le_iff₀ (lt_of_lt_of_le one_pos one_le_topUnit), Int.cast_sub, Int.cast_pow]
      exact bound
    have := roundEven_le le
    rw [topUnit] at this
    omega
  have low : unitOf x ≤ 971 := by
    unfold unitOf
    omega
  unfold biasedOf
  split <;> omega

theorem ofRat_isFinite {x : ℚ} (neg : Bool) (bound : x ≤ maxFinite) :
    (ofRat neg x).isFinite = true := by
  by_cases zero : x = 0
  · rw [ofRat, if_pos zero]
    rfl
  have low := biasedOf_lt bound
  rw [ofRat_eq neg zero, if_neg (not_le.mpr low)]
  split
  · rfl
  · refine decide_eq_true fun ones => ?_
    have := congrArg BitVec.toNat ones
    simp only [BitVec.toNat_ofNat, BitVec.reduceToNat] at this
    rw [Nat.mod_eq_of_lt (by omega)] at this
    omega

theorem scaledOf_cast {x : ℚ} (nonneg : 0 ≤ x) :
    (scaledOf x : ℚ) = roundEven (x / 2 ^ unitOf x) := by
  have rounded : 0 ≤ roundEven (x / 2 ^ unitOf x) := le_roundEven (by push_cast; positivity)
  exact_mod_cast congrArg (Int.cast (R := ℚ)) (Int.toNat_of_nonneg rounded)

theorem scaledOf_le (x : ℚ) : scaledOf x ≤ 2 ^ 53 := by
  have unit : Int.log 2 x + 1 ≤ unitOf x + 53 := by
    unfold unitOf
    omega
  have high : x / 2 ^ unitOf x ≤ ((2 ^ 53 : ℤ) : ℚ) := by
    rw [div_le_iff₀ (by positivity)]
    calc x ≤ 2 ^ (Int.log 2 x + 1) := (Int.lt_zpow_succ_log_self (by decide) x).le
      _ ≤ 2 ^ (unitOf x + 53) := zpow_le_zpow_right₀ (by norm_num) unit
      _ = ((2 ^ 53 : ℤ) : ℚ) * 2 ^ unitOf x := by
        rw [add_comm, zpow_add₀ (by norm_num)]
        norm_num
  have := roundEven_le high
  unfold scaledOf
  omega

/-- A significand below the normal ones belongs to the smallest unit. -/
theorem unitOf_of_scaledOf_lt {x : ℚ} (positive : 0 < x) (small : scaledOf x < 2 ^ 52) :
    unitOf x = -1074 := by
  by_contra normal
  have unit : unitOf x = Int.log 2 x - 52 := by
    unfold unitOf at normal ⊢
    omega
  have low : ((2 ^ 52 : ℤ) : ℚ) ≤ x / 2 ^ unitOf x := by
    rw [le_div_iff₀ (by positivity)]
    calc ((2 ^ 52 : ℤ) : ℚ) * 2 ^ unitOf x = 2 ^ Int.log 2 x := by
          rw [unit, zpow_sub₀ (by norm_num)]
          field_simp
          norm_num
      _ ≤ x := Int.zpow_log_le_self (by decide) positive
  have := le_roundEven low
  unfold scaledOf at small
  omega

/-- **A rounded number is the nearest multiple of its unit in the last place.** -/
theorem magnitude_ofRat {x : ℚ} (neg : Bool) (positive : 0 < x) (bound : x ≤ maxFinite) :
    (ofRat neg x).magnitude = roundEven (x / 2 ^ unitOf x) * 2 ^ unitOf x := by
  have low := biasedOf_lt bound
  have most := scaledOf_le x
  have smallest : -1074 ≤ unitOf x := le_max_right _ _
  rw [← scaledOf_cast positive.le, ofRat_eq neg positive.ne', if_neg (not_le.mpr low)]
  split
  · rename_i small
    simp only [magnitude, if_true, BitVec.toNat_ofNat, Nat.mod_eq_of_lt small,
      unitOf_of_scaledOf_lt positive small]
  · rename_i normal
    have expo : (BitVec.ofNat 11 (biasedOf x)).toNat = biasedOf x := by
      rw [BitVec.toNat_ofNat, Nat.mod_eq_of_lt (by omega)]
    have nonzero : BitVec.ofNat 11 (biasedOf x) ≠ 0 := by
      intro zero
      have := congrArg BitVec.toNat zero
      rw [expo] at this
      unfold biasedOf at this
      split at this <;> simp only [BitVec.reduceToNat] at this <;> omega
    simp only [magnitude, if_neg nonzero, expo, BitVec.toNat_ofNat]
    by_cases carry : scaledOf x = 2 ^ 53
    · have biased : (biasedOf x : ℤ) - 1075 = unitOf x + 1 := by
        rw [biasedOf, if_pos carry]
        omega
      rw [if_pos carry, biased, carry, zpow_add_one₀ (by norm_num)]
      push_cast
      ring
    · have biased : (biasedOf x : ℤ) - 1075 = unitOf x := by
        rw [biasedOf, if_neg carry]
        omega
      have split : (2 ^ 52 + ((scaledOf x - 2 ^ 52) % 2 ^ 52 : ℕ) : ℚ) = scaledOf x := by
        rw [Nat.mod_eq_of_lt (by omega), Nat.cast_sub (by omega)]
        push_cast
        ring
      rw [if_neg carry, biased, split]

/-- The error is at most half a unit in the last place. -/
theorem abs_magnitude_ofRat_sub_le {x : ℚ} (neg : Bool) (positive : 0 < x) (bound : x ≤ maxFinite) :
    |(ofRat neg x).magnitude - x| ≤ 2 ^ unitOf x / 2 := by
  rw [magnitude_ofRat neg positive bound]
  exact abs_roundEven_mul_sub_le (by positivity)

/-- A number with at most 53 binary digits is rounded to itself. -/
theorem magnitude_ofRat_dyadic {m : ℕ} {e : ℤ} (neg : Bool) (digits : m < 2 ^ 53)
    (low : -1074 ≤ e) (bound : m * 2 ^ e ≤ maxFinite) :
    (ofRat neg (m * 2 ^ e)).magnitude = m * 2 ^ e := by
  rcases Nat.eq_zero_or_pos m with rfl | some
  · simp [ofRat, magnitude]
  have positive : (0 : ℚ) < m * 2 ^ e := by positivity
  have unit : unitOf (m * 2 ^ e) ≤ e := by
    have top : (m : ℚ) * 2 ^ e < (2 : ℕ) ^ (53 + e) := by
      rw [Nat.cast_ofNat, zpow_add₀ (by norm_num)]
      refine mul_lt_mul_of_pos_right ?_ (by positivity)
      exact_mod_cast digits
    have log := (Int.lt_zpow_iff_log_lt (by decide) positive).mp top
    unfold unitOf
    omega
  obtain ⟨k, shift⟩ := Int.le.dest unit
  have whole : (m : ℚ) * 2 ^ e / 2 ^ unitOf (m * 2 ^ e) = ((m * 2 ^ k : ℤ) : ℚ) := by
    rw [div_eq_iff (by positivity)]
    push_cast
    rw [mul_assoc, ← zpow_natCast, ← zpow_add₀ (by norm_num), add_comm, shift]
  rw [magnitude_ofRat neg positive bound, whole, roundEven_intCast, ← whole,
    div_mul_cancel₀ _ (by positivity)]

@[simp] theorem ofRat_sign (neg : Bool) (x : ℚ) : (ofRat neg x).sign = neg := by
  by_cases zero : x = 0
  · rw [ofRat, if_pos zero]
  · rw [ofRat_eq neg zero]
    split_ifs <;> rfl

/-- What fits 64 bits is far from overflowing. -/
theorem le_maxFinite {x : ℚ} (bound : x ≤ 2 ^ 64) : x ≤ maxFinite := by
  have range : (1 : ℚ) ≤ 2 ^ 53 - 1 := by norm_num
  calc x ≤ 2 ^ (64 : ℤ) := by exact_mod_cast bound
    _ ≤ topUnit := zpow_le_topUnit (by norm_num)
    _ ≤ maxFinite := le_mul_of_one_le_left (zero_le_one.trans one_le_topUnit) range

theorem ofInt_isFinite {n : ℤ} (bound : |n| ≤ 2 ^ 64) : (ofInt n).isFinite = true :=
  ofRat_isFinite _ (le_maxFinite (by exact_mod_cast bound))

/-- Below 2^48 a rounded number is nearer than a sixty-fourth to what was rounded. -/
theorem abs_ofRat_value_sub_le {x : ℚ} (nonneg : 0 ≤ x) (small : x < 2 ^ 48) :
    |(ofRat false x).value - x| ≤ 1 / 64 := by
  have value : (ofRat false x).value = (ofRat false x).magnitude := by
    rw [value, ofRat_sign, if_neg Bool.false_ne_true]
  rw [value]
  rcases nonneg.eq_or_lt with rfl | positive
  · simp [ofRat, magnitude]
  have log : Int.log 2 x < 48 :=
    (Int.lt_zpow_iff_log_lt (by decide) positive).mp (by exact_mod_cast small)
  have unit : unitOf x ≤ -5 := by
    unfold unitOf
    omega
  have bound : x ≤ 2 ^ 64 := small.le.trans (by norm_num)
  calc |(ofRat false x).magnitude - x| ≤ 2 ^ unitOf x / 2 :=
        abs_magnitude_ofRat_sub_le false positive (le_maxFinite bound)
    _ ≤ 2 ^ (-5 : ℤ) / 2 := by
        have scale := zpow_le_zpow_right₀ (by norm_num : (1 : ℚ) ≤ 2) unit
        exact div_le_div_of_nonneg_right scale (by norm_num)
    _ = 1 / 64 := by norm_num

/-- An integer of at most 53 binary digits is represented as it is. -/
theorem magnitude_ofInt {n : ℕ} (digits : n < 2 ^ 53) : (ofInt n).magnitude = n := by
  have bound : (n : ℚ) * 2 ^ (0 : ℤ) ≤ maxFinite := by
    have small : (n : ℚ) ≤ 2 ^ 53 := by exact_mod_cast digits.le
    refine le_maxFinite ?_
    rw [zpow_zero, mul_one]
    linarith
  have exact := magnitude_ofRat_dyadic (decide ((n : ℤ) < 0)) digits (by norm_num) bound
  simpa [ofInt] using exact

theorem ofInt_natCast_isFinite {n : ℕ} (bound : n ≤ 2 ^ 64) : (ofInt n).isFinite = true := by
  apply ofInt_isFinite
  rw [abs_of_nonneg (by positivity)]
  exact_mod_cast bound

@[simp] theorem ofInt_natCast_sign (n : ℕ) : (ofInt n).sign = false := by
  rw [ofInt, ofRat_sign]
  exact decide_eq_false (by omega)

theorem mul_eq {a b : Binary64} (finite : a.isFinite = true) (finite' : b.isFinite = true) :
    a.mul b = ofRat (a.sign ^^ b.sign) (a.magnitude * b.magnitude) := by
  simp [mul, isNan_of_isFinite finite, isInf_of_isFinite finite, isNan_of_isFinite finite',
    isInf_of_isFinite finite']

/-- A product of whole numbers is exact when its odd part has at most 53 binary digits. -/
theorem mul_ofInt_exact {n odd j : ℕ} (digits : n * odd < 2 ^ 53) (factor : odd * 2 ^ j < 2 ^ 53)
    (nonzero : 0 < odd) (fits : n * (odd * 2 ^ j) < 2 ^ 64) :
    ((ofInt n).mul (ofInt (odd * 2 ^ j : ℕ))).isFinite = true ∧
      ((ofInt n).mul (ofInt (odd * 2 ^ j : ℕ))).value = (n * (odd * 2 ^ j) : ℕ) := by
  have short : n < 2 ^ 53 := lt_of_le_of_lt (Nat.le_mul_of_pos_right n nonzero) digits
  have dyadic : (n : ℚ) * (odd * 2 ^ j : ℕ) = (n * odd : ℕ) * 2 ^ (j : ℤ) := by
    push_cast
    rw [zpow_natCast]
    ring
  have bound : ((n * odd : ℕ) : ℚ) * 2 ^ (j : ℤ) ≤ maxFinite := by
    rw [← dyadic]
    exact le_maxFinite (by exact_mod_cast fits.le)
  have product : (ofInt n).mul (ofInt (odd * 2 ^ j : ℕ)) =
      ofRat false ((n * odd : ℕ) * 2 ^ (j : ℤ)) := by
    rw [mul_eq (ofInt_natCast_isFinite (by omega)) (ofInt_natCast_isFinite (by omega)),
      magnitude_ofInt short, magnitude_ofInt factor, dyadic, ofInt_natCast_sign,
      ofInt_natCast_sign, Bool.xor_false]
  rw [product]
  refine ⟨ofRat_isFinite _ bound, ?_⟩
  rw [value, ofRat_sign, if_neg Bool.false_ne_true,
    magnitude_ofRat_dyadic false digits (by omega) bound, ← dyadic]
  push_cast
  rfl

theorem div_eq {a b : Binary64} (finite : a.isFinite = true) (finite' : b.isFinite = true)
    (nonzero : b.magnitude ≠ 0) :
    a.div b = ofRat (a.sign ^^ b.sign) (a.magnitude / b.magnitude) := by
  simp [div, isNan_of_isFinite finite, isInf_of_isFinite finite, isNan_of_isFinite finite',
    isInf_of_isFinite finite', nonzero]

/-- Dividing a finite number by one that is at least 1 stays finite. -/
theorem div_isFinite {a b : Binary64} (finite : a.isFinite = true) (finite' : b.isFinite = true)
    (large : 1 ≤ b.magnitude) : (a.div b).isFinite = true := by
  have nonzero : b.magnitude ≠ 0 := by linarith
  have quotient : a.magnitude / b.magnitude ≤ maxFinite :=
    (div_le_self a.magnitude_nonneg large).trans (magnitude_le_maxFinite finite)
  rw [div_eq finite finite' nonzero]
  exact ofRat_isFinite _ quotient

/-- Rounding a rational number never gives a NaN. -/
theorem ofRat_isNan (neg : Bool) (x : ℚ) : (ofRat neg x).isNan = false := by
  by_cases zero : x = 0
  · rw [ofRat, if_pos zero]
    rfl
  rw [ofRat_eq neg zero]
  split
  · simp [isNan]
  · split
    · simp [isNan]
    · rename_i low
      refine decide_eq_false fun nan => ?_
      have := congrArg BitVec.toNat nan.1
      simp only [BitVec.toNat_ofNat, BitVec.reduceToNat] at this
      omega

/-- A product with a finite number that is not zero is a NaN only when the other factor is. -/
theorem mul_isNan {a b : Binary64} (real : a.isNan = false) (finite : b.isFinite = true)
    (nonzero : b.magnitude ≠ 0) : (a.mul b).isNan = false := by
  have real' := isNan_of_isFinite finite
  have finite' := isInf_of_isFinite finite
  unfold mul
  simp only [real, real', finite', nonzero, Bool.false_eq_true, and_false, false_and, or_false,
    if_false]
  split
  · simp [isNan]
  · exact ofRat_isNan _ _

end Binary64

end ByteText
