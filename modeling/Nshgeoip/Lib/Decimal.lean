import Mathlib.Data.Nat.Log
import Mathlib.Data.List.DropRight
import Mathlib.Algebra.Order.Field.Rat
import Mathlib.Tactic.Ring
import Mathlib.Tactic.FieldSimp
import Mathlib.Tactic.Linarith
import Nshgeoip.Lib.Bytes

/-!
Decimal digits and decimal literals.

`digitsPad k n` writes the last `k` decimal digits of `n` and `dec n` all of
them, so the value of the digits is known once (`digitsVal_digitsPad`) and used
for integers, padded fractions and exponents alike. `Literal` is a decimal
literal with its parts kept apart: an optional sign, integer digits, optional
fraction digits, an optional exponent. `Literal.read` scans one off the front
of a text and `Literal.read_text` says it takes back exactly what
`Literal.text` wrote, as long as the text after it cannot prolong the literal.
-/

namespace ByteText

def isDigit (b : UInt8) : Bool := decide (48 ≤ b ∧ b ≤ 57)

/-- The last `k` decimal digits of `n`, leading zeros included. -/
def digitsPad : Nat → Nat → Bytes
  | 0, _ => []
  | k + 1, n => digitsPad k (n / 10) ++ [48 + (n % 10).toUInt8]

/-- The decimal digits of `n` without leading zeros. -/
def dec (n : Nat) : Bytes := digitsPad (Nat.log 10 n + 1) n

/-- The number a digit string denotes. -/
def digitsVal (ds : Bytes) : Nat := ds.foldl (fun acc b => acc * 10 + (b.toNat - 48)) 0

/-! ### Digits -/

@[simp] theorem length_digitsPad (k n : Nat) : (digitsPad k n).length = k := by
  induction k generalizing n with
  | zero => rfl
  | succ k ih => simp [digitsPad, ih]

theorem toNat_digit (n : Nat) : (48 + (n % 10).toUInt8).toNat = 48 + n % 10 := by
  have bound : n % 10 < 10 := Nat.mod_lt _ (by decide)
  simp only [UInt8.toNat_add, Nat.toUInt8_eq, UInt8.toNat_ofNat', UInt8.reduceToNat]
  omega

theorem isDigit_digit (n : Nat) : isDigit (48 + (n % 10).toUInt8) = true := by
  have value := toNat_digit n
  have bound : n % 10 < 10 := Nat.mod_lt _ (by decide)
  simp only [isDigit, decide_eq_true_eq, UInt8.le_iff_toNat_le, value, UInt8.reduceToNat]
  omega

theorem isDigit_of_mem_digitsPad {k n : Nat} {b : UInt8} (h : b ∈ digitsPad k n) :
    isDigit b = true := by
  induction k generalizing n with
  | zero => simp [digitsPad] at h
  | succ k ih =>
      simp only [digitsPad, List.mem_append, List.mem_singleton] at h
      rcases h with earlier | rfl
      · exact ih earlier
      · exact isDigit_digit n

theorem isDigit_of_mem_dec {n : Nat} {b : UInt8} (h : b ∈ dec n) : isDigit b = true :=
  isDigit_of_mem_digitsPad h

theorem dec_ne_nil (n : Nat) : dec n ≠ [] := by
  intro h
  have := congrArg List.length h
  simp [dec] at this

theorem isControl_of_isDigit {b : UInt8} (h : isDigit b = true) : isControl b = false := by
  simp only [isDigit, decide_eq_true_eq, UInt8.le_iff_toNat_le, UInt8.reduceToNat] at h
  simp only [isControl, decide_eq_false_iff_not, UInt8.lt_iff_toNat_lt, ← UInt8.toNat_inj,
    UInt8.reduceToNat]
  omega

theorem digitsPad_noControl (k n : Nat) : NoControl (digitsPad k n) := fun _ hb =>
  isControl_of_isDigit (isDigit_of_mem_digitsPad hb)

theorem dec_noControl (n : Nat) : NoControl (dec n) := fun _ hb =>
  isControl_of_isDigit (isDigit_of_mem_dec hb)

theorem digitsVal_append (a b : Bytes) :
    digitsVal (a ++ b) = digitsVal a * 10 ^ b.length + digitsVal b := by
  induction b using List.reverseRecOn with
  | nil => simp [digitsVal]
  | append_singleton bs x ih =>
      have split : digitsVal (a ++ (bs ++ [x])) = digitsVal (a ++ bs) * 10 + (x.toNat - 48) := by
        simp [digitsVal]
      have last : digitsVal (bs ++ [x]) = digitsVal bs * 10 + (x.toNat - 48) := by
        simp [digitsVal]
      rw [split, last, ih, List.length_append, List.length_singleton, pow_succ]
      ring

theorem digitsVal_digitsPad (k n : Nat) : digitsVal (digitsPad k n) = n % 10 ^ k := by
  induction k generalizing n with
  | zero => simp [digitsPad, digitsVal, Nat.mod_one]
  | succ k ih =>
      have last : digitsVal [48 + (n % 10).toUInt8] = n % 10 := by
        simp only [digitsVal, List.foldl_cons, List.foldl_nil, toNat_digit]
        omega
      have decompose : n % (10 * 10 ^ k) = n % 10 + 10 * (n / 10 % 10 ^ k) := Nat.mod_mul
      rw [digitsPad, digitsVal_append, ih, last, List.length_singleton, pow_one,
        pow_succ, Nat.mul_comm (10 ^ k) 10, decompose]
      ring

@[simp] theorem digitsVal_dec (n : Nat) : digitsVal (dec n) = n := by
  rw [dec, digitsVal_digitsPad]
  exact Nat.mod_eq_of_lt (Nat.lt_pow_succ_log_self (by decide) n)

theorem digitsPad_digitsVal {s : Bytes} (digits : ∀ b ∈ s, isDigit b = true) :
    digitsPad s.length (digitsVal s) = s := by
  induction s using List.reverseRecOn with
  | nil => rfl
  | append_singleton s b ih =>
      have here : isDigit b = true := digits b (by simp)
      have bounds : 48 ≤ b.toNat ∧ b.toNat ≤ 57 := by
        simpa [isDigit, UInt8.le_iff_toNat_le] using here
      have value : digitsVal (s ++ [b]) = digitsVal s * 10 + (b.toNat - 48) := by
        simp [digitsVal]
      have front : (digitsVal s * 10 + (b.toNat - 48)) / 10 = digitsVal s := by omega
      have last : (48 : UInt8) + ((digitsVal s * 10 + (b.toNat - 48)) % 10).toUInt8 = b := by
        apply UInt8.toNat_inj.mp
        rw [toNat_digit]
        omega
      rw [List.length_append, List.length_singleton, digitsPad, value, front, last,
        ih fun x mem => digits x (List.mem_append_left _ mem)]

theorem digitsVal_lt {s : Bytes} (digits : ∀ b ∈ s, isDigit b = true) :
    digitsVal s < 10 ^ s.length := by
  have value := digitsVal_digitsPad s.length (digitsVal s)
  rw [digitsPad_digitsVal digits] at value
  rw [value]
  exact Nat.mod_lt _ (by positivity)

theorem head?_digitsPad (k n : Nat) :
    (digitsPad (k + 1) n).head? = some (48 + (n / 10 ^ k % 10).toUInt8) := by
  induction k generalizing n with
  | zero => simp [digitsPad]
  | succ k ih =>
      rw [digitsPad, List.head?_append, ih (n / 10), Option.some_or, Nat.div_div_eq_div_mul,
        pow_succ, Nat.mul_comm 10]

/-- No superfluous leading zero: a decimal that starts with `0` is `0`. -/
theorem dec_no_leading_zero {n : Nat} (h : (dec n).head? = some 48) : (dec n).length = 1 := by
  rw [dec, head?_digitsPad] at h
  have value := congrArg (Option.map UInt8.toNat) h
  simp only [Option.map_some, toNat_digit, UInt8.reduceToNat, Option.some.injEq] at value
  have top : n / 10 ^ Nat.log 10 n < 10 := by
    rw [Nat.div_lt_iff_lt_mul (by positivity), Nat.mul_comm, ← pow_succ]
    exact Nat.lt_pow_succ_log_self (by decide) n
  have zero : n = 0 := by
    by_contra positive
    have low := Nat.pow_log_le_self 10 positive
    have : 0 < n / 10 ^ Nat.log 10 n := Nat.div_pos low (by positivity)
    omega
  simp [dec, zero]

/-- A digit string without a superfluous zero is the decimal of its value. -/
theorem dec_digitsVal {s : Bytes} (nonempty : s ≠ []) (digits : ∀ b ∈ s, isDigit b = true)
    (plain : s.head? = some 48 → s.length = 1) : dec (digitsVal s) = s := by
  obtain ⟨d, ds, rfl⟩ := List.exists_cons_of_ne_nil nonempty
  have upper := digitsVal_lt digits
  have length : Nat.log 10 (digitsVal (d :: ds)) + 1 = (d :: ds).length := by
    by_cases zero : d = 48
    · obtain rfl : ds = [] := by simpa using plain (by rw [zero, List.head?_cons])
      subst zero
      decide
    · have here : isDigit d = true := digits d List.mem_cons_self
      have bounds : 48 ≤ d.toNat ∧ d.toNat ≤ 57 := by
        simpa [isDigit, UInt8.le_iff_toNat_le] using here
      have differs : d.toNat ≠ 48 := fun eq => zero (UInt8.toNat_inj.mp eq)
      have value : digitsVal (d :: ds) = (d.toNat - 48) * 10 ^ ds.length + digitsVal ds := by
        simpa [digitsVal] using digitsVal_append [d] ds
      have lower : 10 ^ ds.length ≤ digitsVal (d :: ds) := by
        rw [value]
        exact (Nat.le_mul_of_pos_left _ (by omega)).trans (Nat.le_add_right _ _)
      rw [Nat.log_eq_of_pow_le_of_lt_pow lower upper, List.length_cons]
  rw [dec, length, digitsPad_digitsVal digits]

/-- Trailing zeros of a fraction do not count: dropping them divides the value
by the power of ten they stood for. -/
theorem digitsVal_rdropWhile (ds : Bytes) :
    digitsVal ds =
      digitsVal (ds.rdropWhile (· == 48)) *
        10 ^ (ds.length - (ds.rdropWhile (· == 48)).length) := by
  induction ds using List.reverseRecOn with
  | nil => simp [digitsVal]
  | append_singleton bs x ih =>
      by_cases zero : x = 48
      · subst zero
        have shorter : (bs.rdropWhile (· == 48)).length ≤ bs.length :=
          (List.rdropWhile_prefix _ _).length_le
        have longer : (bs ++ [(48 : UInt8)]).length - (bs.rdropWhile (· == 48)).length =
            bs.length - (bs.rdropWhile (· == 48)).length + 1 := by
          simp only [List.length_append, List.length_singleton]
          omega
        have nothing : digitsVal [48] = 0 := by decide
        rw [List.rdropWhile_concat_pos _ _ _ (by decide), digitsVal_append, ih, longer, nothing,
          pow_succ, List.length_singleton]
        ring
      · rw [List.rdropWhile_concat_neg _ _ _ (by simpa using zero)]
        simp

/-! ### Decimal literals -/

/-- The exponent part of a literal: `e` or `E`, an optional sign (`some true`
is a minus), digits. -/
structure Exponent where
  upper : Bool
  sign : Option Bool
  digits : Bytes
  deriving DecidableEq

/-- A decimal literal, part by part. -/
structure Literal where
  neg : Bool
  int : Bytes
  frac : Option Bytes
  exp : Option Exponent
  deriving DecidableEq

/-- A digit string with at least one digit. -/
def DigitRun (ds : Bytes) : Prop := ds ≠ [] ∧ ∀ b ∈ ds, isDigit b = true

/-- The literals of the JSON grammar: digits in every part that is present,
and no superfluous zero in front. -/
structure Literal.WF (l : Literal) : Prop where
  int : DigitRun l.int
  lead : l.int.head? = some 48 → l.int.length = 1
  frac : ∀ f ∈ l.frac, DigitRun f
  exp : ∀ e ∈ l.exp, DigitRun e.digits

def signText (neg : Bool) : Bytes := if neg then [45] else []

def fracText : Option Bytes → Bytes
  | none => []
  | some f => 46 :: f

def Exponent.signText : Option Bool → Bytes
  | none => []
  | some false => [43]
  | some true => [45]

def expText : Option Exponent → Bytes
  | none => []
  | some e => (if e.upper then 69 else 101) :: (Exponent.signText e.sign ++ e.digits)

def Literal.text (l : Literal) : Bytes :=
  signText l.neg ++ l.int ++ fracText l.frac ++ expText l.exp

def fracVal : Option Bytes → ℚ
  | none => 0
  | some f => digitsVal f / 10 ^ f.length

def expVal : Option Exponent → ℤ
  | none => 0
  | some e => if e.sign = some true then -(digitsVal e.digits : ℤ) else digitsVal e.digits

/-- The number a literal denotes. -/
def Literal.value (l : Literal) : ℚ :=
  (if l.neg then -1 else 1) * (digitsVal l.int + fracVal l.frac) * 10 ^ expVal l.exp

theorem dec_digitRun (n : Nat) : DigitRun (dec n) := ⟨dec_ne_nil n, fun _ => isDigit_of_mem_dec⟩

/-- A natural number as a literal. -/
def decLiteral (n : Nat) : Literal := ⟨false, dec n, none, none⟩

theorem decLiteral_wf (n : Nat) : (decLiteral n).WF :=
  ⟨dec_digitRun n, dec_no_leading_zero, by simp [decLiteral], by simp [decLiteral]⟩

@[simp] theorem decLiteral_text (n : Nat) : (decLiteral n).text = dec n := by
  simp [decLiteral, Literal.text, signText, fracText, expText]

@[simp] theorem decLiteral_value (n : Nat) : (decLiteral n).value = n := by
  simp [decLiteral, Literal.value, fracVal, expVal]

/-! ### Reading a literal back -/

def readSign : Bytes → Bool × Bytes
  | [] => (false, [])
  | b :: s => if b = 45 then (true, s) else (false, b :: s)

def readFrac : Bytes → Option (Option Bytes × Bytes)
  | [] => some (none, [])
  | b :: s =>
      if b = 46 then
        if s.takeWhile isDigit = [] then none
        else some (some (s.takeWhile isDigit), s.dropWhile isDigit)
      else some (none, b :: s)

def Exponent.readSign : Bytes → Option Bool × Bytes
  | [] => (none, [])
  | b :: s => if b = 43 then (some false, s) else if b = 45 then (some true, s) else (none, b :: s)

def readExp : Bytes → Option (Option Exponent × Bytes)
  | [] => some (none, [])
  | b :: s =>
      if b = 101 ∨ b = 69 then
        let signed := Exponent.readSign s
        if signed.2.takeWhile isDigit = [] then none
        else some (some ⟨b == 69, signed.1, signed.2.takeWhile isDigit⟩,
          signed.2.dropWhile isDigit)
      else some (none, b :: s)

/-- Scan the longest literal off the front of a text. -/
def Literal.read (s : Bytes) : Option (Literal × Bytes) :=
  let signed := readSign s
  let int := signed.2.takeWhile isDigit
  if int = [] ∨ (int.head? = some 48 ∧ int.length ≠ 1) then none
  else
    (readFrac (signed.2.dropWhile isDigit)).bind fun frac =>
      (readExp frac.2).map fun exp => (⟨signed.1, int, frac.1, exp.1⟩, exp.2)

/-- What follows a literal must not prolong it. -/
def Literal.Follow (rest : Bytes) : Prop :=
  ∀ b ∈ rest.head?, isDigit b = false ∧ b ≠ 46 ∧ b ≠ 101 ∧ b ≠ 69

/-- A run of bytes of one class is taken whole when the text after it leaves the class. -/
theorem takeWhile_run {p : UInt8 → Bool} {run rest : Bytes} (inside : ∀ b ∈ run, p b = true)
    (stop : ∀ b ∈ rest.head?, p b = false) :
    (run ++ rest).takeWhile p = run ∧ (run ++ rest).dropWhile p = rest := by
  rw [List.takeWhile_append_of_pos inside, List.dropWhile_append_of_pos inside]
  cases rest with
  | nil => simp
  | cons b bs => simp [stop b (by simp)]

theorem readFrac_text {frac : Option Bytes} {rest : Bytes} (digits : ∀ f ∈ frac, DigitRun f)
    (stop : ∀ b ∈ rest.head?, isDigit b = false ∧ b ≠ 46) :
    readFrac (fracText frac ++ rest) = some (frac, rest) := by
  cases frac with
  | none =>
      cases rest with
      | nil => rfl
      | cons b bs => simp [readFrac, fracText, (stop b (by simp)).2]
  | some f =>
      obtain ⟨nonempty, all⟩ := digits f rfl
      obtain ⟨taken, left⟩ := takeWhile_run all fun b hb => (stop b hb).1
      simp [readFrac, fracText, taken, left, nonempty]

theorem Exponent.readSign_text (sign : Option Bool) {ds : Bytes} (run : DigitRun ds) (rest : Bytes) :
    Exponent.readSign (Exponent.signText sign ++ (ds ++ rest)) = (sign, ds ++ rest) := by
  obtain ⟨nonempty, all⟩ := run
  cases ds with
  | nil => exact absurd rfl nonempty
  | cons d ds =>
      have digit := all d List.mem_cons_self
      have plus : d ≠ 43 := by rintro rfl; exact absurd digit (by decide)
      have minus : d ≠ 45 := by rintro rfl; exact absurd digit (by decide)
      rcases sign with _ | _ | _
      · simp [Exponent.readSign, Exponent.signText, plus, minus]
      · simp [Exponent.readSign, Exponent.signText]
      · simp [Exponent.readSign, Exponent.signText]

theorem readExp_text {exp : Option Exponent} {rest : Bytes}
    (digits : ∀ e ∈ exp, DigitRun e.digits) (follow : Literal.Follow rest) :
    readExp (expText exp ++ rest) = some (exp, rest) := by
  cases exp with
  | none =>
      cases rest with
      | nil => rfl
      | cons b bs =>
          obtain ⟨-, -, lower, upper⟩ := follow b (by simp)
          simp [readExp, expText, lower, upper]
  | some e =>
      obtain ⟨up, sign, ds⟩ := e
      have run : DigitRun ds := digits _ rfl
      obtain ⟨taken, left⟩ := takeWhile_run run.2 fun b hb => (follow b hb).1
      have signed := Exponent.readSign_text sign run rest
      cases up <;> simp [readExp, expText, signed, taken, left, run.1]

theorem readSign_text (neg : Bool) {ds : Bytes} (run : DigitRun ds) (rest : Bytes) :
    readSign (signText neg ++ (ds ++ rest)) = (neg, ds ++ rest) := by
  obtain ⟨nonempty, all⟩ := run
  cases ds with
  | nil => exact absurd rfl nonempty
  | cons d ds =>
      have minus : d ≠ 45 := by
        rintro rfl
        exact absurd (all 45 List.mem_cons_self) (by decide)
      cases neg <;> simp [readSign, signText, minus]

/-- The first byte of an exponent, and of whatever follows a fraction, ends a
run of digits. -/
theorem expText_stops (exp : Option Exponent) {rest : Bytes} (follow : Literal.Follow rest) :
    ∀ b ∈ (expText exp ++ rest).head?, isDigit b = false ∧ b ≠ 46 := by
  intro b hb
  cases exp with
  | none => exact ⟨(follow b hb).1, (follow b hb).2.1⟩
  | some e =>
      cases upper : e.upper <;>
        simp only [expText, upper, List.cons_append, List.head?_cons, Option.mem_some_iff] at hb <;>
        subst hb <;> decide

theorem fracText_stops (frac : Option Bytes) {rest : Bytes}
    (stop : ∀ b ∈ rest.head?, isDigit b = false) :
    ∀ b ∈ (fracText frac ++ rest).head?, isDigit b = false := by
  intro b hb
  cases frac with
  | none => exact stop b hb
  | some f =>
      simp only [fracText, List.cons_append, List.head?_cons, Option.mem_some_iff] at hb
      subst hb
      decide

/-- **A written literal reads back whole**, and the text after it is left
untouched. -/
theorem Literal.read_text {l : Literal} (wf : l.WF) {rest : Bytes} (follow : Literal.Follow rest) :
    Literal.read (l.text ++ rest) = some (l, rest) := by
  obtain ⟨neg, int, frac, exp⟩ := l
  have split : Literal.text ⟨neg, int, frac, exp⟩ ++ rest =
      signText neg ++ (int ++ (fracText frac ++ (expText exp ++ rest))) := by
    simp [Literal.text]
  have signed := readSign_text neg wf.int (fracText frac ++ (expText exp ++ rest))
  have afterInt := fracText_stops frac fun b hb => (expText_stops exp follow b hb).1
  obtain ⟨taken, left⟩ := takeWhile_run wf.int.2 afterInt
  have lead : ¬ (int = [] ∨ int.head? = some 48 ∧ int.length ≠ 1) := by
    rintro (empty | ⟨zero, long⟩)
    · exact wf.int.1 empty
    · exact long (wf.lead zero)
  rw [split]
  simp only [Literal.read, signed, taken, left]
  rw [if_neg lead, readFrac_text wf.frac (expText_stops exp follow), Option.bind_some,
    readExp_text wf.exp follow]
  rfl

theorem signText_noControl (neg : Bool) : NoControl (signText neg) := by
  cases neg <;> simp [signText, NoControl, isControl]

/-- A class with the digits and the five marks of a literal in it has every byte of one. -/
theorem Literal.forall_mem_text {p : UInt8 → Prop} (digit : ∀ b, isDigit b = true → p b)
    (marks : ∀ b ∈ ([45, 43, 46, 101, 69] : Bytes), p b) {l : Literal} (wf : l.WF) : ∀ b ∈ l.text, p b := by
  obtain ⟨neg, int, frac, exp⟩ := l
  have minus : p 45 := marks 45 (by decide)
  intro b hb
  simp only [Literal.text, List.mem_append] at hb
  rcases hb with ((sign | whole) | places) | power
  · cases neg with
    | false => cases sign
    | true =>
        obtain rfl : b = 45 := by simpa [signText] using sign
        exact minus
  · exact digit b (wf.int.2 b whole)
  · cases frac with
    | none => cases places
    | some f =>
        rcases List.mem_cons.mp places with rfl | mem
        · exact marks 46 (by decide)
        · exact digit b ((wf.frac f rfl).2 b mem)
  · cases exp with
    | none => cases power
    | some e =>
        obtain ⟨upper, sign, ds⟩ := e
        rcases List.mem_cons.mp power with rfl | mem
        · cases upper
          · exact marks 101 (by decide)
          · exact marks 69 (by decide)
        · rcases List.mem_append.mp mem with signed | digits
          · rcases sign with _ | _ | _
            · cases signed
            · obtain rfl : b = 43 := by simpa [Exponent.signText] using signed
              exact marks 43 (by decide)
            · obtain rfl : b = 45 := by simpa [Exponent.signText] using signed
              exact minus
          · exact digit b ((wf.exp _ rfl).2 b digits)

theorem Literal.text_noControl {l : Literal} (wf : l.WF) : NoControl l.text :=
  Literal.forall_mem_text (fun _ => isControl_of_isDigit) (by simp [isControl]) wf

end ByteText
