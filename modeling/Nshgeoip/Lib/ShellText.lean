import Mathlib.Data.List.DropRight
import Nshgeoip.Lib.Bytes

/-!
What shell scripts do to text: the first field of a file (`awk`), hexadecimal
digests and their case (`grep`, `tr`), the fields after a delimiter (`cut`), and
what is left of an output that is captured or echoed.
-/

namespace ShellText

open ByteText

/-- A field separator of `awk` inside a line. -/
def isBlank (b : UInt8) : Bool := decide (b = 32 ∨ b = 9)

/-- The first record of a file. A NUL byte ends it as well: the tool keeps its
strings as C strings. -/
def firstLine (file : Bytes) : Bytes := file.takeWhile fun b => b ≠ 10 ∧ b ≠ 0

/-- `awk 'NR == 1 { print $1 }'`. -/
def firstField (file : Bytes) : Bytes :=
  ((firstLine file).dropWhile isBlank).takeWhile fun b => !isBlank b

/-- `grep -E '^[0-9a-fA-F]\{n\}$'` on a single line. -/
def isHex (n : Nat) (s : Bytes) : Bool := s.length == n && s.all fun b => (hexVal b).isSome

/-- `tr 'A-F' 'a-f'`. -/
def lowerHex (s : Bytes) : Bytes := s.map fun b => if 65 ≤ b ∧ b ≤ 70 then b + 32 else b

/-- The line of a checksum file, `printf '%s  %s\n'`. -/
def checksumLine (digest filename : Bytes) : Bytes := digest ++ ascii "  " ++ filename ++ [10]

/-- What `$(...)` keeps of an output. -/
def captured (output : Bytes) : Bytes := (output.filter (· ≠ 0)).rdropWhile (· = 10)

/-- What `echo` prints before its newline; its options are not printed. -/
def echoed (s : Bytes) : Bytes :=
  match s with
  | 45 :: flags => if flags ≠ [] ∧ flags.all (fun b => b = 110 ∨ b = 101 ∨ b = 69) then [] else s
  | _ => s

/-- `cut -d= -f2-`: a line without the delimiter is printed whole. -/
def afterEquals (line : Bytes) : Bytes :=
  match cut [61] line with
  | some (_, rest) => rest
  | none => line

/-- The words of a line, split as `read -a` does. -/
def words (line : Bytes) : List Bytes := (line.splitOnP isBlank).filter (· ≠ [])

/-- Dropping NUL bytes where there are none. -/
theorem filter_nul_eq_self {s : Bytes} (nulFree : 0 ∉ s) : s.filter (· ≠ 0) = s := by
  refine List.filter_eq_self.mpr fun b mem => ?_
  exact decide_eq_true fun zero => nulFree (zero ▸ mem)

theorem solid_of_hexVal {b : UInt8} (h : (hexVal b).isSome = true) :
    isBlank b = false ∧ b ≠ 10 ∧ b ≠ 0 := by
  have solid : b ≠ 32 ∧ b ≠ 9 ∧ b ≠ 10 ∧ b ≠ 0 := by
    refine ⟨?_, ?_, ?_, ?_⟩ <;> (rintro rfl; exact absurd h (by decide))
  exact ⟨decide_eq_false (by tauto), solid.2.2⟩

theorem hexVal_of_isHex {n : Nat} {digest : Bytes} (hex : isHex n digest = true) {b : UInt8}
    (mem : b ∈ digest) : (hexVal b).isSome = true :=
  List.all_eq_true.mp (Bool.and_eq_true _ _ ▸ hex : _ ∧ _).2 b mem

/-- A text without blanks is the first field of what continues it with one. -/
theorem firstField_append {word rest : Bytes} (nonempty : word ≠ [])
    (solid : ∀ b ∈ word, isBlank b = false ∧ b ≠ 10 ∧ b ≠ 0) :
    firstField (word ++ 32 :: rest) = word := by
  have line : ∀ b ∈ word, decide (b ≠ 10 ∧ b ≠ 0) = true := by
    intro b mem
    exact decide_eq_true (solid b mem).2
  have field : ∀ b ∈ word, (!isBlank b) = true := by
    intro b mem
    rw [(solid b mem).1]
    rfl
  have noLeading : ∀ s, (word ++ s).dropWhile isBlank = word ++ s := by
    intro s
    cases word with
    | nil => exact absurd rfl nonempty
    | cons b more =>
        rw [List.cons_append, List.dropWhile_cons_of_neg]
        simp [(solid b List.mem_cons_self).1]
  rw [firstField, firstLine, List.takeWhile_append_of_pos line, noLeading,
    List.takeWhile_append_of_pos field, List.takeWhile_cons_of_pos (by decide),
    List.takeWhile_cons_of_neg (by decide), List.append_nil]

/-- The digest is the first field of its checksum line. -/
theorem firstField_checksumLine {n : Nat} {digest : Bytes} (hex : isHex (n + 1) digest = true)
    (filename : Bytes) : firstField (checksumLine digest filename) = digest := by
  have nonempty : digest ≠ [] := by
    rintro rfl
    simp [isHex] at hex
  have shape : checksumLine digest filename = digest ++ 32 :: (32 :: (filename ++ [10])) := by
    simp [checksumLine, ascii]
  rw [shape]
  exact firstField_append nonempty fun b mem => solid_of_hexVal (hexVal_of_isHex hex mem)

end ShellText
