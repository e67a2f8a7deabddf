import Mathlib.Data.List.Infix

/-!
Byte strings and the two ways a text protocol takes them apart.

`cut` is a search followed by the two substrings around the match: the bytes
before the first occurrence of a separator and the bytes after it. For a
one-byte separator and for CRLF the first occurrence has an exact
characterisation (`cut_byte_iff`, `cut_crlf_iff`), so later proofs never look
inside the search. `crlfLines` is the line view of a text and `readHead` the
reader of a message head: every line up to the first empty one, and what
follows it.
-/

namespace ByteText

abbrev Bytes := List UInt8

/-- The bytes of an ASCII literal. -/
def ascii (s : String) : Bytes := s.toList.map fun c => c.toNat.toUInt8

theorem ascii_append (s t : String) : ascii (s ++ t) = ascii s ++ ascii t := by
  simp [ascii]

def crlf : Bytes := [13, 10]

/-- The value of a hexadecimal digit, in either case. -/
def hexVal (h : UInt8) : Option Nat :=
  if 48 ≤ h ∧ h ≤ 57 then some (h.toNat - 48)
  else if 97 ≤ h ∧ h ≤ 102 then some (h.toNat - 97 + 10)
  else if 65 ≤ h ∧ h ≤ 70 then some (h.toNat - 65 + 10)
  else none

/-- The lower-case hexadecimal digit of a value below 16. -/
def hexDigit (n : Nat) : UInt8 := if n < 10 then (48 + n).toUInt8 else (87 + n).toUInt8

/-- The last `k` hexadecimal digits of `n`, leading zeros included. -/
def hexPad : Nat → Nat → Bytes
  | 0, _ => []
  | k + 1, n => hexPad k (n / 16) ++ [hexDigit (n % 16)]

/-- The control bytes: everything below the space, and DEL. -/
def isControl (b : UInt8) : Bool := decide (b < 32 ∨ b = 127)

/-- A text that keeps to one line and cannot steer a terminal or a parser. -/
def NoControl (s : Bytes) : Prop := ∀ b ∈ s, isControl b = false

theorem noControl_ascii {s : String} (h : (ascii s).all (fun b => !isControl b) = true) :
    NoControl (ascii s) := by
  intro b mem
  simpa using List.all_eq_true.mp h b mem

theorem NoControl.append {s t : Bytes} (hs : NoControl s) (ht : NoControl t) :
    NoControl (s ++ t) := by
  intro b hb
  rcases List.mem_append.mp hb with left | right
  · exact hs b left
  · exact ht b right

theorem NoControl.of_append_left {s t : Bytes} (h : NoControl (s ++ t)) : NoControl s :=
  fun b mem => h b (List.mem_append_left t mem)

theorem NoControl.of_append_right {s t : Bytes} (h : NoControl (s ++ t)) : NoControl t :=
  fun b mem => h b (List.mem_append_right s mem)

theorem NoControl.no_crlf {s : Bytes} (h : NoControl s) : ¬ crlf <:+: s := by
  intro inside
  have := h 13 (inside.subset (by simp [crlf]))
  exact absurd this (by decide)

/-- The bytes before the first occurrence of `sep` and the bytes after it. -/
def cut (sep : Bytes) : Bytes → Option (Bytes × Bytes)
  | [] => if sep = [] then some ([], []) else none
  | b :: bs =>
      if sep.isPrefixOf (b :: bs) then some ([], (b :: bs).drop sep.length)
      else (cut sep bs).map fun out => (b :: out.1, out.2)

/-! ### The first occurrence of a separator -/

theorem cut_eq_append {sep s a z : Bytes} (h : cut sep s = some (a, z)) :
    s = a ++ sep ++ z := by
  induction s generalizing a with
  | nil =>
      simp only [cut] at h
      split at h
      · rename_i empty
        cases h
        simp [empty]
      · cases h
  | cons b bs ih =>
      simp only [cut] at h
      split at h
      · rename_i starts
        cases h
        obtain ⟨tail, eq⟩ := List.isPrefixOf_iff_prefix.mp starts
        simp [← eq]
      · obtain ⟨⟨a', z'⟩, found, eq⟩ := Option.map_eq_some_iff.mp h
        cases eq
        simp [ih found]

/-- The search fails exactly when the separator does not occur. -/
theorem cut_eq_none_iff {sep s : Bytes} : cut sep s = none ↔ ¬ sep <:+: s := by
  induction s with
  | nil =>
      by_cases empty : sep = []
      · simp [cut, empty]
      · simp [cut, empty, List.infix_nil]
  | cons b bs ih =>
      simp only [cut]
      by_cases starts : sep.isPrefixOf (b :: bs) = true
      · have inside : sep <:+: b :: bs := (List.isPrefixOf_iff_prefix.mp starts).isInfix
        simp [starts, inside]
      · have noPrefix : ¬ sep <+: b :: bs := fun h => starts (List.isPrefixOf_iff_prefix.mpr h)
        rw [if_neg starts, Option.map_eq_none_iff, ih, List.infix_cons_iff]
        exact ⟨fun h => not_or.mpr ⟨noPrefix, h⟩, fun h => (not_or.mp h).2⟩

theorem cut_isSome_iff {sep s : Bytes} : (cut sep s).isSome = true ↔ sep <:+: s := by
  rw [← not_iff_not, Bool.not_eq_true, Option.isSome_eq_false_iff, Option.isNone_iff_eq_none,
    cut_eq_none_iff]

/-- No occurrence starts before the one `cut` finds. -/
theorem cut_minimal {sep s a z p q : Bytes} (h : cut sep s = some (a, z))
    (eq : s = p ++ sep ++ q) : a.length ≤ p.length := by
  induction s generalizing a p with
  | nil =>
      simp only [cut] at h
      split at h
      · cases h
        simp
      · cases h
  | cons b bs ih =>
      simp only [cut] at h
      split at h
      · cases h
        simp
      · rename_i noStart
        obtain ⟨⟨a', z'⟩, found, eq'⟩ := Option.map_eq_some_iff.mp h
        cases eq'
        cases p with
        | nil =>
            have starts : sep <+: b :: bs := ⟨q, by simpa using eq.symm⟩
            exact absurd (List.isPrefixOf_iff_prefix.mpr starts) noStart
        | cons c cs =>
            simp only [List.cons_append, List.cons.injEq] at eq
            have := ih found eq.2
            simpa using this

/-- A prefix of a text holds the separator exactly when it reaches the end of
its first occurrence. -/
theorem cut_prefix_isSome_iff {sep p q a z : Bytes} (h : cut sep (p ++ q) = some (a, z)) :
    (cut sep p).isSome = true ↔ a.length + sep.length ≤ p.length := by
  have whole := cut_eq_append h
  constructor
  · intro found
    obtain ⟨l, r, eq⟩ := cut_isSome_iff.mp found
    have first := cut_minimal h (p := l) (q := r ++ q) (by simp [← eq])
    rw [← eq]
    simp only [List.length_append]
    omega
  · intro long
    rw [cut_isSome_iff]
    have pre : a ++ sep <+: p := by
      refine @List.prefix_of_prefix_length_le _ _ _ (p ++ q) ?_ (List.prefix_append p q) (by simpa)
      exact ⟨z, whole.symm⟩
    exact (List.suffix_append a sep).isInfix.trans pre.isInfix

/-- A text without the first byte of the separator ends where it stands. -/
theorem cut_append {c : UInt8} {sep a : Bytes} (fresh : c ∉ a) (z : Bytes) :
    cut (c :: sep) (a ++ (c :: sep ++ z)) = some (a, z) := by
  induction a with
  | nil => simp [cut, List.isPrefixOf_iff_prefix]
  | cons b bs ih =>
      have differs : ¬ c = b := fun h => fresh (by simp [h])
      have rest := ih fun h => fresh (List.mem_cons_of_mem _ h)
      simp only [List.cons_append] at rest
      simp [cut, List.isPrefixOf, differs, rest]

theorem cut_byte_append {c : UInt8} {a : Bytes} (fresh : c ∉ a) (z : Bytes) :
    cut [c] (a ++ c :: z) = some (a, z) := cut_append fresh z

/-- One-byte separators: the first occurrence leaves none before it. -/
theorem cut_byte_iff {c : UInt8} {s a z : Bytes} :
    cut [c] s = some (a, z) ↔ s = a ++ c :: z ∧ c ∉ a := by
  constructor
  · intro h
    refine ⟨by simpa using cut_eq_append h, ?_⟩
    induction s generalizing a with
    | nil => simp [cut] at h
    | cons b bs ih =>
        simp only [cut] at h
        split at h
        · cases h
          simp
        · rename_i differs
          obtain ⟨⟨a', z'⟩, found, eq⟩ := Option.map_eq_some_iff.mp h
          cases eq
          have : ¬ c = b := by simpa [List.isPrefixOf] using differs
          simp only [List.mem_cons, not_or]
          exact ⟨this, ih found⟩
  · rintro ⟨rfl, fresh⟩
    exact cut_byte_append fresh z

/-- Split at the first `c`; a text without one is all front and no rest. -/
theorem cut_byte_getD (c : UInt8) (s : Bytes) :
    (cut [c] s).getD (s, []) = (s.takeWhile (· ≠ c), (s.dropWhile (· ≠ c)).drop 1) := by
  induction s with
  | nil => simp [cut]
  | cons b bs ih =>
      by_cases here : b = c
      · simp [cut, List.isPrefixOf, here]
      · have differs : ¬ c = b := fun h => here h.symm
        simp only [Prod.ext_iff] at ih
        cases found : cut [c] bs with
        | none => simpa [cut, List.isPrefixOf, here, differs, found] using ih
        | some out => simpa [cut, List.isPrefixOf, here, differs, found] using ih

/-- No occurrence of the separator starts before the one written at `a`. -/
theorem cut_of_fresh {sep a : Bytes} (nonempty : sep ≠ []) (fresh : ¬ sep <:+: a ++ sep.dropLast)
    (z : Bytes) : cut sep (a ++ sep ++ z) = some (a, z) := by
  induction a with
  | nil =>
      obtain ⟨c, rest, rfl⟩ := List.exists_cons_of_ne_nil nonempty
      have starts : (c :: rest).isPrefixOf (c :: (rest ++ z)) = true :=
        List.isPrefixOf_iff_prefix.mpr ⟨z, rfl⟩
      simp only [List.nil_append, List.cons_append, cut, if_pos starts]
      simp
  | cons b bs ih =>
      have freshTail : ¬ sep <:+: bs ++ sep.dropLast := by
        intro inside
        exact fresh (inside.trans (List.suffix_cons b _).isInfix)
      -- An occurrence at `b` would end before the last byte of the separator.
      have noStart : ¬ sep.isPrefixOf (b :: (bs ++ sep ++ z)) = true := by
        intro starts
        have whole : b :: (bs ++ sep.dropLast) <+: b :: (bs ++ sep ++ z) := by
          refine List.cons_prefix_cons.mpr ⟨rfl, ?_⟩
          rw [List.append_assoc]
          refine (List.prefix_append_right_inj bs).mpr ?_
          exact (List.dropLast_prefix sep).trans (List.prefix_append sep z)
        have long : sep.length ≤ (b :: (bs ++ sep.dropLast)).length := by
          simp only [List.length_cons, List.length_append, List.length_dropLast]
          omega
        have early := List.prefix_of_prefix_length_le (List.isPrefixOf_iff_prefix.mp starts) whole long
        exact fresh early.isInfix
      simp only [List.cons_append, cut]
      rw [if_neg noStart, ih freshTail]
      rfl

theorem cut_crlf_append {a : Bytes} (fresh : ¬ crlf <:+: a) (z : Bytes) :
    cut crlf (a ++ crlf ++ z) = some (a, z) := by
  refine cut_of_fresh (by decide) ?_ z
  intro inside
  rcases List.infix_concat_iff.mp inside with ⟨front, eq⟩ | before
  · have last := congrArg List.getLast? eq
    simp [crlf] at last
  · exact fresh before

/-- CRLF does not overlap itself, so its first occurrence leaves none before
it and every line ends where the search says. -/
theorem cut_crlf_iff {s a z : Bytes} :
    cut crlf s = some (a, z) ↔ s = a ++ crlf ++ z ∧ ¬ crlf <:+: a := by
  constructor
  · intro h
    refine ⟨cut_eq_append h, ?_⟩
    induction s generalizing a with
    | nil => simp [cut, crlf] at h
    | cons b bs ih =>
        simp only [cut] at h
        split at h
        · cases h
          simp [crlf, List.infix_nil]
        · rename_i noStart
          obtain ⟨⟨a', z'⟩, found, eq⟩ := Option.map_eq_some_iff.mp h
          cases eq
          rw [List.infix_cons_iff]
          refine not_or.mpr ⟨fun starts => noStart ?_, ih found⟩
          rw [List.isPrefixOf_iff_prefix, cut_eq_append found]
          exact starts.trans ⟨crlf ++ z', by simp⟩
  · rintro ⟨rfl, fresh⟩
    exact cut_crlf_append fresh z

/-- CR-free text in front moves the first CRLF and nothing else. -/
theorem cut_crlf_prepend {a : Bytes} (fresh : 13 ∉ a) (s : Bytes) :
    cut crlf (a ++ s) = (cut crlf s).map fun out => (a ++ out.1, out.2) := by
  induction a with
  | nil => simp
  | cons b bs ih =>
      have differs : ¬ (13 : UInt8) = b := fun h => fresh (by simp [h])
      have noStart : ¬ crlf.isPrefixOf (b :: (bs ++ s)) = true := by
        simp [crlf, List.isPrefixOf, differs]
      rw [List.cons_append, cut, if_neg noStart, ih fun h => fresh (List.mem_cons_of_mem _ h),
        Option.map_map]
      rfl

theorem cut_length_lt {sep s a z : Bytes} (nonempty : sep ≠ []) (h : cut sep s = some (a, z)) :
    z.length < s.length := by
  have := List.length_pos_iff.mpr nonempty
  rw [cut_eq_append h]
  simp only [List.length_append]
  omega

/-! ### Lines -/

/-- The CRLF-separated lines of a text; the last one is what follows the last
CRLF. -/
def crlfLines : Bytes → List Bytes
  | [] => [[]]
  | b :: bs =>
      match b, bs with
      | 13, 10 :: rest => [] :: crlfLines rest
      | b, bs => (crlfLines bs).modifyHead (b :: ·)

theorem crlfLines_of_no_crlf {s : Bytes} (fresh : ¬ crlf <:+: s) : crlfLines s = [s] := by
  induction s with
  | nil => rfl
  | cons b bs ih =>
      have freshTail : ¬ crlf <:+: bs := fun h => fresh (h.trans (List.suffix_cons b bs).isInfix)
      unfold crlfLines
      split
      · rename_i rest
        exact absurd ⟨[], rest, rfl⟩ fresh
      · rw [ih freshTail]
        rfl

theorem crlfLines_append {a : Bytes} (fresh : ¬ crlf <:+: a) (z : Bytes) :
    crlfLines (a ++ crlf ++ z) = a :: crlfLines z := by
  induction a with
  | nil => rfl
  | cons b bs ih =>
      have freshTail : ¬ crlf <:+: bs := fun h => fresh (h.trans (List.suffix_cons b bs).isInfix)
      have rest := ih freshTail
      rw [List.cons_append, List.cons_append]
      conv_lhs => unfold crlfLines
      split
      · rename_i tail eq
        cases bs with
        | nil => simp [crlf] at eq
        | cons c cs =>
            simp only [List.cons_append, List.cons.injEq] at eq
            exact absurd ⟨[], cs, by rw [eq.1]; rfl⟩ fresh
      · rw [rest]
        rfl

/-- The lines of a text, read off the search for CRLF. -/
theorem crlfLines_eq_cut (s : Bytes) :
    crlfLines s = match cut crlf s with
      | none => [s]
      | some (a, z) => a :: crlfLines z := by
  cases found : cut crlf s with
  | none => exact crlfLines_of_no_crlf (cut_eq_none_iff.mp found)
  | some out =>
      obtain ⟨eq, fresh⟩ := cut_crlf_iff.mp (show cut crlf s = some (out.1, out.2) from found)
      rw [eq, crlfLines_append fresh]

theorem crlfLines_ne_nil (s : Bytes) : crlfLines s ≠ [] := by
  rw [crlfLines_eq_cut]
  split <;> simp

/-- CRLF does not overlap itself, so wherever it stands it separates lines. -/
theorem crlfLines_append_crlf (p q : Bytes) :
    crlfLines (p ++ crlf ++ q) = crlfLines p ++ crlfLines q := by
  cases found : cut crlf p with
  | none =>
      have fresh := cut_eq_none_iff.mp found
      rw [crlfLines_append fresh, crlfLines_of_no_crlf fresh, List.singleton_append]
  | some out =>
      obtain ⟨eq, fresh⟩ := cut_crlf_iff.mp (show cut crlf p = some (out.1, out.2) from found)
      have tail := crlfLines_append_crlf out.2 q
      rw [eq, crlfLines_append fresh, List.cons_append, ← tail]
      simpa using crlfLines_append fresh (out.2 ++ crlf ++ q)
termination_by p.length
decreasing_by exact cut_length_lt (by simp [crlf]) found

/-- The lines up to the first empty line, and the bytes after it. The fuel
bounds the number of lines; `readHead` gives enough. -/
def readLines : Nat → Bytes → Option (List Bytes × Bytes)
  | 0, _ => none
  | fuel + 1, s =>
      match cut crlf s with
      | none => none
      | some ([], rest) => some ([], rest)
      | some (line, rest) => (readLines fuel rest).map fun out => (line :: out.1, out.2)

def readHead (s : Bytes) : Option (List Bytes × Bytes) := readLines (s.length + 1) s

/-- The text of a head: each line ended by CRLF, then an empty line. -/
def headText (lines : List Bytes) : Bytes := lines.flatMap (· ++ crlf) ++ crlf

theorem readLines_headText {lines : List Bytes} (full : ∀ line ∈ lines, line ≠ [])
    (fresh : ∀ line ∈ lines, ¬ crlf <:+: line) (body : Bytes) {fuel : Nat}
    (enough : lines.length < fuel) :
    readLines fuel (headText lines ++ body) = some (lines, body) := by
  induction lines generalizing fuel with
  | nil =>
      cases fuel with
      | zero => simp at enough
      | succ fuel =>
          have found : cut crlf (headText [] ++ body) = some ([], body) :=
            cut_crlf_append (a := []) (by simp [crlf]) body
          simp [readLines, found]
  | cons line rest ih =>
      cases fuel with
      | zero => simp at enough
      | succ fuel =>
          have found : cut crlf (headText (line :: rest) ++ body) =
              some (line, headText rest ++ body) := by
            have := cut_crlf_append (fresh line List.mem_cons_self) (headText rest ++ body)
            simpa [headText] using this
          have left : rest.length < fuel := by simpa using enough
          have tail := ih (fun l h => full l (List.mem_cons_of_mem _ h))
            (fun l h => fresh l (List.mem_cons_of_mem _ h)) left
          have nonempty := full line List.mem_cons_self
          cases line with
          | nil => exact absurd rfl nonempty
          | cons b bs => simp [readLines, found, tail]

/-- A head made of non-empty, CRLF-free lines reads back as those lines, and
the bytes after it as the body, whatever they are. -/
theorem readHead_headText {lines : List Bytes} (full : ∀ line ∈ lines, line ≠ [])
    (fresh : ∀ line ∈ lines, ¬ crlf <:+: line) (body : Bytes) :
    readHead (headText lines ++ body) = some (lines, body) := by
  refine readLines_headText full fresh body ?_
  have bound : lines.length ≤ (lines.flatMap (· ++ crlf)).length := by
    induction lines with
    | nil => simp
    | cons line rest ih =>
        have tail := ih (fun l h => full l (List.mem_cons_of_mem _ h))
          fun l h => fresh l (List.mem_cons_of_mem _ h)
        simp only [List.flatMap_cons, List.length_append, List.length_cons, crlf] at tail ⊢
        omega
  simp only [headText, List.length_append]
  omega

end ByteText
