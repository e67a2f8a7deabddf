import Nshgeoip.Lib.Binary64
import Nshgeoip.Lib.Lines

/-!
The Prometheus text exposition format at byte level.

`parse` reads a document line by line: `HELP` and `TYPE` lines, other comments, blank
lines and samples, the tokens of a line any number of blanks apart. A label value
denotes a byte string; a backslash in it stands before a backslash, a double quote or
the letter of a newline, and before nothing else. `LineText` is the grammar of the
lines a writer produces, one constructor per kind of line, and `parse_of_isDocument`
the round trip: a document of such lines reads back as the lines it was written for.

Numbers are decimal literals and the names of the infinities and of NaN in any case,
which is the part of the format's number syntax that programs print.
-/

namespace PromText

open ByteText

inductive Number where
  | num (q : ℚ)
  | inf (neg : Bool)
  | nan
  deriving DecidableEq

inductive MetricKind where
  | counter
  | gauge
  | histogram
  | summary
  | untyped
  deriving DecidableEq

structure Sample where
  name : Bytes
  labels : List (Bytes × Bytes)
  value : Number
  timestamp : Option ℤ
  deriving DecidableEq

inductive Line where
  | help (name text : Bytes)
  | type (name : Bytes) (kind : MetricKind)
  | comment
  | blank
  | sample (s : Sample)
  deriving DecidableEq

/-! ### Tokens -/

def isBlank (b : UInt8) : Bool := decide (b = 32 ∨ b = 9)

def skipBlanks (s : Bytes) : Bytes := s.dropWhile isBlank

/-- The next word of a line, and what follows it. -/
def readWord (s : Bytes) : Bytes × Bytes :=
  ((skipBlanks s).takeWhile (!isBlank ·), (skipBlanks s).dropWhile (!isBlank ·))

/-- The words of a line, blanks between them dropped. -/
def words (s : Bytes) : List Bytes := (s.splitOnP isBlank).filter (· ≠ [])

/-- The byte `c`, blanks in front of it skipped. -/
def expect (c : UInt8) (s : Bytes) : Option Bytes :=
  match skipBlanks s with
  | [] => none
  | b :: rest => if b = c then some rest else none

/-- What a label name starts with; digits may follow. -/
def isLabelStart (b : UInt8) : Bool := decide (65 ≤ b ∧ b ≤ 90 ∨ 97 ≤ b ∧ b ≤ 122 ∨ b = 95)

def isMetricStart (b : UInt8) : Bool := isLabelStart b || b == 58

def isNameByte (start : UInt8 → Bool) (b : UInt8) : Bool := start b || isDigit b

def isName (start : UInt8 → Bool) : Bytes → Bool
  | [] => false
  | b :: rest => start b && rest.all (isNameByte start)

def readName (start : UInt8 → Bool) (s : Bytes) : Option (Bytes × Bytes) :=
  if isName start (s.takeWhile (isNameByte start)) then
    some (s.takeWhile (isNameByte start), s.dropWhile (isNameByte start))
  else none

/-! ### Numbers -/

def lowerCase (b : UInt8) : UInt8 := if 65 ≤ b ∧ b ≤ 90 then b + 32 else b

/-- The numbers that are written as words. -/
def numberWords : List (Bytes × Number) :=
  [(ascii "nan", .nan),
    (ascii "inf", .inf false), (ascii "+inf", .inf false), (ascii "-inf", .inf true),
    (ascii "infinity", .inf false), (ascii "+infinity", .inf false), (ascii "-infinity", .inf true)]

def readNumber (w : Bytes) : Option Number :=
  match Literal.read w with
  | some (l, []) => some (.num l.value)
  | _ => numberWords.lookup (w.map lowerCase)

/-- A time stamp: an integer number of milliseconds. -/
def readTimestamp (w : Bytes) : Option ℤ :=
  match Literal.read w with
  | some (⟨neg, int, none, none⟩, []) => some (if neg then -(digitsVal int : ℤ) else digitsVal int)
  | _ => none

/-! ### Lines -/

/-- The byte an escape in a label value stands for. -/
def escapeOf (c : UInt8) : Option UInt8 :=
  if c = 92 then some 92 else if c = 34 then some 34 else if c = 110 then some 10 else none

/-- The inside of a label value, up to its closing quote. -/
def readQuoted : Bytes → Option (Bytes × Bytes)
  | [] => none
  | b :: s =>
      if b = 34 then some ([], s)
      else if b = 92 then
        match s with
        | [] => none
        | c :: s => (escapeOf c).bind fun e => (readQuoted s).map fun out => (e :: out.1, out.2)
      else (readQuoted s).map fun out => (b :: out.1, out.2)

def readLabel (s : Bytes) : Option ((Bytes × Bytes) × Bytes) :=
  (readName isLabelStart (skipBlanks s)).bind fun name =>
    (expect 61 name.2).bind fun s =>
      (expect 34 s).bind fun s =>
        (readQuoted s).map fun value => ((name.1, value.1), value.2)

/-- The labels up to their closing brace; a comma may stand behind the last one. -/
def readLabels : Nat → Bytes → Option (List (Bytes × Bytes) × Bytes)
  | 0, _ => none
  | fuel + 1, s =>
      match expect 125 s with
      | some rest => some ([], rest)
      | none =>
          (readLabel s).bind fun label =>
            match expect 44 label.2 with
            | some s => (readLabels fuel s).map fun out => (label.1 :: out.1, out.2)
            | none => (expect 125 label.2).map fun rest => ([label.1], rest)

/-- The labels of a sample, which may have none. -/
def readLabelSet (s : Bytes) : Option (List (Bytes × Bytes) × Bytes) :=
  match expect 123 s with
  | some rest => readLabels (rest.length + 1) rest
  | none => some ([], s)

def readSample (s : Bytes) : Option Sample :=
  (readName isMetricStart s).bind fun name =>
    (readLabelSet name.2).bind fun labels =>
      match words labels.2 with
      | [value] => (readNumber value).map fun v => ⟨name.1, labels.1, v, none⟩
      | [value, stamp] =>
          (readNumber value).bind fun v =>
            (readTimestamp stamp).map fun t => ⟨name.1, labels.1, v, some t⟩
      | _ => none

def MetricKind.word : MetricKind → String
  | .counter => "counter"
  | .gauge => "gauge"
  | .histogram => "histogram"
  | .summary => "summary"
  | .untyped => "untyped"

def MetricKind.text (kind : MetricKind) : Bytes := ascii kind.word

def readKind (w : Bytes) : Option MetricKind :=
  [MetricKind.counter, .gauge, .histogram, .summary, .untyped].find? (·.text = w)

/-- The byte an escape in a help text stands for. -/
def helpEscapeOf (c : UInt8) : Option UInt8 :=
  if c = 92 then some 92 else if c = 110 then some 10 else none

def readHelp : Bytes → Option Bytes
  | [] => some []
  | b :: s =>
      if b = 92 then
        match s with
        | [] => none
        | c :: s => (helpEscapeOf c).bind fun e => (readHelp s).map (e :: ·)
      else (readHelp s).map (b :: ·)

/-- A line behind its `#`. -/
def readComment (s : Bytes) : Option Line :=
  let keyword := readWord s
  let name := readWord keyword.2
  if keyword.1 = ascii "HELP" then
    if isName isMetricStart name.1 then (readHelp (skipBlanks name.2)).map (.help name.1) else none
  else if keyword.1 = ascii "TYPE" then
    match words name.2 with
    | [kind] =>
        if isName isMetricStart name.1 then (readKind kind).map (.type name.1) else none
    | _ => none
  else some .comment

def readLine (line : Bytes) : Option Line :=
  match skipBlanks line with
  | [] => some .blank
  | b :: s => if b = 35 then readComment s else (readSample (b :: s)).map .sample

/-- A document: every line ends with a newline, the last one too. -/
def parse (text : Bytes) : Option (List Line) :=
  if (text.splitOn 10).getLast? = some [] then ((text.splitOn 10).dropLast).mapM readLine else none

/-! ### What a writer produces -/

/-- `Quoted d s`: the inside `s` of a label value denotes the bytes `d`. -/
inductive Quoted : Bytes → Bytes → Prop where
  | nil : Quoted [] []
  | plain {b : UInt8} {d s : Bytes} :
      b ≠ 92 → b ≠ 34 → b ≠ 10 → Quoted d s → Quoted (b :: d) (b :: s)
  | escape {c b : UInt8} {d s : Bytes} :
      escapeOf c = some b → Quoted d s → Quoted (b :: d) (92 :: c :: s)

inductive NumberText : Number → Bytes → Prop where
  | num {l : Literal} : l.WF → NumberText (.num l.value) l.text
  | inf (neg : Bool) : NumberText (.inf neg) (signText neg ++ ascii "inf")

/-- The labels with their closing brace. -/
inductive LabelsText : List (Bytes × Bytes) → Bytes → Prop where
  | last {name value s : Bytes} :
      isName isLabelStart name = true → Quoted value s →
        LabelsText [(name, value)] (name ++ 61 :: 34 :: (s ++ [34, 125]))
  | more {name value s t : Bytes} {labels : List (Bytes × Bytes)} :
      isName isLabelStart name = true → Quoted value s → LabelsText labels t →
        LabelsText ((name, value) :: labels) (name ++ 61 :: 34 :: (s ++ 34 :: 44 :: t))

/-- A help text that needs no escape and starts with a visible byte. -/
def isPlainHelp (text : Bytes) : Bool :=
  text.all (fun b => b != 92 && b != 10) && text.head?.all (!isBlank ·)

inductive LineText : Line → Bytes → Prop where
  | help {name text : Bytes} :
      isName isMetricStart name = true → isPlainHelp text = true →
        LineText (.help name text) (ascii "# HELP " ++ (name ++ 32 :: text))
  | type {name : Bytes} (kind : MetricKind) :
      isName isMetricStart name = true →
        LineText (.type name kind) (ascii "# TYPE " ++ (name ++ 32 :: kind.text))
  | bare {name t : Bytes} {v : Number} :
      isName isMetricStart name = true → NumberText v t →
        LineText (.sample ⟨name, [], v, none⟩) (name ++ 32 :: t)
  | labelled {name s t : Bytes} {labels : List (Bytes × Bytes)} {v : Number} :
      isName isMetricStart name = true → LabelsText labels s → NumberText v t →
        LineText (.sample ⟨name, labels, v, none⟩) (name ++ 123 :: (s ++ 32 :: t))

/-- A document of such lines. -/
def IsDocument (lines : List Line) (text : Bytes) : Prop :=
  ∃ texts, List.Forall₂ LineText lines texts ∧ text = terminated texts

theorem IsDocument.nil : IsDocument [] [] := ⟨[], .nil, rfl⟩

theorem IsDocument.cons {line : Line} {t : Bytes} (first : LineText line t) {lines : List Line}
    {rest : Bytes} (more : IsDocument lines rest) :
    IsDocument (line :: lines) (t ++ 10 :: rest) := by
  obtain ⟨texts, written, rfl⟩ := more
  exact ⟨t :: texts, .cons first written, (terminated_cons t texts).symm⟩

/-- The number a stream prints for `d` with `p` decimal places. -/
def shown (p : Nat) (d : Binary64) : Number :=
  if d.isFinite then .num (Binary64.roundPlaces p d.value)
  else if d.frac = 0 then .inf d.sign else .nan

theorem NumberText.formatF {d : Binary64} (real : d.isNan = false) (p : Nat) :
    NumberText (shown p d) (d.formatF p) := by
  unfold shown Binary64.formatF Binary64.format
  by_cases finite : d.isFinite = true
  · rw [if_pos finite, if_pos finite, ← Binary64.literalF_value]
    exact .num (Binary64.literalF_wf p d)
  · have ones : d.expo = 2047 := by simpa [Binary64.isFinite] using finite
    have infinite : d.frac = 0 := by simpa [Binary64.isNan, ones] using real
    rw [if_neg finite, if_neg finite, if_pos infinite, if_pos infinite]
    exact .inf d.sign

theorem NumberText.dec (n : Nat) : NumberText (.num n) (dec n) := by
  have written := NumberText.num (decLiteral_wf n)
  rwa [decLiteral_text, decLiteral_value] at written

/-! ### Reading it back -/

theorem isBlank_of_isNameByte {b : UInt8} (h : isNameByte isMetricStart b = true) :
    isBlank b = false := by
  apply decide_eq_false
  rintro (rfl | rfl)
  · exact absurd h (by decide)
  · exact absurd h (by decide)

/-- A name has a first byte, and every byte of it is one of a name. -/
theorem isName_iff {start : UInt8 → Bool} {name : Bytes} :
    isName start name = true ↔
      (∃ b rest, name = b :: rest ∧ start b = true) ∧ ∀ b ∈ name, isNameByte start b = true := by
  cases name with
  | nil => simp [isName]
  | cons b rest =>
      simp only [isName, Bool.and_eq_true, List.all_eq_true, List.forall_mem_cons]
      constructor
      · rintro ⟨first, others⟩
        exact ⟨⟨b, rest, rfl, first⟩, by simp [isNameByte, first], others⟩
      · rintro ⟨⟨_, _, same, first⟩, -, others⟩
        obtain ⟨rfl, rfl⟩ := List.cons.inj same
        exact ⟨first, others⟩

theorem readName_append {start : UInt8 → Bool} {name rest : Bytes}
    (h : isName start name = true) (stop : ∀ b ∈ rest.head?, isNameByte start b = false) :
    readName start (name ++ rest) = some (name, rest) := by
  obtain ⟨taken, left⟩ := takeWhile_run (isName_iff.mp h).2 stop
  rw [readName, taken, left, if_pos h]

theorem skipBlanks_solid {b : UInt8} (solid : isBlank b = false) (s : Bytes) :
    skipBlanks (b :: s) = b :: s :=
  List.dropWhile_cons_of_neg (by simp [solid])

theorem readQuoted_of_quoted {d s : Bytes} (h : Quoted d s) (rest : Bytes) :
    readQuoted (s ++ 34 :: rest) = some (d, rest) := by
  induction h with
  | nil =>
      rw [List.nil_append, readQuoted.eq_def]
      rfl
  | plain solid quote _ _ ih =>
      rw [List.cons_append, readQuoted.eq_def]
      simp [solid, quote, ih]
  | escape known _ ih =>
      rw [List.cons_append, List.cons_append, readQuoted.eq_def]
      simp [known, ih]

theorem readLabel_text {name value s : Bytes} (label : isName isLabelStart name = true)
    (quoted : Quoted value s) (rest : Bytes) :
    readLabel (name ++ 61 :: 34 :: (s ++ 34 :: rest)) = some ((name, value), rest) := by
  obtain ⟨⟨b, tail, rfl, first⟩, -⟩ := isName_iff.mp label
  have solid : isBlank b = false :=
    isBlank_of_isNameByte (by simp [isNameByte, isMetricStart, first])
  have named := @readName_append isLabelStart (b :: tail) (61 :: 34 :: (s ++ 34 :: rest)) label
    (by simp [isNameByte, isLabelStart, isDigit])
  rw [readLabel, List.cons_append, skipBlanks_solid solid, ← List.cons_append, named]
  simp [expect, skipBlanks, isBlank, readQuoted_of_quoted quoted]

/-- The first byte of a label name does not close the label set. -/
theorem expect_brace_label {name : Bytes} (label : isName isLabelStart name = true) (s : Bytes) :
    expect 125 (name ++ s) = none := by
  obtain ⟨⟨b, tail, rfl, first⟩, -⟩ := isName_iff.mp label
  have solid : isBlank b = false :=
    isBlank_of_isNameByte (by simp [isNameByte, isMetricStart, first])
  have other : b ≠ 125 := by
    rintro rfl
    exact absurd first (by decide)
  rw [expect, List.cons_append, skipBlanks_solid solid]
  exact if_neg other

theorem readLabels_text {labels : List (Bytes × Bytes)} {s : Bytes} (h : LabelsText labels s)
    (rest : Bytes) {fuel : Nat} (enough : labels.length ≤ fuel) (positive : 0 < fuel) :
    readLabels fuel (s ++ rest) = some (labels, rest) := by
  induction h generalizing fuel with
  | @last name value s label quoted =>
      obtain ⟨fuel, rfl⟩ := Nat.exists_eq_succ_of_ne_zero positive.ne'
      have shape : name ++ 61 :: 34 :: (s ++ [34, 125]) ++ rest =
          name ++ 61 :: 34 :: (s ++ 34 :: 125 :: rest) := by simp
      rw [shape, readLabels, expect_brace_label label, readLabel_text label quoted]
      simp [expect, skipBlanks, isBlank]
  | @more name value s t labels label quoted more ih =>
      obtain ⟨fuel, rfl⟩ := Nat.exists_eq_succ_of_ne_zero positive.ne'
      have shape : name ++ 61 :: 34 :: (s ++ 34 :: 44 :: t) ++ rest =
          name ++ 61 :: 34 :: (s ++ 34 :: 44 :: (t ++ rest)) := by simp
      have room : labels.length ≤ fuel := by simpa using enough
      have nonempty : 0 < labels.length := by cases more <;> simp
      rw [shape, readLabels, expect_brace_label label, readLabel_text label quoted]
      simp [expect, skipBlanks, isBlank, ih room (nonempty.trans_le room)]

/-- Bytes that stand together on a line: a name, a number, a keyword. -/
def Word (w : Bytes) : Prop := w ≠ [] ∧ ∀ b ∈ w, isBlank b = false ∧ b ≠ 10

theorem Word.of_isName {name : Bytes} (h : isName isMetricStart name = true) : Word name := by
  obtain ⟨⟨b, rest, rfl, -⟩, all⟩ := isName_iff.mp h
  refine ⟨List.cons_ne_nil b rest, fun c hc => ⟨isBlank_of_isNameByte (all c hc), ?_⟩⟩
  rintro rfl
  exact absurd (all 10 hc) (by decide)

theorem Word.of_kind (kind : MetricKind) : Word kind.text := by
  cases kind <;> exact .of_isName rfl

theorem NumberText.forall_mem {p : UInt8 → Prop} (digit : ∀ b, isDigit b = true → p b)
    (marks : ∀ b ∈ ([45, 43, 46, 101, 69] : Bytes), p b)
    (letters : ∀ b ∈ ([105, 110, 102] : Bytes), p b) {v : Number} {t : Bytes}
    (h : NumberText v t) : ∀ b ∈ t, p b := by
  cases h with
  | num wf => exact Literal.forall_mem_text digit marks wf
  | inf neg =>
      intro b hb
      rcases List.mem_append.mp hb with sign | letter
      · cases neg with
        | false => cases sign
        | true =>
            obtain rfl : b = 45 := by simpa [signText] using sign
            exact marks 45 (by decide)
      · exact letters b letter

theorem Word.of_numberText {v : Number} {t : Bytes} (h : NumberText v t) : Word t := by
  constructor
  · cases h with
    | @num l wf =>
        intro empty
        have parts : l.int = [] := by
          have := congrArg List.length empty
          simp only [Literal.text, List.length_append, List.length_nil] at this
          exact List.length_eq_zero_iff.mp (by omega)
        exact wf.int.1 parts
    | inf neg => cases neg <;> decide
  · refine h.forall_mem (fun b digit => ?_) (by simp [isBlank]) (by simp [isBlank])
    refine ⟨isBlank_of_isNameByte (by simp [isNameByte, digit]), ?_⟩
    rintro rfl
    exact absurd digit (by decide)

theorem readWord_append {w rest : Bytes} (word : Word w)
    (stop : ∀ b ∈ rest.head?, isBlank b = true) : readWord (32 :: (w ++ rest)) = (w, rest) := by
  obtain ⟨nonempty, solid⟩ := word
  obtain ⟨taken, left⟩ := @takeWhile_run (!isBlank ·) w rest
    (fun b hb => by simp [(solid b hb).1]) (fun b hb => by simp [stop b hb])
  have front : skipBlanks (32 :: (w ++ rest)) = w ++ rest := by
    obtain ⟨b, tail, rfl⟩ := List.exists_cons_of_ne_nil nonempty
    have first := (solid b List.mem_cons_self).1
    exact skipBlanks_solid first (tail ++ rest)
  rw [readWord, front, taken, left]

theorem words_word {w : Bytes} (word : Word w) : words (32 :: w) = [w] := by
  have whole := List.splitOnP_eq_singleton fun b hb => (word.2 b hb).1
  simp [words, List.splitOnP_cons_eq_if_modifyHead, whole, isBlank, word.1]

theorem readNumber_text {v : Number} {t : Bytes} (h : NumberText v t) : readNumber t = some v := by
  cases h with
  | @num l wf =>
      have back := @Literal.read_text l wf [] (by simp [Literal.Follow])
      rw [List.append_nil] at back
      rw [readNumber, back]
  | inf neg => cases neg <;> rfl

theorem readKind_text (kind : MetricKind) : readKind kind.text = some kind := by
  cases kind <;> rfl

theorem isPlainHelp_iff {text : Bytes} :
    isPlainHelp text = true ↔ (∀ b ∈ text, b ≠ 92 ∧ b ≠ 10) ∧ ∀ b ∈ text.head?, isBlank b = false := by
  simp [isPlainHelp, Option.all_eq_true]

theorem readHelp_plain {text : Bytes} (plain : 92 ∉ text) : readHelp text = some text := by
  induction text with
  | nil => rfl
  | cons b text ih =>
      obtain ⟨first, rest⟩ := not_or.mp (mt List.mem_cons.mpr plain)
      rw [readHelp.eq_def]
      simp [Ne.symm first, ih rest]

theorem readComment_help {name text : Bytes} (metric : isName isMetricStart name = true)
    (plain : isPlainHelp text = true) :
    readComment (32 :: (ascii "HELP" ++ 32 :: (name ++ 32 :: text))) = some (.help name text) := by
  have keyword := @readWord_append (ascii "HELP") (32 :: (name ++ 32 :: text))
    (.of_isName rfl) (by simp [isBlank])
  have named := @readWord_append name (32 :: text) (.of_isName metric) (by simp [isBlank])
  obtain ⟨free, visible⟩ := isPlainHelp_iff.mp plain
  have shown : skipBlanks (32 :: text) = text := by
    cases text with
    | nil => rfl
    | cons b text => exact skipBlanks_solid (visible b (by simp)) text
  have read := readHelp_plain fun escape => (free 92 escape).1 rfl
  simp only [readComment, keyword, named, shown, if_pos metric, if_true, read]
  rfl

theorem readComment_type {name : Bytes} (metric : isName isMetricStart name = true)
    (kind : MetricKind) :
    readComment (32 :: (ascii "TYPE" ++ 32 :: (name ++ 32 :: kind.text))) =
      some (.type name kind) := by
  have keyword := @readWord_append (ascii "TYPE") (32 :: (name ++ 32 :: kind.text))
    (.of_isName rfl) (by simp [isBlank])
  have named := @readWord_append name (32 :: kind.text) (.of_isName metric) (by simp [isBlank])
  have other : ascii "TYPE" ≠ ascii "HELP" := by decide
  simp only [readComment, keyword, named, if_neg other, if_true, words_word (.of_kind kind),
    if_pos metric, readKind_text]
  rfl

theorem readSample_bare {name t : Bytes} {v : Number} (metric : isName isMetricStart name = true)
    (number : NumberText v t) :
    readSample (name ++ 32 :: t) = some ⟨name, [], v, none⟩ := by
  have named := @readName_append isMetricStart name (32 :: t) metric
    (by simp [isNameByte, isMetricStart, isLabelStart, isDigit])
  have word := Word.of_numberText number
  have plain : ∀ b ∈ t, b ≠ 123 := by
    refine number.forall_mem (fun b digit => ?_) (by simp) (by simp)
    rintro rfl
    exact absurd digit (by decide)
  have unlabelled : readLabelSet (32 :: t) = some ([], 32 :: t) := by
    obtain ⟨b, tail, rfl⟩ := List.exists_cons_of_ne_nil word.1
    have front : skipBlanks (32 :: b :: tail) = b :: tail :=
      skipBlanks_solid (word.2 b List.mem_cons_self).1 tail
    simp [readLabelSet, expect, front, plain b List.mem_cons_self]
  rw [readSample, named]
  simp [unlabelled, words_word word, readNumber_text number]

theorem LabelsText.length_le {labels : List (Bytes × Bytes)} {s : Bytes} (h : LabelsText labels s) :
    labels.length ≤ s.length := by
  induction h with
  | last _ _ => simp only [List.length_cons, List.length_append, List.length_nil]; omega
  | more _ _ _ ih => simp only [List.length_cons, List.length_append]; omega

theorem readSample_labelled {name s t : Bytes} {labels : List (Bytes × Bytes)} {v : Number}
    (metric : isName isMetricStart name = true) (set : LabelsText labels s)
    (number : NumberText v t) :
    readSample (name ++ 123 :: (s ++ 32 :: t)) = some ⟨name, labels, v, none⟩ := by
  have named := @readName_append isMetricStart name (123 :: (s ++ 32 :: t)) metric
    (by simp [isNameByte, isMetricStart, isLabelStart, isDigit])
  have fuel : labels.length ≤ (s ++ 32 :: t).length + 1 := by
    have := set.length_le
    rw [List.length_append]
    omega
  have labelled : readLabelSet (123 :: (s ++ 32 :: t)) = some (labels, 32 :: t) :=
    readLabels_text set (32 :: t) fuel (Nat.succ_pos _)
  rw [readSample, named]
  simp [labelled, words_word (Word.of_numberText number), readNumber_text number]

/-- **A line reads back as what it was written for.** -/
theorem readLine_text {line : Line} {text : Bytes} (h : LineText line text) :
    readLine text = some line := by
  have sampled : ∀ {name s : Bytes} {sample : Sample}, isName isMetricStart name = true →
      readSample (name ++ s) = some sample → readLine (name ++ s) = some (.sample sample) := by
    intro name s sample metric read
    obtain ⟨⟨b, rest, rfl, first⟩, all⟩ := isName_iff.mp metric
    have solid := isBlank_of_isNameByte (all b List.mem_cons_self)
    have hash : b ≠ 35 := by
      rintro rfl
      exact absurd first (by decide)
    rw [List.cons_append] at read ⊢
    rw [readLine, skipBlanks_solid solid]
    simp [hash, read]
  cases h with
  | help metric plain => exact readComment_help metric plain
  | type kind metric => exact readComment_type metric kind
  | bare metric number => exact sampled metric (readSample_bare metric number)
  | labelled metric set number => exact sampled metric (readSample_labelled metric set number)

theorem Quoted.no_newline {d s : Bytes} (h : Quoted d s) : 10 ∉ s := by
  induction h with
  | nil => exact List.not_mem_nil
  | plain _ _ solid _ ih => simp [Ne.symm solid, ih]
  | @escape c b d s known _ ih =>
      have letter : c ≠ 10 := by
        rintro rfl
        cases known
      simp [Ne.symm letter, ih]

theorem LabelsText.no_newline {labels : List (Bytes × Bytes)} {s : Bytes}
    (h : LabelsText labels s) : 10 ∉ s := by
  have named : ∀ {name : Bytes}, isName isLabelStart name = true → 10 ∉ name := by
    intro name label mem
    exact absurd ((isName_iff.mp label).2 10 mem) (by decide)
  induction h with
  | last label quoted => simp [named label, quoted.no_newline]
  | more label quoted _ ih => simp [named label, quoted.no_newline, ih]

theorem LineText.no_newline {line : Line} {text : Bytes} (h : LineText line text) : 10 ∉ text := by
  have free : ∀ {w : Bytes}, Word w → 10 ∉ w := fun word mem => (word.2 10 mem).2 rfl
  cases h with
  | @help name text metric plain =>
      have newline : 10 ∉ text := fun mem => ((isPlainHelp_iff.mp plain).1 10 mem).2 rfl
      simp [free (.of_isName metric), newline, ascii]
  | type kind metric => simp [free (.of_isName metric), free (.of_kind kind), ascii]
  | bare metric number => simp [free (.of_isName metric), free (.of_numberText number)]
  | labelled metric set number =>
      simp [free (.of_isName metric), set.no_newline, free (.of_numberText number)]

/-- **A document reads back as the lines it was written for**, in their order and with
nothing between them. -/
theorem parse_of_isDocument {lines : List Line} {text : Bytes} (h : IsDocument lines text) :
    parse text = some lines := by
  obtain ⟨texts, written, rfl⟩ := h
  have clean : ∀ t ∈ texts, 10 ∉ t := by
    induction written with
    | nil => simp
    | cons first _ ih => exact List.forall_mem_cons.mpr ⟨first.no_newline, ih⟩
  have back : texts.mapM readLine = some lines := by
    clear clean
    induction written with
    | nil => rfl
    | cons first _ ih => simp [List.mapM_cons, readLine_text first, ih]
  rw [parse, splitOn_terminated clean]
  simpa using back

end PromText
