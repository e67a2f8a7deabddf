import Nshgeoip.Lib.Decimal

/-!
JSON texts at byte level: the grammar of RFC 8259 and a decoder for it.

`Derives` is the grammar, one constructor per production, indexed by the value
the text denotes; strings denote byte strings, so bytes from 0x80 up stand for
themselves and nothing is assumed about their encoding. `decode` is a
recursive-descent decoder. `decode_of_isText` is the completeness theorem: what
the grammar derives, the decoder reads back as the value it was derived for.
So a text the decoder refuses is not in the grammar (`not_wellFormed`), which
is how ill-formed output is recognised.

A `\u` escape denotes the UTF-8 bytes of its code unit. A surrogate pair keeps
its two halves apart; nothing that uses this library writes one.
-/

namespace JsonText

open ByteText

inductive Json where
  | null
  | bool (b : Bool)
  | num (q : ℚ)
  | str (s : Bytes)
  | arr (vs : List Json)
  | obj (ms : List (Bytes × Json))

/-! ### The grammar -/

def isWs (b : UInt8) : Bool := decide (b = 32 ∨ b = 9 ∨ b = 10 ∨ b = 13)

def Ws (w : Bytes) : Prop := ∀ b ∈ w, isWs b = true

/-- The byte a one-letter escape stands for. -/
def escapeOf (c : UInt8) : Option UInt8 :=
  if c = 34 then some 34
  else if c = 92 then some 92
  else if c = 47 then some 47
  else if c = 98 then some 8
  else if c = 102 then some 12
  else if c = 110 then some 10
  else if c = 114 then some 13
  else if c = 116 then some 9
  else none

/-- The code unit of four hexadecimal digits. -/
def hex4 (a b c d : UInt8) : Option Nat := do
  return ((← hexVal a) * 16 + (← hexVal b)) * 256 + ((← hexVal c) * 16 + (← hexVal d))

def utf8 (u : Nat) : Bytes :=
  if u < 0x80 then [u.toUInt8]
  else if u < 0x800 then [(0xc0 + u / 64).toUInt8, (0x80 + u % 64).toUInt8]
  else [(0xe0 + u / 4096).toUInt8, (0x80 + u / 64 % 64).toUInt8, (0x80 + u % 64).toUInt8]

/-- `Chars d s`: the inside `s` of a string literal denotes the bytes `d`. -/
inductive Chars : Bytes → Bytes → Prop where
  | nil : Chars [] []
  | plain {b : UInt8} {d s : Bytes} :
      ¬ b < 32 → b ≠ 34 → b ≠ 92 → Chars d s → Chars (b :: d) (b :: s)
  | escape {c b : UInt8} {d s : Bytes} :
      escapeOf c = some b → Chars d s → Chars (b :: d) (92 :: c :: s)
  | unicode {h₃ h₂ h₁ h₀ : UInt8} {u : Nat} {d s : Bytes} :
      hex4 h₃ h₂ h₁ h₀ = some u → Chars d s →
        Chars (utf8 u ++ d) (92 :: 117 :: h₃ :: h₂ :: h₁ :: h₀ :: s)

/-- What a piece of text denotes: a value, the inside of an array, or the
inside of an object. -/
inductive Node where
  | value (v : Json)
  | elements (vs : List Json)
  | members (ms : List (Bytes × Json))

/-- `name : value` with its whitespace, up to the separator that follows. -/
def pairText (w₀ name w₁ w₂ text w₃ : Bytes) : Bytes :=
  w₀ ++ 34 :: (name ++ 34 :: (w₁ ++ 58 :: (w₂ ++ (text ++ w₃))))

inductive Derives : Node → Bytes → Prop where
  | null : Derives (.value .null) (ascii "null")
  | true : Derives (.value (.bool true)) (ascii "true")
  | false : Derives (.value (.bool false)) (ascii "false")
  | num {l : Literal} : l.WF → Derives (.value (.num l.value)) l.text
  | str {d s : Bytes} : Chars d s → Derives (.value (.str d)) (34 :: (s ++ [34]))
  | emptyArr {w : Bytes} : Ws w → Derives (.value (.arr [])) (91 :: (w ++ [93]))
  | arr {vs : List Json} {s : Bytes} :
      Derives (.elements vs) s → Derives (.value (.arr vs)) (91 :: (s ++ [93]))
  | emptyObj {w : Bytes} : Ws w → Derives (.value (.obj [])) (123 :: (w ++ [125]))
  | obj {ms : List (Bytes × Json)} {s : Bytes} :
      Derives (.members ms) s → Derives (.value (.obj ms)) (123 :: (s ++ [125]))
  | lastElement {v : Json} {w s w' : Bytes} :
      Ws w → Derives (.value v) s → Ws w' → Derives (.elements [v]) (w ++ (s ++ w'))
  | element {v : Json} {vs : List Json} {w s w' t : Bytes} :
      Ws w → Derives (.value v) s → Ws w' → Derives (.elements vs) t →
        Derives (.elements (v :: vs)) (w ++ (s ++ w') ++ 44 :: t)
  | lastMember {k : Bytes} {v : Json} {w₀ name w₁ w₂ s w₃ : Bytes} :
      Ws w₀ → Chars k name → Ws w₁ → Ws w₂ → Derives (.value v) s → Ws w₃ →
        Derives (.members [(k, v)]) (pairText w₀ name w₁ w₂ s w₃)
  | member {k : Bytes} {v : Json} {ms : List (Bytes × Json)} {w₀ name w₁ w₂ s w₃ t : Bytes} :
      Ws w₀ → Chars k name → Ws w₁ → Ws w₂ → Derives (.value v) s → Ws w₃ →
        Derives (.members ms) t →
          Derives (.members ((k, v) :: ms)) (pairText w₀ name w₁ w₂ s w₃ ++ 44 :: t)

/-- `JSON-text = ws value ws`, denoting `v`. -/
def IsText (v : Json) (text : Bytes) : Prop :=
  ∃ w s w', Ws w ∧ Ws w' ∧ Derives (.value v) s ∧ text = w ++ (s ++ w')

def WellFormed (text : Bytes) : Prop := ∃ v, IsText v text

/-! ### The decoder -/

def skipWs (s : Bytes) : Bytes := s.dropWhile isWs

/-- The inside of a string literal, up to its closing quote. -/
def readChars : Bytes → Option (Bytes × Bytes)
  | [] => none
  | b :: s =>
      if b = 34 then some ([], s)
      else if b = 92 then
        match s with
        | [] => none
        | c :: s =>
            if c = 117 then
              match s with
              | h₃ :: h₂ :: h₁ :: h₀ :: s =>
                  (hex4 h₃ h₂ h₁ h₀).bind fun u =>
                    (readChars s).map fun out => (utf8 u ++ out.1, out.2)
              | _ => none
            else (escapeOf c).bind fun e => (readChars s).map fun out => (e :: out.1, out.2)
      else if b < 32 then none
      else (readChars s).map fun out => (b :: out.1, out.2)

def readWord (word : Bytes) (v : Json) (s : Bytes) : Option (Json × Bytes) :=
  if word.isPrefixOf s then some (v, s.drop word.length) else none

/-- A member's name and its colon. -/
def readName : Bytes → Option (Bytes × Bytes)
  | [] => none
  | b :: s =>
      if b = 34 then
        (readChars s).bind fun out =>
          match skipWs out.2 with
          | [] => none
          | c :: s => if c = 58 then some (out.1, s) else none
      else none

mutual
/-- A value at the front of `s`. -/
def readValue : Nat → Bytes → Option (Json × Bytes)
  | 0, _ => none
  | _ + 1, [] => none
  | fuel + 1, b :: s =>
      if b = 34 then (readChars s).map fun out => (.str out.1, out.2)
      else if b = 91 then
        if (skipWs s).head? = some 93 then some (.arr [], (skipWs s).tail)
        else (readElements fuel s).map fun out => (.arr out.1, out.2)
      else if b = 123 then
        if (skipWs s).head? = some 125 then some (.obj [], (skipWs s).tail)
        else (readMembers fuel s).map fun out => (.obj out.1, out.2)
      else if b = 110 then readWord (ascii "null") .null (b :: s)
      else if b = 116 then readWord (ascii "true") (.bool true) (b :: s)
      else if b = 102 then readWord (ascii "false") (.bool false) (b :: s)
      else (Literal.read (b :: s)).map fun out => (.num out.1.value, out.2)

/-- The elements of an array, up to and including its bracket. -/
def readElements : Nat → Bytes → Option (List Json × Bytes)
  | 0, _ => none
  | fuel + 1, s =>
      match readValue fuel (skipWs s) with
      | none => none
      | some (v, s) =>
          match skipWs s with
          | [] => none
          | b :: s =>
              if b = 44 then (readElements fuel s).map fun out => (v :: out.1, out.2)
              else if b = 93 then some ([v], s)
              else none

/-- The members of an object, up to and including its brace. -/
def readMembers : Nat → Bytes → Option (List (Bytes × Json) × Bytes)
  | 0, _ => none
  | fuel + 1, s =>
      match readName (skipWs s) with
      | none => none
      | some (k, s) =>
          match readValue fuel (skipWs s) with
          | none => none
          | some (v, s) =>
              match skipWs s with
              | [] => none
              | b :: s =>
                  if b = 44 then (readMembers fuel s).map fun out => ((k, v) :: out.1, out.2)
                  else if b = 125 then some ([(k, v)], s)
                  else none
end

/-- Decode a whole text. The fuel counts two steps for each byte. -/
def decode (text : Bytes) : Option Json :=
  match readValue (2 * text.length + 1) (skipWs text) with
  | none => none
  | some (v, rest) => if skipWs rest = [] then some v else none

/-! ### Whitespace and what follows a value -/

theorem skipWs_append {w s : Bytes} (ws : Ws w) (stop : ∀ b ∈ s.head?, isWs b = false) :
    skipWs (w ++ s) = s := by
  unfold skipWs
  rw [List.dropWhile_append_of_pos ws]
  cases s with
  | nil => rfl
  | cons b bs => simp [stop b (by simp)]

theorem skipWs_ws {w : Bytes} (ws : Ws w) : skipWs w = [] := by
  simpa using skipWs_append (s := []) ws (by simp)

/-- A separator, or whitespace before one, ends any literal. -/
theorem follow_ws_cons {w rest : Bytes} (ws : Ws w) {b : UInt8} (sep : b = 44 ∨ b = 93 ∨ b = 125) :
    Literal.Follow (w ++ b :: rest) := by
  intro c hc
  cases w with
  | nil =>
      obtain rfl : b = c := by simpa using hc
      rcases sep with rfl | rfl | rfl <;> decide
  | cons x xs =>
      obtain rfl : x = c := by simpa using hc
      have := ws x List.mem_cons_self
      simp only [isWs, decide_eq_true_eq] at this
      rcases this with rfl | rfl | rfl | rfl <;> decide

theorem follow_ws {w : Bytes} (ws : Ws w) : Literal.Follow w := by
  intro c hc
  cases w with
  | nil => simp at hc
  | cons x xs =>
      obtain rfl : x = c := by simpa using hc
      have := ws x List.mem_cons_self
      simp only [isWs, decide_eq_true_eq] at this
      rcases this with rfl | rfl | rfl | rfl <;> decide

/-! ### Completeness of the readers -/

theorem readChars_complete {d s : Bytes} (h : Chars d s) (rest : Bytes) :
    readChars (s ++ 34 :: rest) = some (d, rest) := by
  induction h with
  | nil =>
      rw [List.nil_append, readChars.eq_def]
      simp
  | plain low quote backslash _ ih =>
      rw [List.cons_append, readChars.eq_def]
      simp [low, quote, backslash, ih]
  | @escape c b d s eq _ ih =>
      have notU : c ≠ 117 := by
        rintro rfl
        simp [escapeOf] at eq
      rw [List.cons_append, List.cons_append, readChars.eq_def]
      simp [notU, eq, ih]
  | unicode eq _ ih =>
      simp only [List.cons_append]
      rw [readChars.eq_def]
      simp [eq, ih]

theorem readName_complete {k name : Bytes} (h : Chars k name) {w : Bytes} (ws : Ws w)
    (rest : Bytes) :
    readName (34 :: (name ++ 34 :: (w ++ 58 :: rest))) = some (k, rest) := by
  have colon : skipWs (w ++ 58 :: rest) = 58 :: rest := skipWs_append ws (by simp [isWs])
  simp [readName, readChars_complete h, colon]

/-- The first byte of a value: not whitespace, not a closing bracket. -/
def ValueHead (b : UInt8) : Prop :=
  b = 34 ∨ b = 91 ∨ b = 123 ∨ b = 110 ∨ b = 116 ∨ b = 102 ∨ b = 45 ∨ isDigit b = true

theorem ValueHead.not_ws {b : UInt8} (h : ValueHead b) : isWs b = false := by
  rcases h with rfl | rfl | rfl | rfl | rfl | rfl | rfl | digit
  all_goals try decide
  simp only [isDigit, decide_eq_true_eq, UInt8.le_iff_toNat_le, UInt8.reduceToNat] at digit
  simp only [isWs, decide_eq_false_iff_not, ← UInt8.toNat_inj, UInt8.reduceToNat]
  omega

theorem ValueHead.not_close {b : UInt8} (h : ValueHead b) : b ≠ 93 := by
  rcases h with rfl | rfl | rfl | rfl | rfl | rfl | rfl | digit
  all_goals try decide
  rintro rfl
  exact absurd digit (by decide)

theorem Literal.head_valueHead {l : Literal} (wf : l.WF) :
    ∃ b t, l.text = b :: t ∧ (b = 45 ∨ isDigit b = true) := by
  obtain ⟨neg, int, frac, exp⟩ := l
  cases neg with
  | true => exact ⟨45, _, rfl, .inl rfl⟩
  | false =>
      obtain ⟨nonempty, all⟩ := wf.int
      cases int with
      | nil => exact absurd rfl nonempty
      | cons d ds => exact ⟨d, _, rfl, .inr (all d List.mem_cons_self)⟩

theorem Derives.value_head {v : Json} {s : Bytes} (h : Derives (.value v) s) :
    ∃ b t, s = b :: t ∧ ValueHead b := by
  cases h with
  | null => exact ⟨110, _, rfl, by simp [ValueHead]⟩
  | true => exact ⟨116, _, rfl, by simp [ValueHead]⟩
  | false => exact ⟨102, _, rfl, by simp [ValueHead]⟩
  | num wf =>
      obtain ⟨b, t, eq, head⟩ := Literal.head_valueHead wf
      refine ⟨b, t, eq, ?_⟩
      rcases head with rfl | digit
      · simp [ValueHead]
      · simp [ValueHead, digit]
  | str => exact ⟨34, _, rfl, by simp [ValueHead]⟩
  | emptyArr => exact ⟨91, _, rfl, by simp [ValueHead]⟩
  | arr => exact ⟨91, _, rfl, by simp [ValueHead]⟩
  | emptyObj => exact ⟨123, _, rfl, by simp [ValueHead]⟩
  | obj => exact ⟨123, _, rfl, by simp [ValueHead]⟩

theorem skipWs_value {w s : Bytes} (ws : Ws w) {v : Json} (h : Derives (.value v) s)
    (rest : Bytes) : skipWs (w ++ (s ++ rest)) = s ++ rest := by
  obtain ⟨b, t, rfl, head⟩ := h.value_head
  exact skipWs_append ws (by simpa using head.not_ws)

/-- The number reader is reached: a sign or a digit starts no other value. -/
theorem readValue_num {l : Literal} (wf : l.WF) {rest : Bytes} (follow : Literal.Follow rest)
    (fuel : Nat) : readValue (fuel + 1) (l.text ++ rest) = some (.num l.value, rest) := by
  have whole := Literal.read_text wf follow
  obtain ⟨b, t, eq, head⟩ := Literal.head_valueHead wf
  rw [eq, List.cons_append] at whole ⊢
  have others : b ≠ 34 ∧ b ≠ 91 ∧ b ≠ 123 ∧ b ≠ 110 ∧ b ≠ 116 ∧ b ≠ 102 := by
    rcases head with rfl | digit
    · decide
    · refine ⟨?_, ?_, ?_, ?_, ?_, ?_⟩ <;> (rintro rfl; exact absurd digit (by decide))
  obtain ⟨h₁, h₂, h₃, h₄, h₅, h₆⟩ := others
  simp [readValue, h₁, h₂, h₃, h₄, h₅, h₆, whole]

theorem Derives.elements_head {vs : List Json} {s : Bytes} (h : Derives (.elements vs) s)
    (rest : Bytes) : (skipWs (s ++ rest)).head? ≠ some 93 := by
  have first : ∀ {v : Json} {w t : Bytes}, Ws w → Derives (.value v) t → ∀ more,
      (skipWs (w ++ (t ++ more))).head? ≠ some 93 := by
    intro v w t ws value more
    rw [skipWs_value ws value]
    obtain ⟨b, t', rfl, head⟩ := value.value_head
    simpa using head.not_close
  cases h with
  | lastElement ws value _ => simpa [List.append_assoc] using first ws value _
  | element ws value _ _ => simpa [List.append_assoc] using first ws value _

theorem Derives.members_head {ms : List (Bytes × Json)} {s : Bytes} (h : Derives (.members ms) s)
    (rest : Bytes) : (skipWs (s ++ rest)).head? ≠ some 125 := by
  have first : ∀ {w : Bytes}, Ws w → ∀ more, (skipWs (w ++ 34 :: more)).head? ≠ some 125 := by
    intro w ws more
    rw [skipWs_append ws (by simp [isWs])]
    simp
  cases h with
  | lastMember ws => simpa [pairText, List.append_assoc] using first ws _
  | member ws => simpa [pairText, List.append_assoc] using first ws _

/-- One step of the member reader: the name and its colon are read, the value
reader runs on what follows, and the separator after it decides. -/
theorem readMembers_pair {k name w₀ w₁ : Bytes} (ws₀ : Ws w₀) (chars : Chars k name)
    (ws₁ : Ws w₁) (rest : Bytes) (fuel : Nat) :
    readMembers (fuel + 1) (w₀ ++ 34 :: (name ++ 34 :: (w₁ ++ 58 :: rest))) =
      match readValue fuel (skipWs rest) with
      | none => none
      | some (v, s) =>
          match skipWs s with
          | [] => none
          | b :: s =>
              if b = 44 then (readMembers fuel s).map fun out => ((k, v) :: out.1, out.2)
              else if b = 125 then some ([(k, v)], s)
              else none := by
  have start : skipWs (w₀ ++ 34 :: (name ++ 34 :: (w₁ ++ 58 :: rest))) =
      34 :: (name ++ 34 :: (w₁ ++ 58 :: rest)) := skipWs_append ws₀ (by simp [isWs])
  rw [readMembers, start, readName_complete chars ws₁]

/-- What it means for the decoder to read a node's text: enough fuel, a
follower that ends it, and the value comes back with the rest untouched. -/
def Reads : Node → Bytes → Prop
  | .value v, s => ∀ fuel rest, 2 * s.length ≤ fuel → Literal.Follow rest →
      readValue fuel (s ++ rest) = some (v, rest)
  | .elements vs, s => ∀ fuel rest, 2 * s.length + 1 ≤ fuel →
      readElements fuel (s ++ 93 :: rest) = some (vs, rest)
  | .members ms, s => ∀ fuel rest, 2 * s.length + 1 ≤ fuel →
      readMembers fuel (s ++ 125 :: rest) = some (ms, rest)

theorem reads_value {v : Json} {s : Bytes} {b : UInt8} {t : Bytes} (eq : s = b :: t)
    (step : ∀ fuel rest, 2 * t.length + 1 ≤ fuel → Literal.Follow rest →
      readValue (fuel + 1) (b :: (t ++ rest)) = some (v, rest)) : Reads (.value v) s := by
  intro fuel rest enough follow
  subst eq
  simp only [List.length_cons] at enough
  obtain ⟨fuel', rfl⟩ : ∃ fuel', fuel = fuel' + 1 := ⟨fuel - 1, by omega⟩
  exact step fuel' rest (by omega) follow

/-- **The decoder reads whatever the grammar derives.** Induction on the
derivation; each case peels the reader's own first step. -/
theorem Derives.reads {n : Node} {s : Bytes} (h : Derives n s) : Reads n s := by
  induction h with
  | null => exact reads_value rfl fun fuel rest _ _ => rfl
  | true => exact reads_value rfl fun fuel rest _ _ => rfl
  | false => exact reads_value rfl fun fuel rest _ _ => rfl
  | num wf =>
      obtain ⟨b, t, eq, -⟩ := Literal.head_valueHead wf
      refine reads_value eq fun fuel rest _ follow => ?_
      rw [← List.cons_append, ← eq]
      exact readValue_num wf follow fuel
  | str chars =>
      refine reads_value rfl fun fuel rest _ _ => ?_
      simp [readValue, readChars_complete chars]
  | @emptyArr w ws =>
      refine reads_value rfl fun fuel rest _ _ => ?_
      have close : skipWs (w ++ 93 :: rest) = 93 :: rest := skipWs_append ws (by simp [isWs])
      simp [readValue, close]
  | @emptyObj w ws =>
      refine reads_value rfl fun fuel rest _ _ => ?_
      have close : skipWs (w ++ 125 :: rest) = 125 :: rest := skipWs_append ws (by simp [isWs])
      simp [readValue, close]
  | @arr vs s elements ih =>
      refine reads_value rfl fun fuel rest enough _ => ?_
      have inside := ih fuel rest (by simp at enough; omega)
      have open' := elements.elements_head (93 :: rest)
      simp [readValue, open', inside]
  | @obj ms s members ih =>
      refine reads_value rfl fun fuel rest enough _ => ?_
      have inside := ih fuel rest (by simp at enough; omega)
      have open' := members.members_head (125 :: rest)
      simp [readValue, open', inside]
  | @lastElement v w s w' ws value ws' ih =>
      intro fuel rest enough
      simp only [List.length_append] at enough
      obtain ⟨fuel', rfl⟩ : ∃ fuel', fuel = fuel' + 1 := ⟨fuel - 1, by omega⟩
      have close : skipWs (w' ++ 93 :: rest) = 93 :: rest := skipWs_append ws' (by simp [isWs])
      have inside := ih fuel' (w' ++ 93 :: rest) (by omega) (follow_ws_cons ws' (by simp))
      simp only [List.append_assoc]
      rw [readElements, skipWs_value ws value, inside]
      simp [close]
  | @element v vs w s w' t ws value ws' _ ih ihs =>
      intro fuel rest enough
      simp only [List.length_append, List.length_cons] at enough
      obtain ⟨fuel', rfl⟩ : ∃ fuel', fuel = fuel' + 1 := ⟨fuel - 1, by omega⟩
      have comma : skipWs (w' ++ 44 :: (t ++ 93 :: rest)) = 44 :: (t ++ 93 :: rest) :=
        skipWs_append ws' (by simp [isWs])
      have inside := ih fuel' (w' ++ 44 :: (t ++ 93 :: rest)) (by omega)
        (follow_ws_cons ws' (by simp))
      have more := ihs fuel' rest (by omega)
      simp only [List.append_assoc, List.cons_append]
      rw [readElements, skipWs_value ws value, inside]
      simp [comma, more]
  | @lastMember k v w₀ name w₁ w₂ s w₃ ws₀ chars ws₁ ws₂ value ws₃ ih =>
      intro fuel rest enough
      simp only [pairText, List.length_append, List.length_cons] at enough
      obtain ⟨fuel', rfl⟩ : ∃ fuel', fuel = fuel' + 1 := ⟨fuel - 1, by omega⟩
      have close : skipWs (w₃ ++ 125 :: rest) = 125 :: rest := skipWs_append ws₃ (by simp [isWs])
      have inside := ih fuel' (w₃ ++ 125 :: rest) (by omega) (follow_ws_cons ws₃ (by simp))
      simp only [pairText, List.append_assoc, List.cons_append]
      rw [readMembers_pair ws₀ chars ws₁, skipWs_value ws₂ value, inside]
      simp [close]
  | @member k v ms w₀ name w₁ w₂ s w₃ t ws₀ chars ws₁ ws₂ value ws₃ _ ih ihs =>
      intro fuel rest enough
      simp only [pairText, List.length_append, List.length_cons] at enough
      obtain ⟨fuel', rfl⟩ : ∃ fuel', fuel = fuel' + 1 := ⟨fuel - 1, by omega⟩
      have comma : skipWs (w₃ ++ 44 :: (t ++ 125 :: rest)) = 44 :: (t ++ 125 :: rest) :=
        skipWs_append ws₃ (by simp [isWs])
      have inside := ih fuel' (w₃ ++ 44 :: (t ++ 125 :: rest)) (by omega)
        (follow_ws_cons ws₃ (by simp))
      have more := ihs fuel' rest (by omega)
      simp only [pairText, List.append_assoc, List.cons_append]
      rw [readMembers_pair ws₀ chars ws₁, skipWs_value ws₂ value, inside]
      simp [comma, more]

/-- **Completeness of the decoder**: a text of the grammar decodes to the value
it denotes. -/
theorem decode_of_isText {v : Json} {text : Bytes} (h : IsText v text) : decode text = some v := by
  obtain ⟨w, s, w', ws, ws', derives, rfl⟩ := h
  have inside := derives.reads (2 * (w ++ (s ++ w')).length + 1) w'
    (by simp only [List.length_append]; omega) (follow_ws ws')
  rw [decode, skipWs_value ws derives, inside]
  simp [skipWs_ws ws']

/-- A text the decoder refuses is outside the grammar. -/
theorem not_wellFormed {text : Bytes} (h : decode text = none) : ¬ WellFormed text := by
  rintro ⟨v, isText⟩
  rw [decode_of_isText isText] at h
  cases h

/-! ### NUL bytes -/

theorem Chars.no_nul {d s : Bytes} (h : Chars d s) : 0 ∉ s := by
  induction h with
  | nil => exact List.not_mem_nil
  | plain low _ _ _ ih =>
      rintro (_ | ⟨_, mem⟩)
      · exact low (by decide)
      · exact ih mem
  | escape known _ ih =>
      rintro (_ | ⟨_, _ | ⟨_, mem⟩⟩)
      · cases known
      · exact ih mem
  | unicode digits _ ih =>
      have digit : ∀ {a b c d : UInt8} {u : Nat}, hex4 a b c d = some u →
          a ≠ 0 ∧ b ≠ 0 ∧ c ≠ 0 ∧ d ≠ 0 := by
        intro a b c d u read
        refine ⟨?_, ?_, ?_, ?_⟩ <;> (rintro rfl; simp [hex4, hexVal] at read)
      obtain ⟨three, two, one, zero⟩ := digit digits
      intro mem
      simp only [List.mem_cons] at mem
      rcases mem with e | e | e | e | e | e | e
      · exact absurd e (by decide)
      · exact absurd e (by decide)
      · exact three e.symm
      · exact two e.symm
      · exact one e.symm
      · exact zero e.symm
      · exact ih e

theorem Ws.no_nul {w : Bytes} (ws : Ws w) : 0 ∉ w := by
  intro mem
  exact absurd (ws 0 mem) (by decide)

/-- No text of the grammar holds a NUL byte. -/
theorem Derives.no_nul {node : Node} {s : Bytes} (h : Derives node s) : 0 ∉ s := by
  induction h with
  | null => decide
  | «true» => decide
  | «false» => decide
  | num wf =>
      intro mem
      exact absurd (Literal.text_noControl wf 0 mem) (by decide)
  | str chars => simp [chars.no_nul]
  | emptyArr ws => simp [ws.no_nul]
  | arr _ ih => simp [ih]
  | emptyObj ws => simp [ws.no_nul]
  | obj _ ih => simp [ih]
  | lastElement ws _ ws' ih => simp [ws.no_nul, ws'.no_nul, ih]
  | element ws _ ws' _ ih ihs => simp [ws.no_nul, ws'.no_nul, ih, ihs]
  | lastMember ws₀ chars ws₁ ws₂ _ ws₃ ih =>
      simp [pairText, ws₀.no_nul, chars.no_nul, ws₁.no_nul, ws₂.no_nul, ws₃.no_nul, ih]
  | member ws₀ chars ws₁ ws₂ _ ws₃ _ ih ihs =>
      simp [pairText, ws₀.no_nul, chars.no_nul, ws₁.no_nul, ws₂.no_nul, ws₃.no_nul, ih, ihs]

/-! ### Compact objects

An object printed without whitespace, given the texts of its names and values. -/

def compactPair (p : Bytes × Bytes) : Bytes := pairText [] p.1 [] [] p.2 []

def compactMembers : List (Bytes × Bytes) → Bytes
  | [] => []
  | [p] => compactPair p
  | p :: q :: ps => compactPair p ++ 44 :: compactMembers (q :: ps)

theorem compactMembers_eq_intercalate (ps : List (Bytes × Bytes)) :
    compactMembers ps = [44].intercalate (ps.map compactPair) := by
  induction ps with
  | nil => rfl
  | cons p ps ih =>
      cases ps with
      | nil => simp [compactMembers, List.intercalate]
      | cons q qs =>
          rw [compactMembers, ih]
          simp [List.intercalate]

def compactObject (ps : List (Bytes × Bytes)) : Bytes := 123 :: (compactMembers ps ++ [125])

/-- The literal between two values: a comma, a name in quotes, a colon. -/
theorem ascii_nextMember (literal name : String) (h : literal = ",\"" ++ name ++ "\":")
    (rest : Bytes) : ascii literal ++ rest = 44 :: 34 :: (ascii name ++ 34 :: 58 :: rest) := by
  have comma : ascii ",\"" = [44, 34] := rfl
  have colon : ascii "\":" = [34, 58] := rfl
  simp [h, ascii_append, comma, colon]

/-- Printable ASCII without quotes or backslashes denotes itself. -/
theorem chars_ascii {s : String}
    (h : (ascii s).all (fun b => !(decide (b < 32 ∨ b = 34 ∨ b = 92))) = true) :
    Chars (ascii s) (ascii s) := by
  generalize ascii s = text at h
  induction text with
  | nil => exact .nil
  | cons b bs ih =>
      simp only [List.all_cons, Bool.and_eq_true, Bool.not_eq_true', decide_eq_false_iff_not,
        not_or] at h
      exact .plain h.1.1 h.1.2.1 h.1.2.2 (ih h.2)

/-- A printed pair denotes a member. -/
def PairDerives (p : Bytes × Bytes) (m : Bytes × Json) : Prop :=
  Chars m.1 p.1 ∧ Derives (.value m.2) p.2

theorem ws_nil : Ws [] := by simp [Ws]

theorem derives_compactMembers {ps : List (Bytes × Bytes)} {ms : List (Bytes × Json)}
    (h : List.Forall₂ PairDerives ps ms) (nonempty : ps ≠ []) :
    Derives (.members ms) (compactMembers ps) := by
  induction h with
  | nil => exact absurd rfl nonempty
  | @cons p m ps ms pair rest ih =>
      cases rest with
      | nil => exact .lastMember ws_nil pair.1 ws_nil ws_nil pair.2 ws_nil
      | cons pair' rest' =>
          exact .member ws_nil pair.1 ws_nil ws_nil pair.2 ws_nil (ih (by simp))

/-- **A compact object denotes the object of its members.** -/
theorem derives_compactObject {ps : List (Bytes × Bytes)} {ms : List (Bytes × Json)}
    (h : List.Forall₂ PairDerives ps ms) : Derives (.value (.obj ms)) (compactObject ps) := by
  cases h with
  | nil => exact .emptyObj ws_nil
  | cons pair rest => exact .obj (derives_compactMembers (.cons pair rest) (by simp))

theorem isText_compactObject {ps : List (Bytes × Bytes)} {ms : List (Bytes × Json)}
    (h : List.Forall₂ PairDerives ps ms) : IsText (.obj ms) (compactObject ps) :=
  ⟨[], compactObject ps, [], ws_nil, ws_nil, derives_compactObject h, by simp⟩

/-! ### Compact arrays -/

def compactArray (texts : List Bytes) : Bytes := 91 :: ([44].intercalate texts ++ [93])

theorem derives_elements {texts : List Bytes} {vs : List Json}
    (h : List.Forall₂ (fun text v => Derives (.value v) text) texts vs) (nonempty : texts ≠ []) :
    Derives (.elements vs) ([44].intercalate texts) := by
  induction h with
  | nil => exact absurd rfl nonempty
  | @cons text v texts vs first rest ih =>
      cases rest with
      | nil => simpa [List.intercalate] using Derives.lastElement ws_nil first ws_nil
      | cons next more =>
          have later := ih (by simp)
          rw [List.intercalate_cons_cons]
          simpa using Derives.element ws_nil first ws_nil later

/-- A compact array denotes the array of its values. -/
theorem derives_compactArray {texts : List Bytes} {vs : List Json}
    (h : List.Forall₂ (fun text v => Derives (.value v) text) texts vs) :
    Derives (.value (.arr vs)) (compactArray texts) := by
  cases h with
  | nil => exact .emptyArr ws_nil
  | cons first rest => exact .arr (derives_elements (.cons first rest) (by simp))

/-- A text no value reader accepts, whatever follows it. -/
def Refused (s : Bytes) : Prop := ∀ fuel rest, readValue fuel (skipWs (s ++ rest)) = none

theorem readMembers_refused {ps : List (Bytes × Bytes)} (names : ∀ p ∈ ps, ∃ k, Chars k p.1)
    (texts : ∀ p ∈ ps, (∃ v, Derives (.value v) p.2) ∨ Refused p.2)
    (bad : ∃ p ∈ ps, Refused p.2) (fuel : Nat) (rest : Bytes)
    (enough : 2 * (compactMembers ps).length + 1 ≤ fuel) :
    readMembers fuel (compactMembers ps ++ 125 :: rest) = none := by
  induction ps generalizing fuel with
  | nil => simp at bad
  | cons p ps ih =>
      obtain ⟨k, chars⟩ := names p List.mem_cons_self
      obtain ⟨fuel', rfl⟩ : ∃ fuel', fuel = fuel' + 1 := ⟨fuel - 1, by omega⟩
      -- A refused value stops the reader; a derivable one hands over to the next pair.
      have step := fun more => readMembers_pair ws_nil chars ws_nil (p.2 ++ more) fuel'
      by_cases here : Refused p.2
      · have stop : ∀ more,
            readMembers (fuel' + 1) (34 :: (p.1 ++ 34 :: 58 :: (p.2 ++ more))) = none := by
          intro more
          have := step more
          rw [here fuel' more] at this
          simpa using this
        cases ps with
        | nil => simpa [compactMembers, compactPair, pairText] using stop (125 :: rest)
        | cons q qs =>
            simpa [compactMembers, compactPair, pairText] using
              stop (44 :: (compactMembers (q :: qs) ++ 125 :: rest))
      · obtain ⟨v, derives⟩ := (texts p List.mem_cons_self).resolve_right here
        cases ps with
        | nil => simp [here] at bad
        | cons q qs =>
            have later : ∃ p ∈ q :: qs, Refused p.2 := by
              obtain ⟨p', mem, refused⟩ := bad
              rcases List.mem_cons.mp mem with rfl | mem
              · exact absurd refused here
              · exact ⟨p', mem, refused⟩
            simp only [compactMembers, compactPair, pairText, List.length_append, List.length_cons,
              List.length_nil] at enough
            have tail := ih (fun p' h => names p' (List.mem_cons_of_mem _ h))
              (fun p' h => texts p' (List.mem_cons_of_mem _ h)) later fuel' (by omega)
            have inside := derives.reads fuel' (44 :: (compactMembers (q :: qs) ++ 125 :: rest))
              (by omega) (follow_ws_cons ws_nil (by simp))
            have start := skipWs_value ws_nil derives
              (44 :: (compactMembers (q :: qs) ++ 125 :: rest))
            rw [List.nil_append] at start
            have comma : skipWs (44 :: (compactMembers (q :: qs) ++ 125 :: rest)) =
                44 :: (compactMembers (q :: qs) ++ 125 :: rest) :=
              skipWs_append ws_nil (by simp [isWs])
            have := step (44 :: (compactMembers (q :: qs) ++ 125 :: rest))
            rw [start, inside] at this
            simpa [compactMembers, compactPair, pairText, comma, tail] using this

/-- An object with a refused value is no JSON text. -/
theorem not_wellFormed_compactObject {ps : List (Bytes × Bytes)}
    (names : ∀ p ∈ ps, ∃ k, Chars k p.1)
    (texts : ∀ p ∈ ps, (∃ v, Derives (.value v) p.2) ∨ Refused p.2)
    (bad : ∃ p ∈ ps, Refused p.2) : ¬ WellFormed (compactObject ps) := by
  refine not_wellFormed ?_
  have nonempty : (skipWs (compactMembers ps ++ [125])).head? ≠ some 125 := by
    obtain ⟨p, mem, -⟩ := bad
    cases ps with
    | nil => simp at mem
    | cons q qs =>
        cases qs with
        | nil => simp [compactMembers, compactPair, pairText, skipWs, isWs]
        | cons r rs => simp [compactMembers, compactPair, pairText, skipWs, isWs]
  have members := readMembers_refused names texts bad (2 * (compactObject ps).length) []
    (by simp only [compactObject, List.length_cons, List.length_append]; omega)
  have start : skipWs (compactObject ps) = compactObject ps :=
    skipWs_append ws_nil (by simp [isWs])
  have value : readValue (2 * (compactObject ps).length + 1) (compactObject ps) = none := by
    change readValue (2 * (compactObject ps).length + 1) (123 :: (compactMembers ps ++ [125])) = none
    simp [readValue, nonempty, members]
  rw [decode, start, value]

end JsonText
