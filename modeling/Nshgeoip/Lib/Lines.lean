import Nshgeoip.Lib.Bytes

/-!
Texts of lines, each ended by a newline.

`terminated` writes the lines and splitting at the newline reads them back, as long
as no line holds one (`splitOn_terminated`). A text whose last line has a mark that no
line before it has is told from its own beginnings (`Ends.eq_of_prefix`).
-/

namespace ByteText

/-- The lines with a newline behind each. -/
def terminated (lines : List Bytes) : Bytes := lines.flatMap (· ++ [10])

@[simp] theorem terminated_nil : terminated [] = [] := rfl

theorem terminated_cons (line : Bytes) (lines : List Bytes) :
    terminated (line :: lines) = line ++ 10 :: terminated lines := by
  simp [terminated]

theorem terminated_append (a b : List Bytes) : terminated (a ++ b) = terminated a ++ terminated b :=
  List.flatMap_append

/-- No piece of a text split at a byte holds that byte. -/
theorem not_mem_of_mem_splitOn {text piece : Bytes} {c : UInt8} (h : piece ∈ text.splitOn c) :
    c ∉ piece := by
  induction text generalizing piece with
  | nil =>
      obtain rfl : piece = [] := by simpa using h
      exact List.not_mem_nil
  | cons b text ih =>
      rw [List.splitOn_cons_eq_if_modifyHead] at h
      by_cases here : b = c
      · simp only [here, beq_self_eq_true, if_true, List.mem_cons] at h
        rcases h with rfl | later
        · exact List.not_mem_nil
        · exact ih later
      · simp only [beq_eq_false_iff_ne.mpr here, Bool.false_eq_true, if_false] at h
        cases pieces : text.splitOn c with
        | nil => exact absurd pieces (List.splitOn_ne_nil c text)
        | cons first rest =>
            rw [pieces, List.modifyHead_cons, List.mem_cons] at h
            rcases h with rfl | later
            · have fresh := ih (pieces ▸ List.mem_cons_self)
              simpa [List.mem_cons, Ne.symm here] using fresh
            · exact ih (pieces ▸ List.mem_cons_of_mem _ later)

/-- Splitting at the newline reads the lines back; nothing follows the last one. -/
theorem splitOn_terminated {lines : List Bytes} (clean : ∀ line ∈ lines, 10 ∉ line) :
    (terminated lines).splitOn 10 = lines ++ [[]] := by
  induction lines with
  | nil => rfl
  | cons line lines ih =>
      obtain ⟨first, rest⟩ := List.forall_mem_cons.mp clean
      rw [terminated_cons, List.splitOn_append_cons_self, List.splitOn_eq_singleton first, ih rest]
      rfl

/-- A clean line is read back whatever the lines around it hold. -/
theorem mem_splitOn_terminated {lines : List Bytes} {line : Bytes} (mem : line ∈ lines)
    (clean : 10 ∉ line) : line ∈ (terminated lines).splitOn 10 := by
  induction lines with
  | nil => exact (List.not_mem_nil mem).elim
  | cons first lines ih =>
      rw [terminated_cons, List.splitOn_append_cons_self, List.mem_append]
      rcases List.mem_cons.mp mem with rfl | later
      · rw [List.splitOn_eq_singleton clean]
        exact .inl (List.mem_singleton.mpr rfl)
      · exact .inr (ih later)

/-- A text with no empty piece has no doubled separator, and none at its end. -/
theorem not_infix_of_splitOn {c : UInt8} {s : Bytes} (full : [] ∉ s.splitOn c) :
    ¬ [c, c] <:+: s ++ [c] := by
  rintro ⟨p, q, eq⟩
  have left : (p ++ [c, c] ++ q).splitOn c = p.splitOn c ++ [] :: q.splitOn c := by
    rw [List.append_assoc, List.cons_append, List.cons_append, List.nil_append,
      List.splitOn_append_cons_self, ← List.nil_append (c :: q), List.splitOn_append_cons_self]
    rfl
  have right : (s ++ [c]).splitOn c = s.splitOn c ++ [[]] := by
    rw [List.splitOn_append_cons_self]
    rfl
  rw [eq, right] at left
  have pieces := congrArg List.dropLast left
  rw [List.dropLast_concat, List.dropLast_append_of_ne_nil (List.cons_ne_nil _ _),
    List.dropLast_cons_of_ne_nil (List.splitOn_ne_nil c q)] at pieces
  exact full (pieces ▸ by simp)

/-! ### A marked last line -/

theorem splitOn_terminated_append {lines : List Bytes} (clean : ∀ line ∈ lines, 10 ∉ line)
    (rest : Bytes) : (terminated lines ++ rest).splitOn 10 = lines ++ rest.splitOn 10 := by
  induction lines with
  | nil => rfl
  | cons line lines ih =>
      obtain ⟨first, later⟩ := List.forall_mem_cons.mp clean
      rw [terminated_cons, List.append_assoc, List.cons_append, List.splitOn_append_cons_self,
        List.splitOn_eq_singleton first, ih later]
      rfl

/-- What begins a text of lines and is one begins it line by line. -/
theorem prefix_of_terminated_prefix {lines lines' : List Bytes} (clean : ∀ line ∈ lines, 10 ∉ line)
    (clean' : ∀ line ∈ lines', 10 ∉ line) (begins : terminated lines <+: terminated lines') :
    lines <+: lines' := by
  obtain ⟨rest, eq⟩ := begins
  have pieces := congrArg (List.splitOn 10) eq
  rw [splitOn_terminated_append clean, splitOn_terminated clean'] at pieces
  have dropped := congrArg List.dropLast pieces
  rw [List.dropLast_concat, List.dropLast_append_of_ne_nil (List.splitOn_ne_nil 10 rest)] at dropped
  exact ⟨_, dropped⟩

/-- Lines, the last of which starts with the mark and no other does. -/
def Ends (mark text : Bytes) : Prop :=
  ∃ lines last, text = terminated (lines ++ [mark ++ last]) ∧ 10 ∉ mark ++ last ∧
    ∀ line ∈ lines, 10 ∉ line ∧ ¬ mark <+: line

section Ends

variable {mark text text' : Bytes}

theorem Ends.last {last : Bytes} (fresh : 10 ∉ mark ++ last) : Ends mark (mark ++ last ++ [10]) :=
  ⟨[], last, by simp [terminated], fresh, fun _ mem => (List.not_mem_nil mem).elim⟩

/-- One more line in front. -/
theorem Ends.line {line : Bytes} (fresh : 10 ∉ line) (unmarked : ¬ mark <+: line)
    (more : Ends mark text) : Ends mark (line ++ 10 :: text) := by
  obtain ⟨lines, last, rfl, whole, others⟩ := more
  refine ⟨line :: lines, last, by rw [List.cons_append, terminated_cons], whole, ?_⟩
  exact List.forall_mem_cons.mpr ⟨⟨fresh, unmarked⟩, others⟩

theorem Ends.length_lt (h : Ends mark text) : mark.length < text.length := by
  obtain ⟨lines, last, rfl, -, -⟩ := h
  rw [terminated_append, terminated_cons, terminated_nil]
  simp only [List.length_append, List.length_cons, List.length_nil]
  omega

/-- **No proper beginning of such a text is one.** -/
theorem Ends.eq_of_prefix (h : Ends mark text) (h' : Ends mark text') (begins : text <+: text') :
    text = text' := by
  obtain ⟨lines, last, rfl, whole, others⟩ := h
  obtain ⟨lines', last', rfl, whole', others'⟩ := h'
  have clean : ∀ lines last, 10 ∉ mark ++ last → (∀ line ∈ lines, 10 ∉ line ∧ ¬ mark <+: line) →
      ∀ line ∈ lines ++ [mark ++ last], 10 ∉ line := by
    intro lines last whole others line mem
    rcases List.mem_append.mp mem with inside | atEnd
    · exact (others line inside).1
    · rw [List.mem_singleton.mp atEnd]
      exact whole
  have begins' := prefix_of_terminated_prefix (clean lines last whole others)
    (clean lines' last' whole' others') begins
  rcases List.prefix_concat_iff.mp begins' with same | early
  · rw [same]
  · have mem : mark ++ last ∈ lines' := early.subset (by simp)
    exact absurd (List.prefix_append mark last) (others' _ mem).2

end Ends

end ByteText
