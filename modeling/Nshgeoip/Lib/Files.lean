import Mathlib.Logic.Function.Basic
import Nshgeoip.Lib.Machine

/-!
Files under names, and replacing one by renaming another onto it.

Names lead to files, and two names may lead to the same one. A `Replacement` writes a
temporary name from the start, piece by piece, and then renames it, or does not.
`throughout_replacements_iff` says exactly what a reader of the final name can come
across while replacements follow one another: what was there at first, and for each
replacement that ends in a rename all the pieces it wrote.
-/

namespace Filing

open Machine

variable {N B : Type}

/-- Which file a name leads to, and what the files hold. -/
structure Files (N B : Type) where
  entry : N → Option Nat
  content : Nat → List B
  /-- The next file to be created. -/
  next : Nat
  fresh : ∀ name file, entry name = some file → file < next

namespace Files

def read (fs : Files N B) (name : N) : Option (List B) := (fs.entry name).map fs.content

/-- Other content for a file. -/
def put (fs : Files N B) (file : Nat) (content : List B) : Files N B :=
  { fs with content := Function.update fs.content file content }

/-- `write` at the end of the file. -/
def append (fs : Files N B) (name : N) (piece : List B) : Files N B :=
  match fs.entry name with
  | some file => fs.put file (fs.content file ++ piece)
  | none => fs

variable [DecidableEq N]

/-- A new file under a name that leads to none. -/
def create (fs : Files N B) (name : N) : Files N B where
  entry := Function.update fs.entry name (some fs.next)
  content := Function.update fs.content fs.next []
  next := fs.next + 1
  fresh := by
    intro other file leads
    rw [Function.update_apply] at leads
    split_ifs at leads
    · cases leads
      exact Nat.lt_succ_self _
    · exact Nat.lt_succ_of_lt (fs.fresh other file leads)

/-- `open` with `O_CREAT` and `O_TRUNC`. -/
def truncate (fs : Files N B) (name : N) : Files N B :=
  match fs.entry name with
  | some file => fs.put file []
  | none => fs.create name

/-- The name of a file moved to another, which loses the file it led to. -/
def move (fs : Files N B) (old new : N) : Files N B where
  entry := Function.update (Function.update fs.entry old none) new (fs.entry old)
  content := fs.content
  next := fs.next
  fresh := by
    intro name file leads
    rw [Function.update_apply] at leads
    split_ifs at leads
    · exact fs.fresh old file leads
    · rw [Function.update_apply] at leads
      split_ifs at leads
      exact fs.fresh name file leads

/-- `rename`: nothing happens when both names lead to one file. -/
def rename (fs : Files N B) (old new : N) : Files N B :=
  match fs.entry old with
  | none => fs
  | some file => if fs.entry new = some file then fs else fs.move old new

end Files

/-- A call that succeeded. -/
inductive Call (N B : Type) where
  | truncate (name : N)
  | append (name : N) (piece : List B)
  | rename (old new : N)

def apply [DecidableEq N] (fs : Files N B) : Call N B → Files N B
  | .truncate name => fs.truncate name
  | .append name piece => fs.append name piece
  | .rename old new => fs.rename old new

/-! ### Two names -/

/-- The names differ and lead to no common file. -/
def Apart (fs : Files N B) (a b : N) : Prop :=
  a ≠ b ∧ ∀ file, fs.entry a = some file → fs.entry b ≠ some file

section Writing

variable {fs : Files N B} {a b : N}

theorem read_put_self {file : Nat} (leads : fs.entry a = some file) (content : List B) :
    (fs.put file content).read a = some content := by
  simp [Files.read, Files.put, leads]

theorem read_put_other {file : Nat} (elsewhere : fs.entry b ≠ some file) (content : List B) :
    (fs.put file content).read b = fs.read b := by
  unfold Files.read Files.put
  cases other : fs.entry b with
  | none => rfl
  | some file' =>
      have differs : file' ≠ file := by
        rintro rfl
        exact elsewhere other
      simp [differs]

theorem read_append_self {content : List B} (here : fs.read a = some content) (piece : List B) :
    (fs.append a piece).read a = some (content ++ piece) := by
  obtain ⟨file, leads, rfl⟩ := Option.map_eq_some_iff.mp here
  rw [Files.append, leads]
  exact read_put_self leads _

theorem read_append_other (apart : Apart fs a b) (piece : List B) :
    (fs.append a piece).read b = fs.read b := by
  unfold Files.append
  cases leads : fs.entry a with
  | none => rfl
  | some file => exact read_put_other (apart.2 file leads) _

theorem apart_append (apart : Apart fs a b) (piece : List B) : Apart (fs.append a piece) a b := by
  unfold Files.append
  cases fs.entry a with
  | none => exact apart
  | some file => exact ⟨apart.1, apart.2⟩

end Writing

section Naming

variable [DecidableEq N] {fs : Files N B} {a b : N}

theorem read_truncate_self : (fs.truncate a).read a = some [] := by
  unfold Files.truncate
  cases leads : fs.entry a with
  | some file => exact read_put_self leads []
  | none => simp [Files.read, Files.create]

theorem read_truncate_other (apart : Apart fs a b) : (fs.truncate a).read b = fs.read b := by
  unfold Files.truncate
  cases leads : fs.entry a with
  | some file => exact read_put_other (apart.2 file leads) []
  | none =>
      unfold Files.read Files.create
      cases other : fs.entry b with
      | none => simp [apart.1.symm, other]
      | some file =>
          have old : file ≠ fs.next := Nat.ne_of_lt (fs.fresh b file other)
          simp [apart.1.symm, other, old]

theorem apart_truncate (apart : Apart fs a b) : Apart (fs.truncate a) a b := by
  refine ⟨apart.1, ?_⟩
  unfold Files.truncate
  cases fs.entry a with
  | some file => exact apart.2
  | none =>
      intro file here there
      simp only [Files.create, Function.update_self, Option.some.injEq] at here
      simp only [Files.create, Function.update_of_ne apart.1.symm] at there
      exact absurd (fs.fresh b file there) (by omega)

theorem rename_eq_move (apart : Apart fs a b) {content : List B} (here : fs.read a = some content) :
    fs.rename a b = fs.move a b := by
  obtain ⟨file, leads, -⟩ := Option.map_eq_some_iff.mp here
  unfold Files.rename
  rw [leads]
  exact if_neg (apart.2 file leads)

theorem read_rename (apart : Apart fs a b) {content : List B} (here : fs.read a = some content) :
    (fs.rename a b).read b = some content := by
  rw [rename_eq_move apart here, ← here]
  simp [Files.read, Files.move]

theorem apart_rename (apart : Apart fs a b) {content : List B} (here : fs.read a = some content) :
    Apart (fs.rename a b) a b := by
  refine ⟨apart.1, ?_⟩
  intro file leads
  rw [rename_eq_move apart here] at leads
  simp [Files.move, apart.1] at leads

end Naming

/-! ### Replacements -/

/-- One attempt: the pieces that reach the temporary name, and whether it is renamed. -/
structure Replacement (B : Type) where
  pieces : List (List B)
  publishes : Bool

namespace Replacement

/-- The calls of one attempt. -/
def calls (tmp path : N) (r : Replacement B) : List (Call N B) :=
  .truncate tmp :: (r.pieces.map (.append tmp) ++ if r.publishes then [.rename tmp path] else [])

end Replacement

section Replacing

variable [DecidableEq N] {fs : Files N B} {tmp path : N} {P : Option (List B) → Prop}

/-- Writing the temporary name is not seen at the final one. -/
theorem pieces_spec (pieces : List (List B)) {content : List B} (apart : Apart fs tmp path)
    (here : fs.read tmp = some content) :
    (Throughout apply (fun fs => P (fs.read path)) fs (pieces.map (.append tmp)) ↔ P (fs.read path)) ∧
      Apart (run apply fs (pieces.map (.append tmp))) tmp path ∧
      (run apply fs (pieces.map (.append tmp))).read tmp = some (content ++ pieces.flatten) ∧
      (run apply fs (pieces.map (.append tmp))).read path = fs.read path := by
  induction pieces generalizing fs content with
  | nil => exact ⟨Iff.rfl, apart, by simpa [run] using here, rfl⟩
  | cons piece pieces ih =>
      have unseen := read_append_other apart piece
      obtain ⟨through, apart', grown, same⟩ :=
        ih (apart_append apart piece) (read_append_self here piece)
      refine ⟨?_, apart', ?_, same.trans unseen⟩
      · rw [List.map_cons, Throughout, apply, through, unseen, and_self]
      · rw [List.flatten_cons, ← List.append_assoc]
        exact grown

/-- One attempt: the final name shows all the pieces or what it showed before. -/
theorem replacement_spec (r : Replacement B) (apart : Apart fs tmp path) :
    (Throughout apply (fun fs => P (fs.read path)) fs (r.calls tmp path) ↔
        P (fs.read path) ∧ (r.publishes = true → P (some r.pieces.flatten))) ∧
      Apart (run apply fs (r.calls tmp path)) tmp path ∧
      (run apply fs (r.calls tmp path)).read path =
        if r.publishes then some r.pieces.flatten else fs.read path := by
  have unseen := read_truncate_other apart
  obtain ⟨through, apart', grown, same⟩ :=
    @pieces_spec _ _ _ _ _ _ P r.pieces _ (apart_truncate apart) read_truncate_self
  rw [List.nil_append] at grown
  have before : (run apply (fs.truncate tmp) (r.pieces.map (.append tmp))).read path = fs.read path :=
    same.trans unseen
  have step : ∀ later, Throughout apply (fun fs => P (fs.read path)) fs
      (.truncate tmp :: (r.pieces.map (.append tmp) ++ later)) ↔ P (fs.read path) ∧
        Throughout apply (fun fs => P (fs.read path))
          (run apply (fs.truncate tmp) (r.pieces.map (.append tmp))) later := by
    intro later
    rw [Throughout, throughout_append, apply, through, unseen, ← and_assoc, and_self]
  have ending : ∀ later, run apply fs (.truncate tmp :: (r.pieces.map (.append tmp) ++ later)) =
      run apply (run apply (fs.truncate tmp) (r.pieces.map (.append tmp))) later := by
    intro later
    exact List.foldl_append
  unfold Replacement.calls
  rw [step, ending]
  cases r.publishes with
  | false =>
      refine ⟨?_, apart', before⟩
      simp only [Bool.false_eq_true, if_false, false_imp_iff, and_true, Throughout, before, and_self]
  | true =>
      have seen := read_rename apart' grown
      refine ⟨?_, apart_rename apart' grown, seen⟩
      simp only [if_true, true_imp_iff, Throughout, apply, before, seen, ← and_assoc, and_self]

/-- **What a reader of the final name can come across** while attempts follow one another:
what was there at first, and the pieces of each attempt that ends in a rename. -/
theorem throughout_replacements_iff (rs : List (Replacement B)) (apart : Apart fs tmp path) :
    Throughout apply (fun fs => P (fs.read path)) fs (rs.flatMap (·.calls tmp path)) ↔
      P (fs.read path) ∧ ∀ r ∈ rs, r.publishes = true → P (some r.pieces.flatten) := by
  induction rs generalizing fs with
  | nil => simp [Throughout]
  | cons r rs ih =>
      obtain ⟨through, apart', shown⟩ := @replacement_spec _ _ _ fs tmp path P r apart
      rw [List.flatMap_cons, throughout_append, through, ih apart', shown, List.forall_mem_cons]
      cases r.publishes with
      | false => simp
      | true =>
          simp only [if_true, true_imp_iff]
          tauto

end Replacing

end Filing
