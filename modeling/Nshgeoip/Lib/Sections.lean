import Mathlib.Data.List.Basic

/-!
One store shared by many sections.

A `Naming` gives each key a section of the store: a name for each of finitely many
indices, with no name given twice. `view` reads a section and `put` writes it back.
Writing the section of one key leaves the sections of the others and every name that
is in no section (`view_put_other`, `put_of_not_named`).
-/

namespace Sections

variable {K I N V : Type}

/-- A section of names for each key. -/
structure Naming (K I N : Type) where
  name : K → I → N
  indices : List I
  complete : ∀ i, i ∈ indices
  injective : ∀ {k k' i i'}, name k i = name k' i' → k = k' ∧ i = i'

namespace Naming

variable (naming : Naming K I N)

def view (store : N → V) (k : K) : I → V := fun i => store (naming.name k i)

/-- Which index of a section a name is. -/
def index [DecidableEq N] (k : K) (n : N) : Option I :=
  naming.indices.find? fun i => naming.name k i = n

def put [DecidableEq N] (store : N → V) (k : K) (values : I → V) : N → V := fun n =>
  match naming.index k n with
  | some i => values i
  | none => store n

/-- The name is in no section of these keys. -/
def Outside (keys : List K) (n : N) : Prop := ∀ k ∈ keys, ∀ i, naming.name k i ≠ n

variable {naming} [DecidableEq N] {k k' : K} {n : N}

theorem index_name (i : I) : naming.index k (naming.name k i) = some i := by
  cases found : naming.index k (naming.name k i) with
  | none =>
      have missing := List.find?_eq_none.mp found i (naming.complete i)
      simp at missing
  | some other =>
      have same : naming.name k other = naming.name k i := by
        simpa using List.find?_some found
      rw [(naming.injective same).2]

theorem index_of_not_named (apart : ∀ i, naming.name k i ≠ n) : naming.index k n = none := by
  refine List.find?_eq_none.mpr fun i _ => ?_
  simpa using apart i

theorem put_name (store : N → V) (values : I → V) (i : I) :
    naming.put store k values (naming.name k i) = values i := by
  simp only [put, index_name]

theorem put_of_not_named {store : N → V} {values : I → V} (apart : ∀ i, naming.name k i ≠ n) :
    naming.put store k values n = store n := by
  simp only [put, index_of_not_named apart]

/-- The sections of other keys stay as they are. -/
theorem view_put_other {store : N → V} {values : I → V} (apart : k' ≠ k) :
    naming.view (naming.put store k values) k' = naming.view store k' := by
  funext i
  refine put_of_not_named fun i' same => ?_
  exact apart (naming.injective same).1.symm

end Naming

end Sections
