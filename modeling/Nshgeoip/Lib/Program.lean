import Mathlib.Init

/-!
Programs that change a state and may give up.

Giving up keeps the state reached so far, as a C++ function that returns
`false` does. `Triple P m Q E` says that from a state of `P` the program either
returns a value in a state of `Q` or gives up in a state of `E`; there is one
rule for each way such programs are put together.
-/

namespace Program

variable {ε σ α β : Type}

abbrev Command (ε σ α : Type) := ExceptT ε (StateM σ) α

/-- The result and the state left behind. -/
def exec (m : Command ε σ α) (s : σ) : Except ε α × σ := m.run.run s

/-- Give up with `err` unless the condition holds of the state. -/
def ensure (ok : σ → Bool) (err : ε) : Command ε σ Unit := do
  if ok (← get) then pure () else throw err

/-- Give up with `err` unless a call succeeded. -/
def check (ok : Bool) (err : ε) : Command ε σ Unit := ensure (fun _ => ok) err

def Triple (P : σ → Prop) (m : Command ε σ α) (Q : α → σ → Prop) (E : σ → Prop) : Prop :=
  ∀ s, P s →
    match exec m s with
    | (.ok a, s') => Q a s'
    | (.error _, s') => E s'

variable {P P' : σ → Prop} {Q Q' : α → σ → Prop} {R : β → σ → Prop} {E E' : σ → Prop}
  {m : Command ε σ α}

theorem exec_bind (m : Command ε σ α) (f : α → Command ε σ β) (s : σ) :
    exec (m >>= f) s =
      match exec m s with
      | (.ok a, s') => exec (f a) s'
      | (.error e, s') => (.error e, s') := by
  show StateT.run (ExceptT.run (m >>= f)) s = _
  simp only [exec, ExceptT.run_bind, StateT.run_bind]
  cases m.run.run s with
  | mk result s' => cases result <;> rfl

theorem Triple.pure {a : α} (h : ∀ s, P s → Q a s) : Triple P (pure a : Command ε σ α) Q E :=
  fun s hs => h s hs

theorem Triple.throw {e : ε} (h : ∀ s, P s → E s) : Triple P (throw e : Command ε σ α) Q E :=
  fun s hs => h s hs

theorem Triple.bind {f : α → Command ε σ β} (first : Triple P m Q E)
    (rest : ∀ a, Triple (Q a) (f a) R E) : Triple P (m >>= f) R E := by
  intro s hs
  have step := first s hs
  rw [exec_bind]
  split at step
  · rename_i a s' eq
    exact rest a s' step
  · exact step

theorem Triple.modify {f : σ → σ} {Q : Unit → σ → Prop} (h : ∀ s, P s → Q () (f s)) :
    Triple P (modify f : Command ε σ Unit) Q E :=
  fun s hs => h s hs

theorem Triple.modifyGet {f : σ → α × σ} (h : ∀ s, P s → Q (f s).1 (f s).2) :
    Triple P (modifyGet f : Command ε σ α) Q E :=
  fun s hs => h s hs

theorem Triple.get : Triple P (get : Command ε σ σ) (fun a s => P s ∧ a = s) E :=
  fun _ hs => ⟨hs, rfl⟩

theorem Triple.ensure {ok : σ → Bool} {err : ε} {Q : Unit → σ → Prop}
    (yes : ∀ s, P s → ok s = true → Q () s) (no : ∀ s, P s → ok s = false → E s) :
    Triple P (ensure ok err) Q E := by
  refine Triple.get.bind fun seen => ?_
  cases eq : ok seen with
  | true =>
      rw [if_pos rfl]
      refine .pure ?_
      rintro s ⟨hs, rfl⟩
      exact yes seen hs eq
  | false =>
      rw [if_neg Bool.false_ne_true]
      refine .throw ?_
      rintro s ⟨hs, rfl⟩
      exact no seen hs eq

theorem Triple.check {ok : Bool} {err : ε} {Q : Unit → σ → Prop}
    (yes : ok = true → ∀ s, P s → Q () s) (no : ok = false → ∀ s, P s → E s) :
    Triple P (check ok err) Q E :=
  .ensure (fun s hs h => yes h s hs) fun s hs h => no h s hs

theorem Triple.conseq (h : Triple P m Q E) (pre : ∀ s, P' s → P s) (post : ∀ a s, Q a s → Q' a s)
    (fail : ∀ s, E s → E' s) : Triple P' m Q' E' := by
  intro s hs
  have := h s (pre s hs)
  split at this
  · exact post _ _ this
  · exact fail _ this

/-- What holds however the program ends holds of the state it leaves. -/
theorem Triple.state (h : Triple P m (fun _ => E) E) {s : σ} (hs : P s) : E (exec m s).2 := by
  have ended := h s hs
  generalize exec m s = left at ended ⊢
  obtain ⟨result, s'⟩ := left
  cases result with
  | ok a => exact ended
  | error e => exact ended

/-- A fact about no state may be used in the proof about the program. -/
theorem Triple.fact {p : Prop} (h : p → Triple P m Q E) : Triple (fun s => P s ∧ p) m Q E :=
  fun s hs => h hs.2 s hs.1

/-- A loop keeps what each round keeps. -/
theorem Triple.forM {I : σ → Prop} {f : α → Command ε σ Unit} {l : List α}
    (each : ∀ a ∈ l, Triple I (f a) (fun _ => I) E) : Triple I (l.forM f) (fun _ => I) E := by
  induction l with
  | nil => exact .pure fun _ h => h
  | cons a rest ih =>
      have tail := ih fun b mem => each b (List.mem_cons_of_mem _ mem)
      exact (each a List.mem_cons_self).bind fun _ => tail

end Program
