import Mathlib.Logic.Function.Basic
import Nshgeoip.Lib.Machine

/-!
A loop over a list of keys with a machine for each of them.

The machine of the first key takes steps until its call returns; then the result is
noted and the next key has its turn, whatever the result was. `outcome` says of a
machine whether its call has returned, and how. Machines that have had their turn stay
as they are until the key comes again, so at the end of a round each of them still
shows the result that was noted last (`Recorded`), and each answer brings the round
nearer to its end (`height_work_lt`).
-/

namespace Sweep

open Machine

variable {K C ι : Type}

/-- The keys still to be tried, the first of them now, and the results so far. -/
structure Round (K : Type) where
  todo : List K
  tried : List (K × Bool)
  deriving DecidableEq

namespace Round

def start (keys : List K) : Round K := ⟨keys, []⟩

/-- The machine of the first key went from one outcome to another. A call that has
returned passes the turn on. -/
def note (r : Round K) (before after : Option Bool) : Round K :=
  match r.todo, before, after with
  | k :: rest, none, some ok => ⟨rest, r.tried ++ [(k, ok)]⟩
  | _, _, _ => r

/-- Some call has failed. -/
def failed (r : Round K) : Bool := r.tried.any fun result => !result.2

/-- Every key has its turn, in order and once for each time it is listed. -/
def Over (keys : List K) (r : Round K) : Prop := r.tried.map Prod.fst ++ r.todo = keys

/-- How the last call for a key ended. -/
def result [DecidableEq K] (r : Round K) (k : K) : Option Bool :=
  (r.tried.reverse.find? fun entry => entry.1 = k).map Prod.snd

variable {r : Round K} {keys : List K} {k : K} {rest : List K}

theorem start_over (keys : List K) : Over keys (start keys) := rfl

/-- A machine that still shows an earlier result has not been called yet. -/
theorem note_shown (shown : Bool) (after : Option Bool) : r.note (some shown) after = r := by
  cases first : r.todo <;> simp [note, first]

theorem note_busy (before : Option Bool) : r.note before none = r := by
  cases first : r.todo <;> simp [note, first]

theorem note_returned (first : r.todo = k :: rest) (ok : Bool) :
    r.note none (some ok) = ⟨rest, r.tried ++ [(k, ok)]⟩ := by
  simp only [note, first]

theorem Over.note (h : Over keys r) (before after : Option Bool) : Over keys (r.note before after) := by
  unfold Round.note
  split
  · rename_i k rest ok first
    unfold Over at h
    rw [first] at h
    simpa [Over] using h
  · exact h

section Results

variable [DecidableEq K]

theorem result_start (keys : List K) (k : K) : (start keys).result k = none := rfl

theorem result_append_self (tried : List (K × Bool)) (ok : Bool) :
    result ⟨rest, tried ++ [(k, ok)]⟩ k = some ok := by
  simp [result]

theorem result_append_other {other : K} (tried : List (K × Bool)) (ok : Bool) (apart : k ≠ other) :
    result ⟨rest, tried ++ [(k, ok)]⟩ other = result ⟨k :: rest, tried⟩ other := by
  simp [result, apart]

/-- A key that was tried has a result. -/
theorem exists_result (mem : k ∈ r.tried.map Prod.fst) : ∃ ok, (k, ok) ∈ r.tried ∧ r.result k = some ok := by
  obtain ⟨⟨key, ok⟩, entry, rfl⟩ := List.mem_map.mp mem
  cases found : r.tried.reverse.find? fun entry => entry.1 = key with
  | none =>
      have missing := List.find?_eq_none.mp found (key, ok) (List.mem_reverse.mpr entry)
      simp at missing
  | some last =>
      have same : last.1 = key := by simpa using List.find?_some found
      have here : last ∈ r.tried := List.mem_reverse.mp (List.mem_of_find?_eq_some found)
      subst same
      refine ⟨last.2, here, ?_⟩
      rw [result, found, Option.map_some]

end Results

end Round

/-! ### One step -/

variable [DecidableEq K] (next : C → ι → C) (outcome : C → Option Bool)

/-- A step of the machine whose turn it is. -/
def work (s : (K → C) × Round K) (input : ι) : (K → C) × Round K :=
  match s.2.todo with
  | [] => s
  | k :: _ =>
      (Function.update s.1 k (next (s.1 k) input),
        s.2.note (outcome (s.1 k)) (outcome (next (s.1 k) input)))

variable {next outcome}

/-- A machine shows the last result noted for its key, or is busy with the next. -/
def Recorded (outcome : C → Option Bool) (s : (K → C) × Round K) : Prop :=
  ∀ k ok, s.2.result k = some ok →
    outcome (s.1 k) = some ok ∨ s.2.todo.head? = some k ∧ outcome (s.1 k) = none

theorem start_recorded (parts : K → C) (keys : List K) : Recorded outcome (parts, Round.start keys) :=
  fun k _ noted => nomatch (Round.result_start keys k).symm.trans noted

/-- A call that has returned shows its result until the next one begins. -/
def Settles (next : C → ι → C) (outcome : C → Option Bool) : Prop :=
  ∀ c input ok, outcome c = some ok →
    outcome (next c input) = some ok ∨ outcome (next c input) = none

theorem work_recorded {s : (K → C) × Round K} (settles : Settles next outcome)
    (h : Recorded outcome s) (input : ι) : Recorded outcome (work next outcome s input) := by
  obtain ⟨parts, todo, tried⟩ := s
  cases todo with
  | nil => exact h
  | cons first rest =>
      intro k ok noted
      by_cases mine : k = first
      · subst mine
        simp only [work, Function.update_self] at noted ⊢
        cases before : outcome (parts k) with
        | some shown =>
            rw [before, Round.note_shown] at noted
            have same : shown = ok := by
              rcases h k ok noted with now | ⟨_, none⟩
              · exact Option.some.inj (before.symm.trans now)
              · nomatch before.symm.trans none
            subst same
            rw [Round.note_shown]
            rcases settles (parts k) input shown before with still | called
            · exact Or.inl still
            · exact Or.inr ⟨rfl, called⟩
        | none =>
            rw [before] at noted
            cases after : outcome (next (parts k) input) with
            | none =>
                rw [Round.note_busy]
                exact Or.inr ⟨rfl, rfl⟩
            | some returned =>
                rw [after, Round.note_returned rfl, Round.result_append_self] at noted
                exact Or.inl noted
      · simp only [work, Function.update_of_ne mine] at noted ⊢
        have earlier : Round.result ⟨first :: rest, tried⟩ k = some ok := by
          cases before : outcome (parts first) with
          | some shown => rwa [before, Round.note_shown] at noted
          | none =>
              cases after : outcome (next (parts first) input) with
              | none => rwa [before, after, Round.note_busy] at noted
              | some returned =>
                  rwa [before, after, Round.note_returned rfl,
                    Round.result_append_other _ _ (Ne.symm mine)] at noted
        rcases h k ok earlier with shown | ⟨turn, _⟩
        · exact Or.inl shown
        · exact absurd (Option.some.inj turn).symm mine

/-- **At the end of a round** every listed key shows its last result. -/
theorem Recorded.finished {s : (K → C) × Round K} {keys : List K} (h : Recorded outcome s)
    (covers : Round.Over keys s.2) (done : s.2.todo = []) {k : K} (mem : k ∈ keys) :
    ∃ ok, (k, ok) ∈ s.2.tried ∧ outcome (s.1 k) = some ok := by
  rw [Round.Over, done, List.append_nil] at covers
  rw [← covers] at mem
  obtain ⟨ok, entry, noted⟩ := Round.exists_result mem
  refine ⟨ok, entry, ?_⟩
  rcases h k ok noted with shown | ⟨turn, _⟩
  · exact shown
  · rw [done] at turn
    nomatch turn

/-- When no call has failed, all of them show success. -/
theorem Recorded.succeeded {s : (K → C) × Round K} {keys : List K} (h : Recorded outcome s)
    (covers : Round.Over keys s.2) (done : s.2.todo = []) (success : s.2.failed = false) {k : K}
    (mem : k ∈ keys) : outcome (s.1 k) = some true := by
  obtain ⟨ok, entry, shown⟩ := h.finished covers done mem
  have fine : ok = true := by
    simpa using (List.any_eq_false.mp success) (k, ok) entry
  rw [shown, fine]

/-! ### How long a round takes -/

/-- An input that answers the machine brings it nearer to its return. -/
structure Ranked (next : C → ι → C) (outcome : C → Option Bool) (answers : C → ι → Bool)
    (rank : C → ℕ) (bound : ℕ) : Prop where
  le : ∀ c, rank c ≤ bound
  drops : ∀ c input, answers c input = true →
    outcome (next c input) = none ∧ rank (next c input) < rank c ∨
      outcome c = none ∧ 0 < rank c ∧ outcome (next c input) ≠ none

variable {answers : C → ι → Bool} {rank : C → ℕ} {bound : ℕ}

/-- The input answers the machine whose turn it is. -/
def Answered (answers : C → ι → Bool) (s : (K → C) × Round K) (input : ι) : Prop :=
  ∃ k rest, s.2.todo = k :: rest ∧ answers (s.1 k) input = true

/-- The steps that are left at most. -/
def height (rank : C → ℕ) (bound : ℕ) (s : (K → C) × Round K) : ℕ :=
  match s.2.todo with
  | [] => 0
  | k :: rest => rank (s.1 k) + rest.length * bound

omit [DecidableEq K] in
theorem height_le (ranked : Ranked next outcome answers rank bound) (s : (K → C) × Round K) :
    height rank bound s ≤ s.2.todo.length * bound := by
  unfold height
  split
  · exact Nat.zero_le _
  · rename_i k rest first
    have near := ranked.le (s.1 k)
    rw [first, List.length_cons, Nat.succ_mul]
    omega

theorem height_work_lt (ranked : Ranked next outcome answers rank bound) {s : (K → C) × Round K}
    {input : ι} (answered : Answered answers s input) :
    height rank bound (work next outcome s input) < height rank bound s := by
  obtain ⟨k, rest, first, answer⟩ := answered
  have now : height rank bound s = rank (s.1 k) + rest.length * bound := by
    simp only [height, first]
  have then_ : work next outcome s input = (Function.update s.1 k (next (s.1 k) input),
      s.2.note (outcome (s.1 k)) (outcome (next (s.1 k) input))) := by
    simp only [work, first]
  rw [now, then_]
  rcases ranked.drops (s.1 k) input answer with ⟨busy, drop⟩ | ⟨running, positive, returns⟩
  · rw [busy, Round.note_busy]
    simp only [height, first, Function.update_self]
    omega
  · obtain ⟨ok, returned⟩ := Option.ne_none_iff_exists'.mp returns
    rw [running, returned, Round.note_returned first]
    have rest_le := height_le ranked
      (Function.update s.1 k (next (s.1 k) input), (⟨rest, s.2.tried ++ [(k, ok)]⟩ : Round K))
    dsimp only at rest_le
    omega

end Sweep
