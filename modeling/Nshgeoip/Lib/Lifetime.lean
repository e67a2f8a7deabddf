import Mathlib.Data.List.Perm.Basic
import Mathlib.Data.List.Nodup

/-!
Lifetimes of resources, read off a log.

A log is the sequence of acquisitions, uses and releases of named resources.
`Owned log held` says that the log is disciplined (only live resources are used
or released, and no name is given out twice) and that exactly the resources of
the list `held` are live at its end. Each event has a rule that moves `held`
along; from `Owned log []` every resource was released exactly once.
-/

namespace Lifetime

variable {η : Type}

inductive Event (η : Type) where
  | acquire (h : η)
  | use (h : η)
  | release (h : η)
  deriving DecidableEq

def Event.acquired : Event η → Option η
  | .acquire h => some h
  | _ => none

/-- The resources acquired, in order. -/
def acquired (log : List (Event η)) : List η := log.filterMap Event.acquired

/-- Acquired and not released. -/
def Live (log : List (Event η)) (h : η) : Prop := .acquire h ∈ log ∧ .release h ∉ log

/-- What may follow a log. -/
def Allowed (log : List (Event η)) : Event η → Prop
  | .acquire h => .acquire h ∉ log
  | .use h => Live log h
  | .release h => Live log h

/-- Every event was allowed when it happened. -/
def Disciplined (log : List (Event η)) : Prop :=
  ∀ pre e post, log = pre ++ e :: post → Allowed pre e

variable {log : List (Event η)} {h : η} {held held' : List η}

theorem acquired_uses (hs : List η) : acquired (log ++ hs.map .use) = acquired log := by
  simp [acquired, List.filterMap_map, Function.comp_def, Event.acquired]

theorem acquired_releases (hs : List η) : acquired (log ++ hs.map .release) = acquired log := by
  simp [acquired, List.filterMap_map, Function.comp_def, Event.acquired]

theorem Disciplined.snoc (disciplined : Disciplined log) {e : Event η} (allowed : Allowed log e) :
    Disciplined (log ++ [e]) := by
  intro pre e' post eq
  rcases List.eq_nil_or_concat post with rfl | ⟨post, last, rfl⟩
  · obtain ⟨rfl, same⟩ := List.append_inj' eq rfl
    cases same
    exact allowed
  · have eq' : log ++ [e] = (pre ++ e' :: post) ++ [last] := by simpa using eq
    exact disciplined pre e' post (List.append_inj' eq' rfl).1

/-- Nothing is released twice. -/
theorem Disciplined.not_mem_release (disciplined : Disciplined log) {pre post : List (Event η)}
    (eq : log = pre ++ .release h :: post) : .release h ∉ pre ∧ .release h ∉ post := by
  refine ⟨(disciplined pre _ post eq).2, fun again => ?_⟩
  obtain ⟨mid, rest, rfl⟩ := List.append_of_mem again
  have second : log = (pre ++ .release h :: mid) ++ .release h :: rest := by simpa using eq
  exact (disciplined _ _ _ second).2 (by simp)

theorem Disciplined.count_release_le [DecidableEq η] (disciplined : Disciplined log) (h : η) :
    log.count (.release h) ≤ 1 := by
  by_cases mem : .release h ∈ log
  · obtain ⟨pre, post, eq⟩ := List.append_of_mem mem
    obtain ⟨before, after⟩ := disciplined.not_mem_release eq
    have count : log.count (.release h) = 1 := by
      rw [eq, List.count_append, List.count_cons_self, List.count_eq_zero.mpr before,
        List.count_eq_zero.mpr after]
    exact Nat.le_of_eq count
  · rw [List.count_eq_zero.mpr mem]
    exact Nat.zero_le 1

/-- The resources that are live at the end of a disciplined log. -/
structure Owned (log : List (Event η)) (held : List η) : Prop where
  disciplined : Disciplined log
  nodup : held.Nodup
  live_iff : ∀ h, Live log h ↔ h ∈ held

theorem owned_nil : Owned ([] : List (Event η)) [] := by
  refine ⟨?_, .nil, fun h => ?_⟩
  · intro pre e post eq
    simp at eq
  · simp [Live]

theorem Owned.perm (owned : Owned log held) (perm : held.Perm held') : Owned log held' :=
  ⟨owned.disciplined, perm.nodup owned.nodup, fun h => (owned.live_iff h).trans perm.mem_iff⟩

theorem Owned.acquire (owned : Owned log held) (fresh : .acquire h ∉ log) :
    Owned (log ++ [.acquire h]) (h :: held) := by
  have dead : ¬ Live log h := fun live => fresh live.1
  have unreleased : .release h ∉ log := by
    intro mem
    obtain ⟨pre, post, eq⟩ := List.append_of_mem mem
    exact fresh (by rw [eq]; exact List.mem_append_left _ (owned.disciplined pre _ post eq).1)
  refine ⟨owned.disciplined.snoc fresh, ?_, fun h' => ?_⟩
  · exact owned.nodup.cons fun mem => dead ((owned.live_iff h).mpr mem)
  · by_cases same : h' = h
    · subst same
      simp [Live, unreleased]
    · have before := owned.live_iff h'
      simpa [Live, same] using before

theorem Owned.use (owned : Owned log held) (mem : h ∈ held) : Owned (log ++ [.use h]) held := by
  refine ⟨owned.disciplined.snoc ((owned.live_iff h).mpr mem), owned.nodup, fun h' => ?_⟩
  have before := owned.live_iff h'
  simpa [Live] using before

theorem Owned.release (owned : Owned log (h :: held)) : Owned (log ++ [.release h]) held := by
  have live : Live log h := (owned.live_iff h).mpr List.mem_cons_self
  obtain ⟨absent, nodup⟩ := List.nodup_cons.mp owned.nodup
  refine ⟨owned.disciplined.snoc live, nodup, fun h' => ?_⟩
  by_cases same : h' = h
  · subst same
    simp [Live, absent]
  · have before := owned.live_iff h'
    simp only [Live, List.mem_cons, same, false_or] at before
    simpa [Live, same] using before

/-- Several uses and several releases in a row. -/
theorem Owned.uses (owned : Owned log held) {hs : List η} (mem : ∀ h ∈ hs, h ∈ held) :
    Owned (log ++ hs.map .use) held := by
  induction hs generalizing log with
  | nil => simpa using owned
  | cons h hs ih =>
      have first := owned.use (mem h List.mem_cons_self)
      have rest := ih first fun h' mem' => mem h' (List.mem_cons_of_mem _ mem')
      simpa using rest

theorem Owned.releases {hs : List η} (owned : Owned log (hs ++ held)) :
    Owned (log ++ hs.map .release) held := by
  induction hs generalizing log with
  | nil => simpa using owned
  | cons h hs ih =>
      have rest := ih owned.release
      simpa using rest

/-- **With nothing held, everything acquired was released exactly once.** -/
theorem Owned.released_once [DecidableEq η] (owned : Owned log []) (mem : .acquire h ∈ log) :
    log.count (.release h) = 1 := by
  have released : .release h ∈ log := by
    by_contra absent
    exact List.not_mem_nil ((owned.live_iff h).mp ⟨mem, absent⟩)
  have once := owned.disciplined.count_release_le h
  have some_release := List.count_pos_iff.mpr released
  omega

end Lifetime
