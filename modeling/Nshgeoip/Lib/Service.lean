import Nshgeoip.Lib.Sweep

/-!
Services that sweep over a list of keys, sleep and start again.

One store holds the machines of all keys; an input for one of them leaves the others as
they are (`get_apply`). A cycle may begin with a preparation, in which any listed
machine may be given inputs of its own; the round over the keys follows when it
succeeds. The service can be stopped at any moment, which interrupts the machine whose
turn it is, and started again on the store it left.

An event gives an input to one machine or to none (`Step.store`). So what each input
keeps of a machine is kept for all (`next_parts`); the results a cycle has noted are
still shown when the service sleeps (`next_reports`).
-/

namespace Sweep

open Machine

structure Service (σ K C ι : Type) [DecidableEq K] where
  keys : List K
  get : σ → K → C
  next : C → ι → C
  apply : σ → K → ι → σ
  outcome : C → Option Bool
  /-- The inputs that answer a call. -/
  commands : ι → Bool
  /-- The inputs of the preparation. -/
  prepares : ι → Bool
  interrupt : ι
  /-- Cycles begin with a preparation. -/
  preparing : Bool
  /-- There is only one cycle. -/
  once : Bool
  get_apply : ∀ store k input,
    get (apply store k input) = Function.update (get store) k (next (get store k) input)
  settles : Settles next outcome

inductive Phase (K : Type) where
  | preparing
  | working (round : Round K)
  /-- The round is missing when the preparation failed. -/
  | sleeping (round : Option (Round K))
  | finished (round : Option (Round K))
  | stopped
  deriving DecidableEq

/-- The round that is going on or has come to its end. -/
def Phase.round {K : Type} : Phase K → Option (Round K)
  | .working round => some round
  | .sleeping round => round
  | .finished round => round
  | _ => none

/-- The round after which the service rests. -/
def Phase.rests {K : Type} : Phase K → Option (Round K)
  | .sleeping round => round
  | .finished round => round
  | _ => none

inductive Event (K ι : Type) where
  | prepare (k : K) (input : ι)
  | prepared (ok : Bool)
  /-- For the machine whose turn it is. -/
  | command (input : ι)
  /-- The next command of the service's own loop. -/
  | loop
  | stop
  | restart

structure Status (σ K : Type) where
  store : σ
  phase : Phase K
  /-- The results of the cycles that came to their end, none where the preparation failed. -/
  cycles : List (Option (List (K × Bool)))

namespace Service

variable {σ K C ι : Type} [DecidableEq K] (S : Service σ K C ι)

/-- The first phase of a cycle. -/
def first : Phase K := if S.preparing then .preparing else .working (.start S.keys)

def start (store : σ) : Status σ K := ⟨store, S.first, []⟩

/-- An input for the machine of the first key of the round. -/
def work (s : Status σ K) (round : Round K) (k : K) (input : ι) : Status σ K :=
  { s with
    store := S.apply s.store k input
    phase := .working (round.note (S.outcome (S.get s.store k))
      (S.outcome (S.next (S.get s.store k) input))) }

/-- The end of a cycle. How it went does not change what comes next. -/
def endCycle (s : Status σ K) (round : Option (Round K)) : Status σ K :=
  { s with
    phase := if S.once then .finished round else .sleeping round
    cycles := s.cycles ++ [round.map Round.tried] }

/-- The call that is going on is given up where it is. -/
def abandon (s : Status σ K) (round : Round K) : Status σ K :=
  match round.todo with
  | [] => { s with phase := .stopped }
  | k :: _ => { s with store := S.apply s.store k S.interrupt, phase := .stopped }

/-- One event. Those that do not belong to the phase change nothing. -/
def react (s : Status σ K) (event : Event K ι) : Status σ K :=
  match s.phase, event with
  | .preparing, .prepare k input =>
      if k ∈ S.keys ∧ S.prepares input = true then { s with store := S.apply s.store k input } else s
  | .preparing, .prepared true => { s with phase := .working (.start S.keys) }
  | .preparing, .prepared false => S.endCycle s none
  | .working round, .command input =>
      match round.todo with
      | [] => s
      | k :: _ => if S.commands input = true then S.work s round k input else s
  | .working round, .loop => if round.todo = [] then S.endCycle s (some round) else s
  | .sleeping _, .loop => { s with phase := S.first }
  | .working round, .stop => S.abandon s round
  | .preparing, .stop => { s with phase := .stopped }
  | .sleeping _, .stop => { s with phase := .stopped }
  | .stopped, .restart => { s with phase := S.first }
  | .finished _, .restart => { s with phase := S.first }
  | _, _ => s

/-- What an event does, with the phase it needs. -/
inductive Step (s : Status σ K) : Event K ι → Status σ K → Prop
  | prepare {k : K} {input : ι} (at_ : s.phase = .preparing) (listed : k ∈ S.keys)
      (fits : S.prepares input = true) :
      Step s (.prepare k input) { s with store := S.apply s.store k input }
  | begin {event : Event K ι} {phase : Phase K} (quiet : phase = .preparing ∨ phase = .working (.start S.keys)) :
      Step s event { s with phase := phase }
  | work {round : Round K} {k : K} {rest : List K} {input : ι} (at_ : s.phase = .working round)
      (turn : round.todo = k :: rest) (fits : S.commands input = true) :
      Step s (.command input) (S.work s round k input)
  | fail {event : Event K ι} : Step s event (S.endCycle s none)
  | endCycle {event : Event K ι} {round : Round K} (at_ : s.phase = .working round)
      (done : round.todo = []) : Step s event (S.endCycle s (some round))
  | abandon {round : Round K} {k : K} {rest : List K} (at_ : s.phase = .working round)
      (turn : round.todo = k :: rest) :
      Step s .stop { s with store := S.apply s.store k S.interrupt, phase := .stopped }
  | halt {event : Event K ι} : Step s event { s with phase := .stopped }
  | stay {event : Event K ι} : Step s event s

variable {S} {s s' : Status σ K} {event : Event K ι}

theorem first_eq (S : Service σ K C ι) : S.first = .preparing ∨ S.first = .working (.start S.keys) := by
  unfold first
  split_ifs
  · exact Or.inl rfl
  · exact Or.inr rfl

theorem react_step (S : Service σ K C ι) (s : Status σ K) (event : Event K ι) :
    S.Step s event (S.react s event) := by
  unfold react
  split
  · rename_i k input at_
    split_ifs with fits
    · exact .prepare at_ fits.1 fits.2
    · exact .stay
  · exact .begin (Or.inr rfl)
  · exact .fail
  · rename_i round input at_
    split
    · exact .stay
    · rename_i k rest turn
      split_ifs with fits
      · exact .work at_ turn fits
      · exact .stay
  · rename_i round at_
    split_ifs with done
    · exact .endCycle at_ done
    · exact .stay
  · exact .begin S.first_eq
  · rename_i round at_
    unfold Service.abandon
    split
    · exact .halt
    · rename_i k rest turn
      exact .abandon at_ turn
  · exact .halt
  · exact .halt
  · exact .begin S.first_eq
  · exact .begin S.first_eq
  · exact .stay

/-! ### The order of the keys -/

/-- Every cycle tries the listed keys in order, each once for each time it is listed. -/
structure Ordered (S : Service σ K C ι) (s : Status σ K) : Prop where
  round : ∀ round, s.phase.round = some round → Round.Over S.keys round
  cycles : ∀ results, some results ∈ s.cycles → results.map Prod.fst = S.keys

theorem Ordered.working (h : Ordered S s) {round : Round K} (at_ : s.phase = .working round) :
    Round.Over S.keys round :=
  h.round round (by rw [at_]; rfl)

theorem endCycle_round (s : Status σ K) (round : Option (Round K)) :
    (S.endCycle s round).phase.round = round := by
  unfold Service.endCycle
  split_ifs <;> rfl

/-- A phase without a round leaves nothing to say of it. -/
theorem Ordered.goto (h : Ordered S s) {phase : Phase K} (roundless : phase.round = none) :
    Ordered S { s with phase := phase } where
  round := by
    intro round here
    exact absurd (roundless.symm.trans here) (Option.some_ne_none round).symm
  cycles := h.cycles

theorem Ordered.begin (h : Ordered S s) {phase : Phase K}
    (quiet : phase = .preparing ∨ phase = .working (.start S.keys)) :
    Ordered S { s with phase := phase } := by
  rcases quiet with rfl | rfl
  · exact h.goto rfl
  · refine ⟨?_, h.cycles⟩
    rintro _ ⟨⟩
    exact Round.start_over _

theorem Step.ordered (step : S.Step s event s') (h : Ordered S s) : Ordered S s' := by
  cases step with
  | prepare at_ listed fits => exact ⟨h.round, h.cycles⟩
  | begin quiet => exact h.begin quiet
  | work at_ turn fits =>
      refine ⟨?_, h.cycles⟩
      rintro _ ⟨⟩
      exact (h.working at_).note _ _
  | fail =>
      have same : (S.endCycle s none).phase.round = none := endCycle_round s none
      constructor
      · intro round here
        exact absurd (same.symm.trans here) (Option.some_ne_none round).symm
      · intro results mem
        rcases List.mem_append.mp mem with earlier | now
        · exact h.cycles results earlier
        · exact absurd (List.mem_singleton.mp now) (Option.some_ne_none results)
  | @endCycle _ round at_ done =>
      have covers := h.working at_
      constructor
      · intro other here
        obtain rfl := Option.some.inj ((endCycle_round s (some round)).symm.trans here)
        exact covers
      · intro results mem
        rcases List.mem_append.mp mem with earlier | now
        · exact h.cycles results earlier
        · rw [Option.some.inj (List.mem_singleton.mp now)]
          rwa [Round.Over, done, List.append_nil] at covers
  | abandon at_ turn => exact ⟨(h.goto rfl).round, h.cycles⟩
  | halt => exact h.goto rfl
  | stay => exact h

theorem start_ordered (S : Service σ K C ι) (store : σ) : Ordered S (S.start store) := by
  have idle : Ordered S ⟨store, .stopped, []⟩ :=
    { round := fun _ no => nomatch no
      cycles := fun _ no => absurd no List.not_mem_nil }
  exact idle.begin S.first_eq

/-! ### One machine at a time -/

/-- The event gives the machine of the key the input. -/
inductive Gives (S : Service σ K C ι) (s : Status σ K) : Event K ι → K → ι → Prop
  | prepare {k : K} {input : ι} (fits : S.prepares input = true) : Gives S s (.prepare k input) k input
  | command {round : Round K} {k : K} {rest : List K} {input : ι} (at_ : s.phase = .working round)
      (turn : round.todo = k :: rest) (fits : S.commands input = true) :
      Gives S s (.command input) k input
  | stop {k : K} : Gives S s .stop k S.interrupt

/-- **An event gives an input to one listed machine, or to none.** -/
theorem Step.store (step : S.Step s event s') (h : Ordered S s) :
    s'.store = s.store ∨
      ∃ k ∈ S.keys, ∃ input, Gives S s event k input ∧ s'.store = S.apply s.store k input := by
  have turn_listed : ∀ {round k rest}, s.phase = .working round → round.todo = k :: rest → k ∈ S.keys := by
    intro round k rest at_ turn
    rw [← h.working at_, turn]
    exact List.mem_append_right _ List.mem_cons_self
  cases step with
  | @prepare k input at_ listed fits => exact Or.inr ⟨k, listed, input, .prepare fits, rfl⟩
  | @work round k rest input at_ turn fits =>
      exact Or.inr ⟨k, turn_listed at_ turn, input, .command at_ turn fits, rfl⟩
  | @abandon round k rest at_ turn =>
      exact Or.inr ⟨k, turn_listed at_ turn, S.interrupt, .stop, rfl⟩
  | begin quiet => exact Or.inl rfl
  | fail => exact Or.inl rfl
  | endCycle at_ done => exact Or.inl rfl
  | halt => exact Or.inl rfl
  | stay => exact Or.inl rfl

/-- What each input keeps of its machine is kept of all machines. -/
theorem Step.parts (Inv : K → C → Prop) (ok : C → ι → Prop)
    (keeps : ∀ k c input, Inv k c → ok c input → Inv k (S.next c input)) (step : S.Step s event s')
    (ordered : Ordered S s) (allowed : ∀ k input, Gives S s event k input → ok (S.get s.store k) input)
    (h : ∀ k, Inv k (S.get s.store k)) (k : K) : Inv k (S.get s'.store k) := by
  rcases step.store ordered with same | ⟨active, -, input, given, moves⟩
  · rw [same]
    exact h k
  · rw [moves, S.get_apply]
    by_cases mine : k = active
    · subst mine
      rw [Function.update_self]
      exact keeps k _ input (h k) (allowed k input given)
    · rw [Function.update_of_ne mine]
      exact h k

/-- What inputs for listed keys keep of the store is kept. -/
theorem Step.holds (Inv : σ → Prop) (ok : C → ι → Prop)
    (keeps : ∀ store, ∀ k ∈ S.keys, ∀ input, Inv store → ok (S.get store k) input →
      Inv (S.apply store k input))
    (step : S.Step s event s') (ordered : Ordered S s)
    (allowed : ∀ k input, Gives S s event k input → ok (S.get s.store k) input) (h : Inv s.store) :
    Inv s'.store := by
  rcases step.store ordered with same | ⟨active, listed, input, given, moves⟩
  · rw [same]
    exact h
  · rw [moves]
    exact keeps s.store active listed input h (allowed active input given)

/-! ### What a cycle has reported -/

/-- The machines show what the round has noted of them; while the service rests, the round
is over. -/
structure Reports (S : Service σ K C ι) (s : Status σ K) : Prop where
  ordered : Ordered S s
  recorded : ∀ round, s.phase.round = some round → Recorded S.outcome (S.get s.store, round)
  done : ∀ round, s.phase.rests = some round → round.todo = []

/-- Where no round is going on or has ended there is nothing to report. -/
theorem Reports.of_roundless (ordered : Ordered S s) (roundless : s.phase.round = none)
    (restless : s.phase.rests = none) : Reports S s where
  ordered := ordered
  recorded := fun round here => absurd (roundless.symm.trans here) (Option.some_ne_none round).symm
  done := fun round here => absurd (restless.symm.trans here) (Option.some_ne_none round).symm

theorem Reports.working (ordered : Ordered S s) {round : Round K} (at_ : s.phase = .working round)
    (recorded : Recorded S.outcome (S.get s.store, round)) : Reports S s where
  ordered := ordered
  recorded := by
    rw [at_]
    rintro _ ⟨⟩
    exact recorded
  done := by
    rw [at_]
    exact fun _ no => nomatch no

theorem Reports.begin (ordered : Ordered S s)
    (quiet : s.phase = .preparing ∨ s.phase = .working (.start S.keys)) : Reports S s := by
  rcases quiet with prepares | works
  · exact .of_roundless ordered (by rw [prepares]; rfl) (by rw [prepares]; rfl)
  · exact .working ordered works (start_recorded _ _)

theorem endCycle_rests (s : Status σ K) (round : Option (Round K)) :
    (S.endCycle s round).phase.rests = round := by
  unfold Service.endCycle
  split_ifs <;> rfl

theorem Step.reports (step : S.Step s event s') (h : Reports S s) : Reports S s' := by
  have ordered := step.ordered h.ordered
  cases step with
  | prepare at_ listed fits => exact .begin ordered (Or.inl at_)
  | begin quiet => exact .begin ordered quiet
  | @work round k rest input at_ turn fits =>
      have after := work_recorded S.settles (h.recorded round (by rw [at_]; rfl)) input
      simp only [Sweep.work, turn] at after
      refine .working ordered rfl ?_
      rw [Service.work, S.get_apply]
      exact after
  | fail => exact .of_roundless ordered (endCycle_round s none) (endCycle_rests s none)
  | @endCycle _ round at_ done =>
      refine ⟨ordered, ?_, ?_⟩
      · intro other here
        obtain rfl := Option.some.inj ((endCycle_round s (some round)).symm.trans here)
        exact h.recorded round (by rw [at_]; rfl)
      · intro other here
        obtain rfl := Option.some.inj ((endCycle_rests s (some round)).symm.trans here)
        exact done
  | abandon at_ turn => exact .of_roundless ordered rfl rfl
  | halt => exact .of_roundless ordered rfl rfl
  | stay => exact h

theorem start_reports (S : Service σ K C ι) (store : σ) : Reports S (S.start store) :=
  .begin (S.start_ordered store) S.first_eq

theorem reports (S : Service σ K C ι) (store : σ) (events : List (Event K ι)) :
    Reports S (run S.react (S.start store) events) :=
  run_always (fun s event => (S.react_step s event).reports) (S.start_reports store) events

omit [DecidableEq K] in
theorem round_of_rests {phase : Phase K} {round : Round K} (h : phase.rests = some round) :
    phase.round = some round := by
  cases phase with
  | sleeping rest => exact h
  | finished rest => exact h
  | _ => nomatch h

/-- **While the service rests**, every listed machine shows its last result. -/
theorem Reports.finished (h : Reports S s) {round : Round K} (resting : s.phase.rests = some round) {k : K}
    (listed : k ∈ S.keys) : ∃ ok, (k, ok) ∈ round.tried ∧ S.outcome (S.get s.store k) = some ok :=
  (h.recorded round (round_of_rests resting)).finished
    (h.ordered.round round (round_of_rests resting)) (h.done round resting) listed

theorem Reports.succeeded (h : Reports S s) {round : Round K} (resting : s.phase.rests = some round)
    (success : round.failed = false) {k : K} (listed : k ∈ S.keys) :
    S.outcome (S.get s.store k) = some true :=
  (h.recorded round (round_of_rests resting)).succeeded
    (h.ordered.round round (round_of_rests resting)) (h.done round resting) success listed

/-! ### How long a round takes -/

variable {answers : C → ι → Bool} {rank : C → ℕ} {bound : ℕ}

/-- The event answers the machine whose turn it is. -/
def Answers (S : Service σ K C ι) (answers : C → ι → Bool) (s : Status σ K) (event : Event K ι) : Prop :=
  ∃ round k rest input, s.phase = .working round ∧ round.todo = k :: rest ∧ event = .command input ∧
    S.commands input = true ∧ answers (S.get s.store k) input = true

/-- The commands that are left in the round at most. -/
def left (S : Service σ K C ι) (rank : C → ℕ) (bound : ℕ) (s : Status σ K) : ℕ :=
  match s.phase with
  | .working round => height rank bound (S.get s.store, round)
  | _ => 0

theorem left_react_lt (ranked : Ranked S.next S.outcome answers rank bound) (s : Status σ K)
    (event : Event K ι) (answered : S.Answers answers s event) :
    S.left rank bound (S.react s event) < S.left rank bound s := by
  obtain ⟨round, k, rest, input, at_, turn, rfl, fits, answer⟩ := answered
  have turns : Answered answers (S.get s.store, round) input := ⟨k, rest, turn, answer⟩
  have lower := height_work_lt ranked turns
  have works : Sweep.work S.next S.outcome (S.get s.store, round) input =
      (S.get (S.work s round k input).store,
        round.note (S.outcome (S.get s.store k)) (S.outcome (S.next (S.get s.store k) input))) := by
    rw [Service.work, S.get_apply]
    simp only [Sweep.work, turn]
  have moves : S.react s (.command input) = S.work s round k input := by
    simp only [react, at_, turn, fits, if_true]
  have before : S.left rank bound s = height rank bound (S.get s.store, round) := by
    simp only [left, at_]
  rw [moves, before]
  rw [works] at lower
  exact lower

/-- **No sequence of answers outlasts the round.** -/
theorem length_le_of_answers (ranked : Ranked S.next S.outcome answers rank bound) {round : Round K}
    (at_ : s.phase = .working round) {events : List (Event K ι)}
    (answered : Allowed S.react (S.Answers answers) s events) :
    events.length ≤ round.todo.length * bound := by
  have spent := length_le_of_decreasing (S.left rank bound) (left_react_lt ranked) answered
  have near : S.left rank bound s ≤ round.todo.length * bound := by
    unfold left
    rw [at_]
    exact height_le ranked (S.get s.store, round)
  exact Nat.le_trans spent near

end Service

end Sweep
