import Nshgeoip.GeoipSync.Script

/-!
What geoip-sync.sh keeps over whole runs, for all its editions at once.

A command for one edition leaves the clients of the others, so what the client keeps for
one edition holds for each, and the names outside the editions' sections never change.
Every cycle gets through its list whatever becomes of the single calls.
-/

namespace Nshgeoip.GeoipSync

open ByteText ShellText Machine Sections Sweep Workspace

variable {D : Digests} {editions : List Bytes} {interval : ℕ}

/-! ### Safety of the whole directory -/

/-- Only names of the edition are written. -/
theorem files_updateDatabase {w : Workspace} {edition : Bytes} {answer : Answer} {name : Bytes}
    (apart : ∀ place, naming.name edition place ≠ name) :
    (w.updateDatabase D edition answer).files name = w.files name :=
  Naming.put_of_not_named apart

/-- What every run keeps, with the files that were there at first. -/
structure Guarded (D : Digests) (editions : List Bytes) (interval : ℕ) (files : Bytes → Option Bytes)
    (s : Status Workspace Bytes) : Prop where
  ordered : (script D editions interval).Ordered s
  clients : ∀ edition,
    Client.Safe D (files (naming.name edition (.final .database))) (s.store.client edition)
  outside : ∀ name, naming.Outside editions name → s.store.files name = files name

theorem next_guarded {files : Bytes → Option Bytes} (s : Status Workspace Bytes)
    (event : Event Bytes Answer) (h : Guarded D editions interval files s) :
    Guarded D editions interval files ((script D editions interval).react s event) := by
  have step := (script D editions interval).react_step s event
  refine ⟨step.ordered h.ordered, ?_, ?_⟩
  · refine step.parts (fun edition => Client.Safe D (files (naming.name edition (.final .database))))
      (fun _ _ => True) ?_ h.ordered (fun _ _ _ => trivial) h.clients
    intro edition c answer safe _
    exact Client.next_safe c answer.input safe
  · intro name apart
    refine step.holds (fun w => w.files name = files name) (fun _ _ => True) ?_ h.ordered
      (fun _ _ _ => trivial) (h.outside name apart)
    intro w edition listed answer same _
    exact (files_updateDatabase (apart edition listed)).trans same

theorem start_guarded (D : Digests) (editions : List Bytes) (interval : ℕ)
    (files : Bytes → Option Bytes) :
    Guarded D editions interval files ((script D editions interval).start (.start files)) where
  ordered := (script D editions interval).start_ordered _
  clients := fun edition => Client.start_safe D ((Workspace.start files).dir edition)
  outside := fun _ _ => rfl

/-- **The directory is safe whatever happens**: in every run of the script over any list
of editions, with any answers, failures, signals and restarts, the database of each
edition is the one there at first or has both digests that one call for this edition was
told; an edition whose last call failed has the four files that call found; and no file
outside the listed editions is touched. -/
theorem script_safe (D : Digests) (editions : List Bytes) (interval : ℕ)
    (files : Bytes → Option Bytes) (events : List (Event Bytes Answer)) :
    let S := script D editions interval
    let w := (run S.react (S.start (.start files)) events).store
    (∀ edition, let path := naming.name edition (.final .database)
      w.files path = files path ∨
        ∃ content, w.files path = some content ∧
          Client.Certified D (w.memory edition).certificates content) ∧
    (∀ edition, (w.memory edition).pc = .returned false →
      ∀ slot, w.files (naming.name edition (.final slot)) = (w.memory edition).entry slot) ∧
    (∀ name, naming.Outside editions name → w.files name = files name) := by
  intro S w
  have guarded := run_always next_guarded (start_guarded D editions interval files) events
  refine ⟨?_, ?_, guarded.outside⟩
  · intro edition
    exact (guarded.clients edition).trusted
  · intro edition failed slot
    have early : Client.mayHaveMoved (w.client edition).pc = false := by
      show Client.mayHaveMoved (w.memory edition).pc = false
      rw [failed]
      rfl
    exact congrFun ((guarded.clients edition).untouched early) slot

/-! ### A cycle comes to its end -/

/-- The input is what the next command waits for. -/
def answersPc : Pc → Input → Bool
  | .downloadSha256, .downloaded _ => true
  | .downloadDatabase _, .downloaded _ => true
  | .downloadMd5, .downloaded _ => true
  | .downloadMetadata, .downloaded _ => true
  | .stamp, .stamped _ => true
  | .move _, .moved _ => true
  | .idle, .step => true
  | .returned _, .step => true
  | .removeTemporaries, .step => true
  | .readSha256, .step => true
  | .compareCurrent _, .step => true
  | .verifySha256 _, .step => true
  | .readMd5, .step => true
  | .verifyMd5 _, .step => true
  | .cleanUp _ _, .step => true
  | _, _ => false

/-- The commands of the longest call, from the first to the return. -/
def commandsLeft : Pc → ℕ
  | .idle => 16
  | .returned _ => 16
  | .removeTemporaries => 15
  | .downloadSha256 => 14
  | .readSha256 => 13
  | .compareCurrent _ => 12
  | .downloadDatabase _ => 11
  | .verifySha256 _ => 10
  | .downloadMd5 => 9
  | .readMd5 => 8
  | .verifyMd5 _ => 7
  | .downloadMetadata => 6
  | .stamp => 5
  | .move .database => 4
  | .move .md5 => 3
  | .move .metadata => 2
  | .move .sha256 => 1
  | .cleanUp _ _ => 1

/-- Each command the world answers comes before the next. -/
theorem ranked (D : Digests) : Ranked (fun c (answer : Answer) => Client.next D c answer.input)
    Client.outcome (fun c answer => answersPc c.pc answer.input) (fun c => commandsLeft c.pc) 16 where
  le := by
    intro c
    cases c.pc with
    | move slot => cases slot <;> exact Nat.le_of_ble_eq_true rfl
    | _ => exact Nat.le_of_ble_eq_true rfl
  drops := by
    rintro c ⟨input, headers⟩ answer
    dsimp only at answer ⊢
    cases at_ : c.pc <;> cases input <;> simp only [at_, answersPc, Bool.false_eq_true] at answer <;>
      simp only [Client.next, at_]
    case idle.step | returned.step | removeTemporaries.step =>
      exact Or.inl ⟨rfl, Nat.le_of_ble_eq_true rfl⟩
    case downloadSha256.downloaded fetch | downloadMetadata.downloaded fetch =>
      cases fetch <;> exact Or.inl ⟨rfl, Nat.le_of_ble_eq_true rfl⟩
    case downloadDatabase.downloaded expected fetch =>
      cases fetch <;> exact Or.inl ⟨rfl, Nat.le_of_ble_eq_true rfl⟩
    case downloadMd5.downloaded fetch =>
      unfold Client.certify
      cases fetch <;> split <;> exact Or.inl ⟨rfl, Nat.le_of_ble_eq_true rfl⟩
    case readSha256.step | readMd5.step | compareCurrent.step | verifySha256.step | verifyMd5.step =>
      split_ifs <;> exact Or.inl ⟨rfl, Nat.le_of_ble_eq_true rfl⟩
    case stamp.stamped ok =>
      split_ifs <;> exact Or.inl ⟨rfl, Nat.le_of_ble_eq_true rfl⟩
    case move.moved slot ok =>
      have running : c.outcome = none := by simp only [Client.outcome, at_]
      cases slot <;> split_ifs <;> first
        | exact Or.inl ⟨rfl, Nat.le_of_ble_eq_true rfl⟩
        | exact Or.inr ⟨running, Nat.le_of_ble_eq_true rfl, Option.some_ne_none true⟩
    case cleanUp.step slots success =>
      have running : c.outcome = none := by simp only [Client.outcome, at_]
      exact Or.inr ⟨running, Nat.le_of_ble_eq_true rfl, Option.some_ne_none success⟩

theorem exists_answer (pc : Pc) : ∃ input, answersPc pc input = true := by
  cases pc with
  | downloadSha256 => exact ⟨.downloaded (.failed none), rfl⟩
  | downloadDatabase expected => exact ⟨.downloaded (.failed none), rfl⟩
  | downloadMd5 => exact ⟨.downloaded (.failed none), rfl⟩
  | downloadMetadata => exact ⟨.downloaded (.failed none), rfl⟩
  | stamp => exact ⟨.stamped true, rfl⟩
  | move slot => exact ⟨.moved true, rfl⟩
  | _ => exact ⟨.step, rfl⟩

theorem answersPc_interrupt (pc : Pc) : answersPc pc .interrupt = false := by
  cases pc <;> rfl

/-- **Every cycle gets through its list**: whatever the calls return, a cycle has tried or
will try each listed edition, in order; it waits for an answer until all have been
tried; and no sequence of answers is longer than sixteen for each edition left. -/
theorem cycle_completes (D : Digests) (editions : List Bytes) (interval : ℕ)
    (files : Bytes → Option Bytes) (events : List (Event Bytes Answer)) :
    let S := script D editions interval
    let s := run S.react (S.start (.start files)) events
    (∀ results, some results ∈ s.cycles → results.map Prod.fst = editions) ∧
    ∀ round, s.phase = .working round →
      round.tried.map Prod.fst ++ round.todo = editions ∧
      (round.todo ≠ [] → ∃ event, S.Answers (fun c answer => answersPc c.pc answer.input) s event) ∧
      ∀ answers, Allowed S.react (S.Answers fun c answer => answersPc c.pc answer.input) s answers →
        answers.length ≤ round.todo.length * 16 := by
  intro S s
  have ordered : S.Ordered s := (S.reports (.start files) events).ordered
  refine ⟨ordered.cycles, ?_⟩
  intro round at_
  refine ⟨ordered.working at_, ?_, fun answers => Service.length_le_of_answers (ranked D) at_⟩
  intro waiting
  obtain ⟨edition, rest, turn⟩ := List.exists_cons_of_ne_nil waiting
  obtain ⟨input, answer⟩ := exists_answer (s.store.client edition).pc
  have fits : isAnswer input = true := by
    cases input with
    | interrupt =>
        rw [answersPc_interrupt] at answer
        nomatch answer
    | _ => rfl
  exact ⟨.command ⟨input, []⟩, round, edition, rest, ⟨input, []⟩, at_, turn, rfl, fits, answer⟩

end Nshgeoip.GeoipSync
