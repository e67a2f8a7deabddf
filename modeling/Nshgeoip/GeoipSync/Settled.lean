import Nshgeoip.GeoipSync.Cycle

/-!
What a cycle of geoip-sync.sh leaves behind when it has come to its end.

A call that returns has removed the temporaries of its edition, whatever an earlier
interruption left of them (`Tidy`), unless a `mv` failed on it. When no call of the
cycle has failed and the sidecars mark their databases, every edition of the list has
the database the mirror named for it in this cycle.
-/

namespace Nshgeoip.GeoipSync

open ByteText ShellText Machine Sections Sweep Workspace

/-! ### The temporaries of one edition -/

namespace Client

variable {D : Digests} {c : Client}

/-- The temporaries there may be before each command. -/
def mayHold : Pc → List Slot
  | .idle => [.database, .md5, .sha256, .metadata]
  | .removeTemporaries => [.database, .md5, .sha256, .metadata]
  | .downloadSha256 => []
  | .readSha256 => [.sha256]
  | .compareCurrent _ => [.sha256]
  | .downloadDatabase _ => [.sha256]
  | .verifySha256 _ => [.database, .sha256]
  | .downloadMd5 => [.database, .sha256]
  | .readMd5 => [.database, .md5, .sha256]
  | .verifyMd5 _ => [.database, .md5, .sha256]
  | .downloadMetadata => [.database, .md5, .sha256]
  | .stamp => [.database, .md5, .sha256, .metadata]
  | .move .database => [.database, .md5, .sha256, .metadata]
  | .move .md5 => [.md5, .sha256, .metadata]
  | .move .metadata => [.sha256, .metadata]
  | .move .sha256 => [.sha256]
  | .cleanUp slots _ => slots
  | .returned _ => []

theorem mem_slots (slot : Slot) : slot ∈ [Slot.database, .md5, .sha256, .metadata] := by
  cases slot <;> exact List.mem_of_elem_eq_true rfl

/-- There are no other temporaries. -/
def Tidy (c : Client) : Prop := ∀ slot, slot ∉ mayHold c.pc → c.dir.temporary slot = none

/-- A command that writes no temporary and forgets none. -/
theorem Tidy.goto {pc : Pc} (h : c.Tidy) (grows : ∀ slot, slot ∉ mayHold pc → slot ∉ mayHold c.pc) :
    Tidy { c with pc := pc } :=
  fun slot apart => h slot (grows slot apart)

theorem Tidy.remove {slots : List Slot} {pc : Pc} (h : c.Tidy)
    (grows : ∀ slot, slot ∉ mayHold pc → slot ∈ slots ∨ slot ∉ mayHold c.pc) :
    Tidy { c with dir := c.dir.remove slots, pc := pc } := by
  intro slot apart
  simp only [Dir.remove]
  split_ifs with removed
  · rfl
  · exact h slot ((grows slot apart).resolve_left removed)

theorem Tidy.download {slot : Slot} {pc : Pc} {cleanup : List Slot} (h : c.Tidy) (fetch : Fetch)
    (next_ : ∀ other, other ∉ mayHold pc → other ≠ slot ∧ other ∉ mayHold c.pc)
    (cleans : ∀ other, other ∉ cleanup → other ≠ slot ∧ other ∉ mayHold c.pc) :
    Tidy (c.download slot pc cleanup fetch) := by
  cases fetch with
  | ok response =>
      intro other apart
      obtain ⟨differs, absent⟩ := next_ other apart
      exact (Function.update_of_ne differs _ _).trans (h other absent)
  | failed partialFile =>
      intro other apart
      obtain ⟨differs, absent⟩ := cleans other apart
      exact (Function.update_of_ne differs _ _).trans (h other absent)

theorem Tidy.certify (h : c.Tidy) : c.certify.Tidy := by
  unfold Client.certify
  split <;> exact h

/-- A `mv` that worked leaves no temporary of its own. -/
theorem Tidy.install {slot : Slot} (h : c.Tidy)
    (grows : ∀ other, other ∉ mayHold (afterMove slot) → other = slot ∨ other ∉ mayHold c.pc) :
    (c.install slot).Tidy := by
  intro other apart
  simp only [Client.install, Dir.move]
  by_cases mine : other = slot
  · subst mine
    split
    · exact Function.update_self _ _ _
    · assumption
  · have absent := h other ((grows other apart).resolve_left mine)
    split
    · exact (Function.update_of_ne mine _ _).trans absent
    · exact absent

theorem step_tidy (h : c.Tidy) : (c.next D .step).Tidy := by
  cases at_ : c.pc with
  | idle => simp only [next, at_]; exact h.goto fun slot apart => by rw [at_]; exact apart
  | returned success =>
      simp only [next, at_]
      exact h.goto fun slot _ => by rw [at_]; exact List.not_mem_nil
  | removeTemporaries =>
      simp only [next, at_]
      exact h.remove fun slot _ => Or.inl (mem_slots slot)
  | readSha256 =>
      simp only [next, at_]
      split_ifs <;> exact h.goto fun slot apart => by rw [at_]; exact apart
  | compareCurrent expected =>
      simp only [next, at_]
      split_ifs <;> exact h.goto fun slot apart => by rw [at_]; exact apart
  | verifySha256 expected =>
      simp only [next, at_]
      split_ifs <;> exact h.goto fun slot apart => by rw [at_]; exact apart
  | readMd5 =>
      simp only [next, at_]
      split_ifs <;> exact h.goto fun slot apart => by rw [at_]; exact apart
  | verifyMd5 expected =>
      simp only [next, at_]
      split_ifs <;> exact h.goto fun slot apart => by rw [at_]; exact apart
  | cleanUp slots success =>
      simp only [next, at_]
      refine h.remove fun slot _ => ?_
      rw [at_]
      exact Classical.em (slot ∈ slots)
  | _ => simpa only [next, at_] using h

theorem downloaded_tidy (fetch : Fetch) (h : c.Tidy) : (c.next D (.downloaded fetch)).Tidy := by
  cases at_ : c.pc with
  | downloadSha256 =>
      simp only [next, at_]
      refine h.download fetch ?_ ?_ <;> (intro other apart; rw [at_]; revert apart; cases other <;> decide)
  | downloadDatabase expected =>
      simp only [next, at_]
      refine h.download fetch ?_ ?_ <;>
        (intro other apart; rw [at_]; revert apart; cases other <;> simp [mayHold])
  | downloadMd5 =>
      simp only [next, at_]
      refine (h.download fetch ?_ ?_).certify <;>
        (intro other apart; rw [at_]; revert apart; cases other <;> simp [mayHold])
  | downloadMetadata =>
      simp only [next, at_]
      refine h.download fetch ?_ ?_ <;>
        (intro other apart; rw [at_]; revert apart; cases other <;> simp [mayHold])
  | _ => simpa only [next, at_] using h

theorem next_tidy (c : Client) (input : Input) (h : c.Tidy) (works : input ≠ .moved false) :
    (c.next D input).Tidy := by
  cases input with
  | interrupt =>
      intro slot apart
      exact absurd (mem_slots slot) apart
  | step => exact step_tidy h
  | downloaded fetch => exact downloaded_tidy fetch h
  | stamped ok =>
      cases at_ : c.pc with
      | stamp =>
          simp only [next, at_]
          split_ifs <;> exact h.goto fun slot apart => by rw [at_]; exact apart
      | _ => simpa only [next, at_] using h
  | moved ok =>
      cases ok with
      | false => exact absurd rfl works
      | true =>
          cases at_ : c.pc with
          | move slot =>
              simp only [next, at_, if_true]
              refine h.install fun other apart => ?_
              rw [at_]
              revert apart
              cases slot <;> cases other <;> simp [mayHold, afterMove]
          | _ => simpa only [next, at_] using h

/-- Whether there may be a file of response headers. -/
def mayHoldHeaders : Pc → Bool
  | .idle => true
  | .removeTemporaries => true
  | .downloadSha256 => false
  | .readSha256 => false
  | .compareCurrent _ => false
  | .downloadDatabase _ => false
  | .move _ => false
  | .cleanUp slots _ => decide (.database ∈ slots)
  | .returned _ => false
  | _ => true

theorem headersAfter_tidy {input : Input} {headers : Bytes} {old : Option Bytes}
    (h : mayHoldHeaders c.pc = false → old = none) (absent : mayHoldHeaders (c.next D input).pc = false) :
    c.headersAfter input headers old = none := by
  cases input with
  | interrupt => exact absurd absent.symm Bool.false_ne_true
  | step =>
      cases at_ : c.pc with
      | removeTemporaries => simp only [headersAfter, at_]
      | cleanUp slots success =>
          simp only [headersAfter, at_]
          split_ifs with removed
          · rfl
          · exact h (by rw [at_]; exact decide_eq_false removed)
      | idle =>
          simp only [next, at_] at absent
          exact absurd absent.symm Bool.false_ne_true
      | verifySha256 expected =>
          simp only [next, at_] at absent
          split_ifs at absent <;> exact absurd absent.symm Bool.false_ne_true
      | readMd5 =>
          simp only [next, at_] at absent
          split_ifs at absent <;> exact absurd absent.symm Bool.false_ne_true
      | verifyMd5 expected =>
          simp only [next, at_] at absent
          split_ifs at absent <;> exact absurd absent.symm Bool.false_ne_true
      | downloadMd5 =>
          simp only [next, at_] at absent
          exact absurd absent.symm Bool.false_ne_true
      | downloadMetadata =>
          simp only [next, at_] at absent
          exact absurd absent.symm Bool.false_ne_true
      | stamp =>
          simp only [next, at_] at absent
          exact absurd absent.symm Bool.false_ne_true
      | _ =>
          simp only [headersAfter, at_]
          exact h (by rw [at_]; rfl)
  | downloaded fetch =>
      cases at_ : c.pc with
      | downloadDatabase expected =>
          simp only [next, at_] at absent
          cases fetch <;> exact absurd absent.symm Bool.false_ne_true
      | downloadMd5 =>
          simp only [next, at_, certify] at absent
          split at absent <;> cases fetch <;> exact absurd absent.symm Bool.false_ne_true
      | downloadMetadata =>
          simp only [next, at_] at absent
          cases fetch <;> exact absurd absent.symm Bool.false_ne_true
      | _ =>
          simp only [headersAfter, at_]
          exact h (by rw [at_]; first | rfl | simpa only [next, at_] using absent)
  | stamped ok =>
      cases at_ : c.pc with
      | stamp =>
          simp only [next, at_] at absent
          cases ok with
          | true => simp only [headersAfter, at_]
          | false => exact absurd absent.symm Bool.false_ne_true
      | _ =>
          simp only [headersAfter, at_]
          exact h (by rw [at_]; first | rfl | simpa only [next, at_] using absent)
  | moved ok =>
      cases at_ : c.pc with
      | _ =>
          simp only [headersAfter, at_]
          exact h (by rw [at_]; first | rfl | simpa only [next, at_] using absent)

end Client

/-! ### The temporaries of all editions -/

variable {D : Digests} {editions : List Bytes} {interval : ℕ}

/-- No edition has temporaries beyond those its call works with. -/
structure Tidy (w : Workspace) : Prop where
  clients : ∀ edition, (w.client edition).Tidy
  headers : ∀ edition, Client.mayHoldHeaders (w.client edition).pc = false →
    w.files (naming.name edition .headers) = none

theorem Tidy.updateDatabase {w : Workspace} (h : Tidy w) (active : Bytes) (answer : Answer)
    (works : answer.input ≠ .moved false) : Tidy (w.updateDatabase D active answer) := by
  constructor
  · intro edition
    rw [client_updateDatabase]
    by_cases mine : edition = active
    · subst mine
      rw [Function.update_self]
      exact Client.next_tidy _ answer.input (h.clients edition) works
    · rw [Function.update_of_ne mine]
      exact h.clients edition
  · intro edition absent
    rw [client_updateDatabase] at absent
    by_cases mine : edition = active
    · subst mine
      rw [Function.update_self] at absent
      exact (naming.put_name _ _ _).trans (Client.headersAfter_tidy (h.headers edition) absent)
    · rw [Function.update_of_ne mine] at absent
      have same : naming.view (w.updateDatabase D active answer).files edition =
          naming.view w.files edition := Naming.view_put_other mine
      exact (congrFun same .headers).trans (h.headers edition absent)

theorem start_tidy (files : Bytes → Option Bytes) : Tidy (.start files) where
  clients := fun _ slot apart => absurd (Client.mem_slots slot) apart
  headers := fun _ absent => nomatch absent

/-- The event is no `mv` that fails. -/
def movesWork : Event Bytes Answer → Bool
  | .command ⟨.moved false, _⟩ => false
  | _ => true

theorem next_tidy (s : Status Workspace Bytes) (event : Event Bytes Answer)
    (h : (script D editions interval).Ordered s ∧ Tidy s.store) (works : movesWork event = true) :
    (script D editions interval).Ordered ((script D editions interval).react s event) ∧
      Tidy ((script D editions interval).react s event).store := by
  have step := (script D editions interval).react_step s event
  refine ⟨step.ordered h.1, step.holds Tidy (fun _ answer => answer.input ≠ .moved false) ?_ h.1 ?_ h.2⟩
  · intro w edition _ answer tidy fine
    exact tidy.updateDatabase edition answer fine
  · intro edition answer given
    cases given with
    | prepare fits => nomatch fits
    | command at_ turn fits =>
        rintro failed
        obtain ⟨input, headers⟩ := answer
        obtain rfl : input = .moved false := failed
        nomatch works
    | stop => exact fun no => nomatch no

/-- **A finished cycle leaves no temporaries**: when every `mv` works, the directory has
no temporary of any listed edition while the script sleeps, whatever earlier signals and
failures had left there. -/
theorem finished_cycle_tidy (D : Digests) (editions : List Bytes) (interval : ℕ)
    (files : Bytes → Option Bytes) (events : List (Event Bytes Answer))
    (allowed : Allowed (script D editions interval).react (fun _ event => movesWork event = true)
      ((script D editions interval).start (.start files)) events) :
    let S := script D editions interval
    let s := run S.react (S.start (.start files)) events
    ∀ round, s.phase.rests = some round → ∀ edition ∈ editions,
      (∀ slot, s.store.files (naming.name edition (.temporary slot)) = none) ∧
      s.store.files (naming.name edition .headers) = none := by
  intro S s round resting edition listed
  have tidy : Tidy s.store :=
    (run_invariant next_tidy ⟨S.start_ordered (.start files), start_tidy files⟩ allowed).2
  obtain ⟨ok, _, shown⟩ := (S.reports (.start files) events).finished resting listed
  have returned : (s.store.client edition).pc = .returned ok := pc_of_outcome shown
  constructor
  · intro slot
    exact tidy.clients edition slot (by rw [returned]; exact List.not_mem_nil)
  · exact tidy.headers edition (by rw [returned]; rfl)

/-- The answers to a call, as events of the script. -/
def commands (inputs : List Input) : List (Event Bytes Answer) :=
  inputs.map fun input => .command ⟨input, ascii "HTTP/1.1 200 OK"⟩

/-- The script is stopped in the first edition's download and started again; then the
first edition is updated and the second cannot be reached. -/
def brokenOff : List (Event Bytes Answer) :=
  commands ((Client.updateInputs (ascii "release 1") []).take 9) ++ [.stop, .restart] ++
    commands (Client.updateInputs (ascii "release 1") [true, true, true, true]) ++
    commands [.step, .step, .downloaded (.failed (some (ascii "partial"))), .step] ++ [.loop]

/-- The script of the samples. -/
def sampleScript : Service Workspace Bytes Client Answer :=
  script Client.sampleDigests [ascii "City", ascii "ASN"] 300

theorem finished_cycle_tidy_brokenOff :
    let s := run sampleScript.react (sampleScript.start (.start fun _ => none)) brokenOff
    s.phase = .sleeping (some ⟨[], [(ascii "City", true), (ascii "ASN", false)]⟩) ∧
      s.store.files (ascii "City.mmdb.tmp") = none := by
  have asleep : (run sampleScript.react (sampleScript.start (.start fun _ => none)) brokenOff).phase =
      .sleeping (some ⟨[], [(ascii "City", true), (ascii "ASN", false)]⟩) := by
    decide +kernel
  have tidy := finished_cycle_tidy Client.sampleDigests [ascii "City", ascii "ASN"] 300 (fun _ => none)
    brokenOff (by decide +kernel) _ (congrArg Phase.rests asleep) (ascii "City") List.mem_cons_self
  have named : ascii "City.mmdb.tmp" = naming.name (ascii "City") (.temporary .database) := by decide
  refine ⟨asleep, ?_⟩
  unfold sampleScript
  rw [named]
  exact tidy.1 .database

/-! ### The databases of all editions -/

/-- The events that keep the sidecars meaningful as markers. -/
def sound (s : Status Workspace Bytes) : Event Bytes Answer → Bool
  | .command answer =>
      match s.phase with
      | .working round =>
          match round.todo with
          | edition :: _ => (s.store.client edition).sound answer.input
          | [] => true
      | _ => true
  | _ => true

theorem sound_interrupt (c : Client) : c.sound .interrupt = true := by
  unfold Client.sound
  split <;> first | rfl | contradiction

/-- The sidecars of the listed editions describe their databases. -/
structure Consistent (D : Digests) (editions : List Bytes) (interval : ℕ) (s : Status Workspace Bytes) :
    Prop where
  ordered : (script D editions interval).Ordered s
  clients : ∀ edition, edition ∈ editions → Client.Consistent D (s.store.client edition)

theorem next_consistent (s : Status Workspace Bytes) (event : Event Bytes Answer)
    (h : Consistent D editions interval s) (allowed : sound s event = true) :
    Consistent D editions interval ((script D editions interval).react s event) := by
  have step := (script D editions interval).react_step s event
  refine ⟨step.ordered h.ordered, ?_⟩
  refine step.parts (fun edition c => edition ∈ editions → Client.Consistent D c)
    (fun c answer => c.sound answer.input = true) ?_ h.ordered ?_ h.clients
  · intro edition c answer consistent fine listed
    exact Client.next_consistent c answer.input (consistent listed) fine
  · intro edition answer given
    cases given with
    | prepare fits => nomatch fits
    | command at_ turn fits =>
        simp only [sound, at_, turn] at allowed
        exact allowed
    | stop => exact sound_interrupt _

/-- **A cycle without errors has brought every edition up to date**: from a directory
whose sidecars describe their databases, in every run of sound events over any list of
editions, when no call of the last cycle failed each listed edition has the database
whose digest the mirror named to the call for that edition. -/
theorem finished_cycle_completed (D : Digests) (editions : List Bytes) (interval : ℕ)
    (files : Bytes → Option Bytes)
    (marked : ∀ edition ∈ editions, ∀ sidecar,
      files (naming.name edition (.final .sha256)) = some sidecar →
      ∃ content, files (naming.name edition (.final .database)) = some content ∧
        lowerHex (D.sha256 content) = Client.digestOf sidecar)
    (events : List (Event Bytes Answer))
    (allowed : Allowed (script D editions interval).react (fun s event => sound s event = true)
      ((script D editions interval).start (.start files)) events) :
    let S := script D editions interval
    let s := run S.react (S.start (.start files)) events
    ∀ round, s.phase.rests = some round → round.failed = false →
      ∀ edition ∈ editions, ∃ sha256 content,
        (s.store.memory edition).response .sha256 = some sha256 ∧
        s.store.files (naming.name edition (.final .database)) = some content ∧
        lowerHex (D.sha256 content) = Client.digestOf sha256 := by
  intro S s round resting success edition listed
  have begins : Consistent D editions interval (S.start (.start files)) :=
    { ordered := S.start_ordered (.start files)
      clients := fun edition listed => ⟨trivial, fun _ => marked edition listed, trivial⟩ }
  have consistent := run_invariant next_consistent begins allowed
  have shown := (S.reports (.start files) events).succeeded resting success listed
  have returned : (s.store.client edition).pc = .returned true := pc_of_outcome shown
  have completed : (s.store.client edition).Marking D := (consistent.clients edition listed).marking
  simp only [Client.Marking, returned] at completed
  exact completed

/-- One cycle updates both editions, the next finds the first current and the second
with a new release. -/
def twoCycles : List (Event Bytes Answer) :=
  commands (Client.updateInputs (ascii "release 1") [true, true, true, true]) ++
    commands (Client.updateInputs (ascii "release 1") [true, true, true, true]) ++ [.loop, .loop] ++
    commands ((Client.updateInputs (ascii "release 1") []).take 5 ++ [.step]) ++
    commands (Client.updateInputs (ascii "release 2") [true, true, true, true]) ++ [.loop]

theorem finished_cycle_completed_twoCycles :
    let s := run sampleScript.react (sampleScript.start (.start fun _ => none)) twoCycles
    s.phase = .sleeping (some ⟨[], [(ascii "City", true), (ascii "ASN", true)]⟩) ∧
      ∃ sha256 content, (s.store.memory (ascii "ASN")).response .sha256 = some sha256 ∧
        s.store.files (ascii "ASN.mmdb") = some content ∧
        lowerHex (Client.sampleDigests.sha256 content) = Client.digestOf sha256 := by
  have asleep : (run sampleScript.react (sampleScript.start (.start fun _ => none)) twoCycles).phase =
      .sleeping (some ⟨[], [(ascii "City", true), (ascii "ASN", true)]⟩) := by
    decide +kernel
  have completed := finished_cycle_completed Client.sampleDigests [ascii "City", ascii "ASN"] 300
    (fun _ => none) (fun _ _ _ no => nomatch no) twoCycles (by decide +kernel) _
    (congrArg Phase.rests asleep) rfl (ascii "ASN") (List.mem_cons_of_mem _ List.mem_cons_self)
  have named : ascii "ASN.mmdb" = naming.name (ascii "ASN") (.final .database) := by decide
  refine ⟨asleep, ?_⟩
  unfold sampleScript
  rw [named]
  exact completed

end Nshgeoip.GeoipSync
