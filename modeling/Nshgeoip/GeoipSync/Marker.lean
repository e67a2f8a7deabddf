import Nshgeoip.GeoipSync.Safety

/-!
The SHA-256 sidecar as the completion marker of the sync client.

A call reports success without looking at the database when the sidecar in
place names the digest the mirror names (`isCurrent`). That is right as long as
the sidecar in place describes the database in place (`Marked`), which holds
except while the directory is torn: a database was put in place and the sidecar
did not follow, because the call was interrupted between the two `mv` or the
last one failed. A torn directory is mended by the next complete update unless
the mirror goes back to the release of the old sidecar; and nothing notices a
`mv` of the database that failed. `sound` excludes these two inputs.
-/

namespace Nshgeoip.GeoipSync

open ByteText ShellText Machine

namespace Client

variable {D : Digests} {c : Client}

/-- The inputs that keep the marker meaningful. A `mv` of the database fails only
when the file in place is the downloaded one anyway, and while the directory is
torn the mirror does not name the release of the sidecar left behind. -/
def sound (c : Client) (input : Input) : Bool :=
  match c.pc, input with
  | .move .database, .moved false => c.dir.final .database == c.dir.temporary .database
  | .downloadSha256, .downloaded (.ok sha256) =>
      !c.torn || (c.dir.final .sha256).map digestOf != some (digestOf sha256)
  | _, _ => true

/-- The database in place has the SHA-256 that this call read from the mirror. -/
def Completed (D : Digests) (c : Client) : Prop :=
  ∃ sha256 content, c.response .sha256 = some sha256 ∧ c.dir.final .database = some content ∧
    lowerHex (D.sha256 content) = digestOf sha256

/-- The sidecar in place describes the database in place. -/
def Marked (D : Digests) (c : Client) : Prop :=
  c.torn = false → ∀ sidecar, c.dir.final .sha256 = some sidecar →
    ∃ content, c.dir.final .database = some content ∧ lowerHex (D.sha256 content) = digestOf sidecar

/-- The mirror does not name the release of a sidecar left behind. -/
def Fresh (c : Client) : Prop :=
  ∀ sha256, c.response .sha256 = some sha256 → c.torn = true →
    (c.dir.final .sha256).map digestOf ≠ some (digestOf sha256)

/-- What success will rest on, by the next command. -/
def Marking (D : Digests) (c : Client) : Prop :=
  match c.pc with
  | .readSha256 => c.Fresh
  | .compareCurrent _ => c.Fresh
  | .move .database => True
  | .move _ => c.Completed D
  | .cleanUp _ true => c.Completed D
  | .returned true => c.Completed D
  | _ => True

theorem tornAfter_of_ne {torn : Bool} {slot : Slot} (database : slot ≠ .database)
    (sidecar : slot ≠ .sha256) : tornAfter torn slot = torn := by
  cases slot with
  | database => exact absurd rfl database
  | sha256 => exact absurd rfl sidecar
  | _ => rfl

/-- The first `mv` tears the directory, the last one mends it, and those between do
not touch the two files. -/
theorem next_marked (input : Input) (progress : c.Progress D) (marking : c.Marking D)
    (h : c.Marked D) : (c.next D input).Marked D := by
  rcases next_installs_or_keeps D c input with ⟨slot, at_, installs⟩ | keeps
  · rw [installs]
    by_cases tears : slot = .database
    · subst tears
      exact fun torn => nomatch torn
    have database : (c.install slot).dir.final .database = c.dir.final .database :=
      move_final_of_ne (Ne.symm tears)
    by_cases mends : slot = .sha256
    · subst mends
      simp only [Progress, at_] at progress
      simp only [Marking, at_] at marking
      obtain ⟨sha256, holds⟩ := progress
      obtain ⟨named, content, response, here, agrees⟩ := marking
      obtain rfl : named = sha256 := Option.some.inj (response.symm.trans holds.1)
      intro _ sidecar placed
      obtain rfl : named = sidecar := by simpa [install, Dir.move, holds.2] using placed
      exact ⟨content, database.trans here, agrees⟩
    · intro torn sidecar placed
      have still : c.torn = false := (tornAfter_of_ne tears mends).symm.trans torn
      have before : c.dir.final .sha256 = some sidecar :=
        (move_final_of_ne (Ne.symm mends)).symm.trans placed
      obtain ⟨content, here, agrees⟩ := h still sidecar before
      exact ⟨content, database.trans here, agrees⟩
  · rw [Marked, keeps.torn, keeps.final]
    exact h

/-- `is current` is only said of a database with the digest the mirror names. -/
theorem completed_of_isCurrent {expected sha256 : Bytes} (holds : c.Holds .sha256 sha256)
    (same : expected = digestOf sha256) (fresh : c.Fresh) (h : c.Marked D)
    (current : c.isCurrent expected = true) : c.Completed D := by
  unfold isCurrent at current
  split at current
  · rename_i content sidecar database placed
    have named : digestOf sidecar = digestOf sha256 := (beq_iff_eq.mp current).trans same
    cases torn : c.torn with
    | true =>
        refine absurd ?_ (fresh sha256 holds.1 torn)
        rw [placed, Option.map_some, named]
    | false =>
        obtain ⟨content', here, agrees⟩ := h torn sidecar placed
        exact ⟨sha256, content', holds.1, here, agrees.trans named⟩
  · exact absurd current (by decide)

theorem step_marking (progress : c.Progress D) (h : c.Marked D) (marking : c.Marking D) :
    (c.next D .step).Marking D := by
  cases at_ : c.pc with
  | readSha256 =>
      simp only [Marking, at_] at marking
      simp only [next, at_]
      split_ifs
      · exact marking
      · trivial
  | compareCurrent expected =>
      simp only [Marking, at_] at marking
      simp only [Progress, at_] at progress
      obtain ⟨sha256, holds, same⟩ := progress
      simp only [next, at_]
      split_ifs with current
      · exact completed_of_isCurrent holds same marking h current
      · trivial
  | cleanUp slots success =>
      simp only [next, at_]
      cases success with
      | true =>
          simp only [Marking, at_] at marking
          exact marking
      | false => trivial
  | idle => simp only [next, at_]; trivial
  | returned success => simp only [next, at_]; trivial
  | removeTemporaries => simp only [next, at_]; trivial
  | verifySha256 expected => simp only [next, at_]; split_ifs <;> trivial
  | readMd5 => simp only [next, at_]; split_ifs <;> trivial
  | verifyMd5 expected => simp only [next, at_]; split_ifs <;> trivial
  | _ => simpa only [next, at_] using marking

theorem downloaded_marking (fetch : Fetch) (allowed : c.sound (.downloaded fetch) = true)
    (marking : c.Marking D) : (c.next D (.downloaded fetch)).Marking D := by
  cases at_ : c.pc with
  | downloadSha256 =>
      simp only [next, at_]
      cases fetch with
      | ok response =>
          have apart : c.torn = true → (c.dir.final .sha256).map digestOf ≠ some (digestOf response) := by
            intro torn
            simpa [sound, at_, torn] using allowed
          intro sha256 same torn
          obtain rfl : response = sha256 :=
            Option.some.inj ((holds_receive c .sha256 response).1.symm.trans same)
          exact apart torn
      | failed partialFile => trivial
  | downloadDatabase expected =>
      simp only [next, at_]
      cases fetch <;> trivial
  | downloadMd5 =>
      simp only [next, at_, certify]
      cases fetch <;> (split <;> trivial)
  | downloadMetadata =>
      simp only [next, at_]
      cases fetch <;> trivial
  | _ => simpa only [next, at_] using marking

/-- The first `mv` completes the call, when it works or has nothing to do; the
others leave the database alone. -/
theorem moved_marking (ok : Bool) (allowed : c.sound (.moved ok) = true) (progress : c.Progress D)
    (marking : c.Marking D) : (c.next D (.moved ok)).Marking D := by
  cases at_ : c.pc with
  | move slot =>
      have pc_next : (c.next D (.moved ok)).pc = afterMove slot := by
        cases ok <;> simp [next, at_, install]
      have completed : (c.next D (.moved ok)).Completed D := by
        by_cases moves : slot = .database
        · subst moves
          simp only [Progress, at_] at progress
          obtain ⟨sha256, md5, content, verified⟩ := progress
          have sha := verified.received.verified
          cases ok with
          | true =>
              refine ⟨sha256, content, ?_, ?_, sha.agrees⟩
              · simp [next, at_, install, sha.holds.1]
              · simp [next, at_, install, Dir.move, sha.downloaded]
          | false =>
              have same : c.dir.final .database = c.dir.temporary .database := by
                simpa [sound, at_] using allowed
              simp only [next, at_]
              exact ⟨sha256, content, sha.holds.1, same.trans sha.downloaded, sha.agrees⟩
        · obtain ⟨sha256, content, response, here, agrees⟩ : c.Completed D := by
            cases slot with
            | database => exact absurd rfl moves
            | _ => simpa only [Marking, at_] using marking
          cases ok with
          | true =>
              simp only [next, at_]
              exact ⟨sha256, content, response, (move_final_of_ne (Ne.symm moves)).trans here, agrees⟩
          | false =>
              simp only [next, at_]
              exact ⟨sha256, content, response, here, agrees⟩
      rw [Marking, pc_next]
      cases slot <;> exact completed
  | _ => simpa only [next, at_] using marking

theorem next_marking (input : Input) (allowed : c.sound input = true) (progress : c.Progress D)
    (h : c.Marked D) (marking : c.Marking D) : (c.next D input).Marking D := by
  cases input with
  | interrupt => trivial
  | step => exact step_marking progress h marking
  | downloaded fetch => exact downloaded_marking fetch allowed marking
  | stamped ok =>
      cases at_ : c.pc with
      | stamp =>
          simp only [next, at_]
          split_ifs <;> trivial
      | _ => simpa only [next, at_] using marking
  | moved ok => exact moved_marking ok allowed progress marking

/-- What a run of sound inputs keeps. -/
structure Consistent (D : Digests) (c : Client) : Prop where
  progress : c.Progress D
  marked : c.Marked D
  marking : c.Marking D

theorem next_consistent (c : Client) (input : Input) (h : Consistent D c)
    (allowed : c.sound input = true) : Consistent D (c.next D input) where
  progress := next_progress c input h.progress
  marked := next_marked input h.progress h.marking h.marked
  marking := next_marking input allowed h.progress h.marked h.marking

theorem start_consistent (D : Digests) : Consistent D (start .empty) where
  progress := trivial
  marked := by
    intro _ sidecar placed
    nomatch placed
  marking := trivial

/-- **Success means the database the mirror named**, in every run from an empty
directory whose inputs are all sound. -/
theorem completed_of_returned (D : Digests) (inputs : List Input)
    (allowed : Allowed (next D) (fun c input => c.sound input = true) (start .empty) inputs)
    (success : (run (next D) (start .empty) inputs).pc = .returned true) :
    (run (next D) (start .empty) inputs).Completed D := by
  have consistent := run_invariant next_consistent (start_consistent D) allowed
  have completed := consistent.marking
  simp only [Marking, success] at completed
  exact completed

/-! ### Two releases -/

/-- The digests of two small files. -/
def sampleDigests : Digests where
  sha256 content :=
    if content = ascii "release 1" then
      ascii "c40ffd4b1da7805cbba7f81a2f97c3ef3aa9d1455588357845a94165683a9c23"
    else if content = ascii "release 2" then
      ascii "2ed4cfc8a1b1cc6631d6b2bf70b00173ac9d8eb3d6626473d005c8ede9582bcc"
    else ascii "e3b0c44298fc1c149afbf4c8996fb92427ae41e4649b934ca495991b7852b855"
  md5 content :=
    if content = ascii "release 1" then ascii "8c9beddf580236f092081ecc6db7fd7f"
    else if content = ascii "release 2" then ascii "ecaed09ef84d6993d566e325cdb26e76"
    else ascii "d41d8cd98f00b204e9800998ecf8427e"

/-- A call that downloads a release, up to the given `mv`. -/
def updateInputs (database : Bytes) (moves : List Bool) : List Input :=
  [.step, .step, .downloaded (.ok (checksumLine (sampleDigests.sha256 database) (ascii "City.mmdb"))),
    .step, .step, .downloaded (.ok database), .step,
    .downloaded (.ok (checksumLine (sampleDigests.md5 database) (ascii "City.mmdb"))),
    .step, .step, .downloaded (.ok (ascii "metadata")), .stamped true] ++ moves.map .moved

/-- An update is torn by an interruption and mended by the next call. -/
theorem completed_of_returned_mended :
    let inputs := updateInputs (ascii "release 1") [true, true, true, true] ++
      updateInputs (ascii "release 2") [true, true] ++ [.interrupt] ++
      updateInputs (ascii "release 2") [false, true, true, true]
    (run (next sampleDigests) (start .empty) inputs).Completed sampleDigests :=
  completed_of_returned sampleDigests _ (by decide +kernel) (by decide +kernel)

/-- The `mv` of the second release fails. The call goes on, moves the sidecar and
returns success with the first release in place. -/
theorem lost_move_reports_success :
    let inputs := updateInputs (ascii "release 1") [true, true, true, true] ++
      updateInputs (ascii "release 2") [false, true, true, true]
    (run (next sampleDigests) (start .empty) inputs).pc = .returned true ∧
      ¬ (run (next sampleDigests) (start .empty) inputs).Completed sampleDigests := by
  intro inputs
  have facts : (run (next sampleDigests) (start .empty) inputs).pc = .returned true ∧
      (run (next sampleDigests) (start .empty) inputs).response .sha256 =
        some (checksumLine (sampleDigests.sha256 (ascii "release 2")) (ascii "City.mmdb")) ∧
      (run (next sampleDigests) (start .empty) inputs).dir.final .database =
        some (ascii "release 1") := by
    decide +kernel
  obtain ⟨returned, response, database⟩ := facts
  refine ⟨returned, ?_⟩
  rintro ⟨sha256, content, named, here, agrees⟩
  obtain rfl := Option.some.inj (response.symm.trans named)
  obtain rfl := Option.some.inj (database.symm.trans here)
  exact absurd agrees (by decide +kernel)

end Client

end Nshgeoip.GeoipSync
