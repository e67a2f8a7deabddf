import Nshgeoip.GeoipSync

/-!
What the sync client keeps whatever the mirror sends, whichever `mv` fails and
wherever it is interrupted.

`Progress` says what a call has established by each command: the temporaries
hold the responses, and the database in its temporary has the digests they
name. The files in place change only by a `mv` (`next_installs_or_keeps`), and the
database is moved only at the end of that chain.
-/

namespace Nshgeoip.GeoipSync

open ByteText ShellText Machine

namespace Client

variable {D : Digests} {c : Client}

/-- The temporary holds the response this call had for it. -/
def Holds (c : Client) (slot : Slot) (response : Bytes) : Prop :=
  c.response slot = some response ∧ c.dir.temporary slot = some response

/-- The downloaded database is the one the SHA-256 response names. -/
structure Sha256Verified (D : Digests) (c : Client) (sha256 content : Bytes) : Prop where
  holds : c.Holds .sha256 sha256
  downloaded : c.dir.temporary .database = some content
  agrees : lowerHex (D.sha256 content) = digestOf sha256

/-- Both checksum responses of the call are there. -/
structure Md5Received (D : Digests) (c : Client) (sha256 md5 content : Bytes) : Prop where
  verified : Sha256Verified D c sha256 content
  holds : c.Holds .md5 md5
  recorded : (sha256, md5) ∈ c.certificates

/-- The downloaded database is the one both responses name. -/
structure Md5Verified (D : Digests) (c : Client) (sha256 md5 content : Bytes) : Prop where
  received : Md5Received D c sha256 md5 content
  agrees : lowerHex (D.md5 content) = digestOf md5

/-- What the call has established by the next command. -/
def Progress (D : Digests) (c : Client) : Prop :=
  match c.pc with
  | .readSha256 => ∃ sha256, c.Holds .sha256 sha256
  | .compareCurrent expected => ∃ sha256, c.Holds .sha256 sha256 ∧ expected = digestOf sha256
  | .downloadDatabase expected => ∃ sha256, c.Holds .sha256 sha256 ∧ expected = digestOf sha256
  | .verifySha256 expected => ∃ sha256 content, c.Holds .sha256 sha256 ∧ expected = digestOf sha256 ∧
      c.dir.temporary .database = some content
  | .downloadMd5 => ∃ sha256 content, Sha256Verified D c sha256 content
  | .readMd5 => ∃ sha256 md5 content, Md5Received D c sha256 md5 content
  | .verifyMd5 expected => ∃ sha256 md5 content, Md5Received D c sha256 md5 content ∧
      expected = digestOf md5
  | .downloadMetadata => ∃ sha256 md5 content, Md5Verified D c sha256 md5 content
  | .stamp => ∃ sha256 md5 content, Md5Verified D c sha256 md5 content
  | .move .database => ∃ sha256 md5 content, Md5Verified D c sha256 md5 content
  | .move _ => ∃ sha256, c.Holds .sha256 sha256
  | _ => True

/-! ### A step changes the files in place only by a `mv` -/

/-- No file in place changes, and no certificate is lost. -/
structure Keeps (c c' : Client) : Prop where
  final : c'.dir.final = c.dir.final
  torn : c'.torn = c.torn
  certificates : c.certificates ⊆ c'.certificates

theorem Keeps.rfl {c : Client} : Keeps c c := ⟨Eq.refl _, Eq.refl _, List.Subset.refl _⟩

theorem Keeps.trans {c c' c'' : Client} (h : Keeps c c') (h' : Keeps c' c'') : Keeps c c'' :=
  ⟨h'.final.trans h.final, h'.torn.trans h.torn, List.Subset.trans h.certificates h'.certificates⟩

theorem certify_keeps (c : Client) : Keeps c c.certify := by
  unfold certify
  split
  · exact ⟨rfl, rfl, List.subset_cons_self _ _⟩
  · exact .rfl

theorem download_keeps (c : Client) (slot : Slot) (next : Pc) (cleanup : List Slot) (fetch : Fetch) :
    Keeps c (c.download slot next cleanup fetch) := by
  cases fetch <;> exact ⟨rfl, rfl, List.Subset.refl _⟩

/-- A step is a `mv` that worked, or it leaves every file in place. -/
theorem next_installs_or_keeps (D : Digests) (c : Client) (input : Input) :
    (∃ slot, c.pc = .move slot ∧ c.next D input = c.install slot) ∨ Keeps c (c.next D input) := by
  cases input with
  | interrupt => exact Or.inr ⟨rfl, rfl, List.Subset.refl _⟩
  | step =>
      right
      unfold next
      dsimp only
      split <;> first
        | exact ⟨rfl, rfl, List.Subset.refl _⟩
        | (split_ifs <;> exact ⟨rfl, rfl, List.Subset.refl _⟩)
  | downloaded fetch =>
      right
      unfold next
      dsimp only
      split
      · exact download_keeps ..
      · exact download_keeps ..
      · exact (download_keeps ..).trans (certify_keeps _)
      · exact download_keeps ..
      · exact .rfl
  | stamped ok =>
      right
      unfold next
      dsimp only
      split
      · split_ifs <;> exact ⟨rfl, rfl, List.Subset.refl _⟩
      · exact .rfl
  | moved ok =>
      cases at_ : c.pc with
      | move slot =>
          cases ok with
          | true => exact Or.inl ⟨slot, rfl, by simp [next, at_]⟩
          | false =>
              simp only [next, at_]
              exact Or.inr ⟨rfl, rfl, List.Subset.refl _⟩
      | _ =>
          simp only [next, at_]
          exact Or.inr .rfl

/-! ### What a call establishes -/

/-- What is in the files does not depend on the next command. -/
theorem Md5Received.at_pc {sha256 md5 content : Bytes} (h : Md5Received D c sha256 md5 content)
    (pc : Pc) : Md5Received D { c with pc := pc } sha256 md5 content :=
  ⟨⟨h.verified.holds, h.verified.downloaded, h.verified.agrees⟩, h.holds, h.recorded⟩

theorem Md5Verified.at_pc {sha256 md5 content : Bytes} (h : Md5Verified D c sha256 md5 content)
    (pc : Pc) : Md5Verified D { c with pc := pc } sha256 md5 content :=
  ⟨h.received.at_pc pc, h.agrees⟩

/-- A response for another file leaves the temporaries the call relies on. -/
theorem Holds.receive {slot other : Slot} {response new : Bytes} (h : c.Holds slot response)
    (apart : slot ≠ other) : (c.receive other new).Holds slot response :=
  ⟨(Function.update_of_ne apart _ _).trans h.1, (Function.update_of_ne apart _ _).trans h.2⟩

theorem Sha256Verified.receive {sha256 content new : Bytes} {other : Slot}
    (h : Sha256Verified D c sha256 content) (apart : other ≠ .sha256 ∧ other ≠ .database) :
    Sha256Verified D (c.receive other new) sha256 content where
  holds := h.holds.receive apart.1.symm
  downloaded := (Function.update_of_ne apart.2.symm _ _).trans h.downloaded
  agrees := h.agrees

theorem Md5Verified.receive {sha256 md5 content new : Bytes}
    (h : Md5Verified D c sha256 md5 content) :
    Md5Verified D (c.receive .metadata new) sha256 md5 content where
  received :=
    { verified := h.received.verified.receive (by decide)
      holds := h.received.holds.receive (by decide)
      recorded := h.received.recorded }
  agrees := h.agrees

theorem holds_receive (c : Client) (slot : Slot) (response : Bytes) :
    (c.receive slot response).Holds slot response :=
  ⟨Function.update_self _ _ _, Function.update_self _ _ _⟩

/-- What `readSha256` and `readMd5` compare with is the digest the response names. -/
theorem Holds.field {slot : Slot} {response : Bytes} (h : c.Holds slot response) :
    lowerHex (firstField ((c.dir.temporary slot).getD [])) = digestOf response := by
  rw [h.2]
  rfl

theorem digest_eq {content : Bytes} (h : c.dir.temporary .database = some content)
    (sum : Bytes → Bytes) : c.digest sum = lowerHex (sum content) := by
  simp only [digest, h]

theorem step_progress (h : c.Progress D) : (c.next D .step).Progress D := by
  cases at_ : c.pc with
  | readSha256 =>
      simp only [Progress, at_] at h
      obtain ⟨sha256, holds⟩ := h
      simp only [next, at_]
      split_ifs
      · exact ⟨sha256, holds, holds.field⟩
      · trivial
  | compareCurrent expected =>
      simp only [Progress, at_] at h
      simp only [next, at_]
      split_ifs
      · trivial
      · exact h
  | verifySha256 expected =>
      simp only [Progress, at_] at h
      obtain ⟨sha256, content, holds, rfl, downloaded⟩ := h
      simp only [next, at_]
      split_ifs with same
      · exact ⟨sha256, content, holds, downloaded, (digest_eq downloaded _).symm.trans same⟩
      · trivial
  | readMd5 =>
      simp only [Progress, at_] at h
      obtain ⟨sha256, md5, content, received⟩ := h
      simp only [next, at_]
      split_ifs
      · exact ⟨sha256, md5, content, received.at_pc _, received.holds.field⟩
      · trivial
  | verifyMd5 expected =>
      simp only [Progress, at_] at h
      obtain ⟨sha256, md5, content, received, rfl⟩ := h
      simp only [next, at_]
      split_ifs with same
      · exact ⟨sha256, md5, content, received.at_pc _,
          (digest_eq received.verified.downloaded _).symm.trans same⟩
      · trivial
  | idle => simp only [next, at_]; trivial
  | returned success => simp only [next, at_]; trivial
  | removeTemporaries => simp only [next, at_]; trivial
  | cleanUp slots success => simp only [next, at_]; trivial
  | _ => simpa only [next, at_] using h

/-- A failed download leads to the clean-up, where nothing is relied on. -/
theorem download_failed_progress {slot : Slot} {next : Pc} {cleanup : List Slot}
    {partialFile : Option Bytes} :
    (c.download slot next cleanup (.failed partialFile)).certify.Progress D := by
  have stops : (c.download slot next cleanup (.failed partialFile)).certify.pc = .cleanUp cleanup false := by
    unfold certify
    split <;> rfl
  rw [Progress, stops]
  trivial

theorem downloaded_progress (fetch : Fetch) (h : c.Progress D) :
    (c.next D (.downloaded fetch)).Progress D := by
  cases at_ : c.pc with
  | downloadSha256 =>
      simp only [next, at_]
      cases fetch with
      | ok response => exact ⟨response, holds_receive c .sha256 response⟩
      | failed partialFile => trivial
  | downloadDatabase expected =>
      simp only [Progress, at_] at h
      obtain ⟨sha256, holds, same⟩ := h
      simp only [next, at_]
      cases fetch with
      | ok response =>
          have kept : (c.receive .database response).Holds .sha256 sha256 :=
            holds.receive (by decide)
          exact ⟨sha256, response, kept, same, (holds_receive c .database response).2⟩
      | failed partialFile => trivial
  | downloadMd5 =>
      simp only [Progress, at_] at h
      obtain ⟨sha256, content, verified⟩ := h
      simp only [next, at_]
      cases fetch with
      | ok response =>
          have kept : Sha256Verified D (c.receive .md5 response) sha256 content :=
            verified.receive (by decide)
          have mine := holds_receive c .md5 response
          have both : (c.download .md5 .readMd5 [.database, .md5, .sha256] (.ok response)).certify =
              { c.receive .md5 response with
                pc := .readMd5, certificates := (sha256, response) :: c.certificates } := by
            have first : (c.receive .md5 response).response .sha256 = some sha256 := kept.holds.1
            have second : (c.receive .md5 response).response .md5 = some response := mine.1
            simp only [certify, download, first, second]
            rfl
          rw [both]
          exact ⟨sha256, response, content, ⟨kept.holds, kept.downloaded, kept.agrees⟩, mine,
            List.mem_cons_self⟩
      | failed partialFile => exact download_failed_progress
  | downloadMetadata =>
      simp only [Progress, at_] at h
      obtain ⟨sha256, md5, content, verified⟩ := h
      simp only [next, at_]
      cases fetch with
      | ok response =>
          have kept : Md5Verified D (c.receive .metadata response) sha256 md5 content :=
            verified.receive
          exact ⟨sha256, md5, content, kept.at_pc .stamp⟩
      | failed partialFile => trivial
  | _ => simpa only [next, at_] using h

theorem stamped_progress (ok : Bool) (h : c.Progress D) : (c.next D (.stamped ok)).Progress D := by
  cases at_ : c.pc with
  | stamp =>
      simp only [Progress, at_] at h
      obtain ⟨sha256, md5, content, verified⟩ := h
      simp only [next, at_]
      split_ifs
      · exact ⟨sha256, md5, content, verified.at_pc _⟩
      · trivial
  | _ => simpa only [next, at_] using h

/-- The `mv` of another file leaves the temporary of the sidecar. -/
theorem Holds.install {slot other : Slot} {response : Bytes} (h : c.Holds slot response)
    (apart : slot ≠ other) : (c.install other).Holds slot response := by
  refine ⟨h.1, ?_⟩
  simp only [Client.install, Dir.move]
  split
  · exact (Function.update_of_ne apart _ _).trans h.2
  · exact h.2

/-- Whether or not a `mv` works, the sidecar's temporary waits for its own. -/
theorem moved_progress (ok : Bool) (h : c.Progress D) : (c.next D (.moved ok)).Progress D := by
  have holds_next : ∀ {slot sha256}, c.pc = .move slot → c.Holds .sha256 sha256 → .sha256 ≠ slot →
      (c.next D (.moved ok)).Holds .sha256 sha256 := by
    intro slot sha256 at_ holds apart
    cases ok with
    | true =>
        simp only [next, at_]
        exact holds.install apart
    | false =>
        simp only [next, at_]
        exact holds
  have pc_next : ∀ {slot}, c.pc = .move slot → (c.next D (.moved ok)).pc = afterMove slot := by
    intro slot at_
    cases ok <;> simp [next, at_, install]
  cases at_ : c.pc with
  | move slot =>
      rw [Progress, pc_next at_]
      cases slot with
      | database =>
          simp only [Progress, at_] at h
          obtain ⟨sha256, md5, content, verified⟩ := h
          exact ⟨sha256, holds_next at_ verified.received.verified.holds (by decide)⟩
      | md5 =>
          simp only [Progress, at_] at h
          obtain ⟨sha256, holds⟩ := h
          exact ⟨sha256, holds_next at_ holds (by decide)⟩
      | metadata =>
          simp only [Progress, at_] at h
          obtain ⟨sha256, holds⟩ := h
          exact ⟨sha256, holds_next at_ holds (by decide)⟩
      | sha256 => trivial
  | _ => simpa only [next, at_] using h

/-- **Every step keeps what the call has established.** -/
theorem next_progress (c : Client) (input : Input) (h : c.Progress D) :
    (c.next D input).Progress D := by
  cases input with
  | interrupt => trivial
  | step => exact step_progress h
  | downloaded fetch => exact downloaded_progress fetch h
  | stamped ok => exact stamped_progress ok h
  | moved ok => exact moved_progress ok h

/-! ### The database in place is always a verified one -/

/-- The bytes have the two digests named by the responses of one call. -/
def Certified (D : Digests) (certificates : List (Bytes × Bytes)) (content : Bytes) : Prop :=
  ∃ certificate ∈ certificates, lowerHex (D.sha256 content) = digestOf certificate.1 ∧
    lowerHex (D.md5 content) = digestOf certificate.2

theorem Certified.mono {certificates more : List (Bytes × Bytes)} {content : Bytes}
    (h : Certified D certificates content) (sub : certificates ⊆ more) :
    Certified D more content := by
  obtain ⟨certificate, mem, agrees⟩ := h
  exact ⟨certificate, sub mem, agrees⟩

/-- The file at the final path is the one there at the start or a certified one. -/
def Trusted (D : Digests) (initial : Option Bytes) (c : Client) : Prop :=
  c.dir.final .database = initial ∨
    ∃ content, c.dir.final .database = some content ∧ Certified D c.certificates content

theorem move_final_of_ne {dir : Dir} {slot other : Slot} (apart : other ≠ slot) :
    (dir.move slot).final other = dir.final other := by
  unfold Dir.move
  split
  · exact Function.update_of_ne apart _ _
  · rfl

/-- Of the four `mv`, the first puts the verified download in place and the others
leave the database alone. -/
theorem next_trusted {initial : Option Bytes} (input : Input) (progress : c.Progress D)
    (h : Trusted D initial c) : Trusted D initial (c.next D input) := by
  rcases next_installs_or_keeps D c input with ⟨slot, at_, installs⟩ | keeps
  · rw [installs]
    by_cases moves : slot = .database
    · subst moves
      simp only [Progress, at_] at progress
      obtain ⟨sha256, md5, content, verified⟩ := progress
      right
      refine ⟨content, ?_, (sha256, md5), verified.received.recorded,
        verified.received.verified.agrees, verified.agrees⟩
      simp [install, Dir.move, verified.received.verified.downloaded]
    · have same : (c.install slot).dir.final .database = c.dir.final .database :=
        move_final_of_ne (Ne.symm moves)
      rcases h with start | ⟨content, here, certified⟩
      · exact Or.inl (same.trans start)
      · exact Or.inr ⟨content, same.trans here, certified⟩
  · rw [Trusted, keeps.final]
    rcases h with start | ⟨content, here, certified⟩
    · exact Or.inl start
    · exact Or.inr ⟨content, here, certified.mono keeps.certificates⟩

/-! ### A failed call leaves the files in place -/

/-- Whether a call may have reached its first `mv`. -/
def mayHaveMoved : Pc → Bool
  | .idle => true
  | .move .database => false
  | .move _ => true
  | .cleanUp _ success => success
  | .returned success => success
  | _ => false

/-- Until the first `mv` every file in place is as the call found it. -/
def Untouched (c : Client) : Prop := mayHaveMoved c.pc = false → c.dir.final = c.entry

theorem download_untouched {slot : Slot} {next : Pc} {cleanup : List Slot} {fetch : Fetch}
    (same : c.dir.final = c.entry) : (c.download slot next cleanup fetch).Untouched := by
  cases fetch <;> exact fun _ => same

theorem next_untouched (c : Client) (input : Input) (h : c.Untouched) :
    (c.next D input).Untouched := by
  cases input with
  | interrupt => exact fun moved => nomatch moved
  | step =>
      cases at_ : c.pc with
      | idle => simp only [next, at_]; exact fun _ => rfl
      | returned success => simp only [next, at_]; exact fun _ => rfl
      | cleanUp slots success =>
          simp only [next, at_]
          intro failed
          exact h (by rw [at_]; exact failed)
      | move slot => simpa only [next, at_] using h
      | _ =>
          have same : c.dir.final = c.entry := h (by rw [at_]; rfl)
          simp only [next, at_]
          first
            | exact fun _ => same
            | (split_ifs <;> exact fun _ => same)
  | downloaded fetch =>
      cases at_ : c.pc with
      | downloadSha256 => simp only [next, at_]; exact download_untouched (h (by rw [at_]; rfl))
      | downloadDatabase expected =>
          simp only [next, at_]
          exact download_untouched (h (by rw [at_]; rfl))
      | downloadMd5 =>
          simp only [next, at_]
          have before : Untouched (c.download .md5 .readMd5 [.database, .md5, .sha256] fetch) :=
            download_untouched (h (by rw [at_]; rfl))
          unfold certify
          split <;> exact before
      | downloadMetadata => simp only [next, at_]; exact download_untouched (h (by rw [at_]; rfl))
      | _ => simpa only [next, at_] using h
  | stamped ok =>
      cases at_ : c.pc with
      | stamp =>
          have same : c.dir.final = c.entry := h (by rw [at_]; rfl)
          simp only [next, at_]
          split_ifs <;> exact fun _ => same
      | _ => simpa only [next, at_] using h
  | moved ok =>
      cases at_ : c.pc with
      | move slot =>
          have moved : mayHaveMoved (c.next D (.moved ok)).pc = true := by
            cases slot <;> cases ok <;> simp [next, at_, install, afterMove, mayHaveMoved]
          exact fun not => absurd (moved.symm.trans not) (by decide)
      | _ => simpa only [next, at_] using h

/-! ### Over any run -/

/-- What holds at every moment, with the files in place at the start. -/
structure Safe (D : Digests) (initial : Option Bytes) (c : Client) : Prop where
  progress : c.Progress D
  trusted : Trusted D initial c
  untouched : c.Untouched

theorem next_safe {initial : Option Bytes} (c : Client) (input : Input) (h : Safe D initial c) :
    Safe D initial (c.next D input) where
  progress := next_progress c input h.progress
  trusted := next_trusted input h.progress h.trusted
  untouched := next_untouched c input h.untouched

theorem start_safe (D : Digests) (dir : Dir) : Safe D (dir.final .database) (start dir) where
  progress := trivial
  trusted := Or.inl rfl
  untouched := fun _ => rfl

/-- **Sync safety**: whatever the mirror answers, whichever `mv` fails and
wherever calls are interrupted, the database in place is the one there at the
start or has both digests that the responses of a single call named, and a call
that returns failure leaves all four files as it found them. -/
theorem sync_safe (D : Digests) (dir : Dir) (inputs : List Input) :
    let c := run (next D) (start dir) inputs
    (c.dir.final .database = dir.final .database ∨
      ∃ content, c.dir.final .database = some content ∧ Certified D c.certificates content) ∧
    (c.pc = .returned false → ∀ slot, c.dir.final slot = c.entry slot) := by
  have safe : Safe D (dir.final .database) (run (next D) (start dir) inputs) :=
    run_always next_safe (start_safe D dir) inputs
  refine ⟨safe.trusted, ?_⟩
  intro failed slot
  have same := safe.untouched (by rw [failed]; rfl)
  rw [same]

end Client

end Nshgeoip.GeoipSync
