import Nshgeoip.GeoipSync.Marker
import Nshgeoip.GeoipUpdate.Published

/-!
The mirror and a sync client together.

The publisher replaces the database and the three files beside it one after the
other; the client downloads the four one after the other, and the commands of
the two interleave as they like. What ties the client's four files to one
release are its own checks: the database is compared with the SHA-256 and the
MD5 it was sent. The metadata is compared with nothing, so it has to come from
the release of the `.sha256` file read before it (`sound`); the publisher moves
it last and the client downloads it last, which leaves a gap.
-/

namespace Nshgeoip.Mirror

open ByteText ShellText Machine GeoipSync GeoipUpdate

/-- How a download or the time stamp turns out. -/
inductive Answer where
  | good
  | bad (partialFile : Option Bytes)

inductive Event where
  /-- A command of the publisher, a run of `geoipupdate`, or an interruption. -/
  | publish (input : GeoipUpdate.Input)
  /-- A command of the client. -/
  | sync (answer : Answer)

/-- The two parties, and the release of the `.sha256` file the client has read. -/
structure System where
  publisher : Publisher
  client : Client
  named : Option Bytes

namespace System

def start : System := ⟨.start, .start .empty, none⟩

/-- The mirror serves the file in place. -/
def serve (s : System) (slot : Slot) : Answer → Fetch
  | .good =>
      match s.publisher.final slot with
      | some file => .ok file.content
      | none => .failed none
  | .bad partialFile => .failed partialFile

/-- The answer to the client's next command; its `mv` work. -/
def answer (s : System) (a : Answer) : GeoipSync.Input :=
  match s.client.pc with
  | .downloadSha256 => .downloaded (s.serve .sha256 a)
  | .downloadDatabase _ => .downloaded (s.serve .database a)
  | .downloadMd5 => .downloaded (s.serve .md5 a)
  | .downloadMetadata => .downloaded (s.serve .metadata a)
  | .stamp => .stamped (match a with | .good => true | .bad _ => false)
  | .move _ => .moved true
  | _ => .step

/-- The release of the `.sha256` file, once the client has it. -/
def namedAfter (s : System) (a : Answer) : Option Bytes :=
  match s.client.pc, a with
  | .downloadSha256, .good => (s.publisher.releaseOf .sha256).or s.named
  | _, _ => s.named

def next (T : Tools) (filename : Bytes) (s : System) : Event → System
  | .publish input => { s with publisher := s.publisher.next T filename input }
  | .sync a =>
      { s with client := s.client.next T.toDigests (s.answer a), named := s.namedAfter a }

/-- When the client downloads the metadata, the mirror's is of the release of the
`.sha256` file this call has read. -/
def sound (s : System) : Event → Bool
  | .sync .good =>
      match s.client.pc with
      | .downloadMetadata => s.publisher.releaseOf .metadata == s.named
      | _ => true
  | _ => true

/-- What `sha256sum` and `jq` are documented to do: a digest is 64 hexadecimal
digits, and the field put into the metadata is read back from it. -/
structure Documented (T : Tools) (sha256Field : Bytes → Option Bytes) : Prop where
  hex : ∀ content, isHex 64 (T.sha256 content) = true
  field : ∀ entry sha256, isHex 64 sha256 = true →
    sha256Field (T.addSha256 entry sha256) = some sha256

/-- The three files beside the database are those of the database. -/
def Agree (T : Tools) (sha256Field : Bytes → Option Bytes) (files : Slot → Option Bytes) : Prop :=
  ∃ database md5 sha256 metadata, files .database = some database ∧ files .md5 = some md5 ∧
    files .sha256 = some sha256 ∧ files .metadata = some metadata ∧
    Client.digestOf sha256 = lowerHex (T.sha256 database) ∧
    Client.digestOf md5 = lowerHex (T.md5 database) ∧
    (sha256Field metadata).map lowerHex = some (lowerHex (T.sha256 database))

/-- Whether a file of the call is at its final path by now. -/
def placed : GeoipSync.Pc → Slot → Bool
  | .move .md5, slot => slot == .database
  | .move .metadata, slot => slot == .database || slot == .md5
  | .move .sha256, slot => slot != .sha256
  | .cleanUp _ success, _ => success
  | .returned success, _ => success
  | _, _ => false

/-- The four files of the call, wherever they are by now. -/
def carried (c : Client) (slot : Slot) : Option Bytes :=
  if placed c.pc slot then c.dir.final slot else c.dir.temporary slot

/-- Whether some but not all of the files have been moved. -/
def midMove : GeoipSync.Pc → Bool
  | .move .database => false
  | .move _ => true
  | _ => false

/-- Whether the call has all four files, or will return success without them. -/
def complete : GeoipSync.Pc → Bool
  | .stamp => true
  | .move _ => true
  | .cleanUp _ success => success
  | .returned success => success
  | _ => false

/-- What every run of sound events keeps. -/
structure Linked (T : Tools) (sha256Field : Bytes → Option Bytes) (filename : Bytes) (s : System) :
    Prop where
  honest : s.publisher.Honest T filename
  progress : s.client.Progress T.toDigests
  named : ∀ sha256, s.client.response .sha256 = some sha256 →
    ∃ release, s.named = some release ∧ Client.digestOf sha256 = lowerHex (T.sha256 release)
  settled : midMove s.client.pc = false → (s.client.dir.final .sha256).isSome = true →
    Agree T sha256Field s.client.dir.final
  agreed : complete s.client.pc = true → Agree T sha256Field (carried s.client)

variable {T : Tools} {sha256Field : Bytes → Option Bytes} {filename : Bytes} {s : System}

/-! ### The release the client has read -/

/-- A call learns its SHA-256 response in one place and forgets it at the next call. -/
theorem next_response_sha256 (D : Digests) (c : Client) (input : GeoipSync.Input) :
    (c.next D input).response .sha256 = c.response .sha256 ∨
      (c.next D input).response .sha256 = none ∨
      ∃ response, c.pc = .downloadSha256 ∧ input = .downloaded (.ok response) ∧
        (c.next D input).response .sha256 = some response := by
  have other : ∀ slot pc cleanup fetch, slot ≠ .sha256 →
      (c.download slot pc cleanup fetch).response .sha256 = c.response .sha256 := by
    intro slot pc cleanup fetch apart
    cases fetch with
    | ok response => exact Function.update_of_ne apart.symm _ _
    | failed partialFile => rfl
  cases input with
  | interrupt => exact Or.inl rfl
  | step =>
      unfold Client.next
      dsimp only
      split <;> first
        | exact Or.inl rfl
        | exact Or.inr (Or.inl rfl)
        | (split_ifs <;> exact Or.inl rfl)
  | downloaded fetch =>
      cases at_ : c.pc with
      | downloadSha256 =>
          simp only [Client.next, at_]
          cases fetch with
          | ok response =>
              exact Or.inr (Or.inr ⟨response, trivial, rfl, (Client.holds_receive c .sha256 response).1⟩)
          | failed partialFile => exact Or.inl rfl
      | downloadDatabase expected =>
          simp only [Client.next, at_]
          exact Or.inl (other _ _ _ _ (by decide))
      | downloadMd5 =>
          simp only [Client.next, at_]
          left
          unfold Client.certify
          split <;> exact other _ _ _ _ (by decide)
      | downloadMetadata =>
          simp only [Client.next, at_]
          exact Or.inl (other _ _ _ _ (by decide))
      | _ => exact Or.inl (by simp only [Client.next, at_])
  | stamped ok =>
      unfold Client.next
      dsimp only
      split
      · split_ifs <;> exact Or.inl rfl
      · exact Or.inl rfl
  | moved ok =>
      unfold Client.next
      dsimp only
      split
      · split_ifs <;> exact Or.inl rfl
      · exact Or.inl rfl

/-- The `.sha256` file the mirror serves names the digest of its release. -/
theorem digestOf_served (doc : Documented T sha256Field) (honest : s.publisher.Honest T filename)
    {file : File} (here : s.publisher.final .sha256 = some file) :
    Client.digestOf file.content = lowerHex (T.sha256 file.release) := by
  have text : file.content = checksumLine (T.sha256 file.release) filename :=
    honest.faithful .sha256 file (Or.inl here)
  rw [Client.digestOf, text, firstField_checksumLine (doc.hex _)]

theorem sync_named (doc : Documented T sha256Field) (h : Linked T sha256Field filename s)
    (a : Answer) : ∀ sha256, (s.next T filename (.sync a)).client.response .sha256 = some sha256 →
      ∃ release, s.namedAfter a = some release ∧
        Client.digestOf sha256 = lowerHex (T.sha256 release) := by
  intro sha256 response
  by_cases reading : s.client.pc = .downloadSha256
  · cases a with
    | good =>
        cases here : s.publisher.final .sha256 with
        | some file =>
            obtain rfl : file.content = sha256 := by
              simpa [next, answer, serve, reading, here, Client.next, Client.download,
                Client.receive] using response
            refine ⟨file.release, ?_, digestOf_served doc h.honest here⟩
            simp [namedAfter, reading, Publisher.releaseOf, here]
        | none =>
            have before : s.client.response .sha256 = some sha256 := by
              simpa [next, answer, serve, reading, here, Client.next, Client.download,
                Client.fail] using response
            have same : s.namedAfter .good = s.named := by
              simp [namedAfter, reading, Publisher.releaseOf, here]
            rw [same]
            exact h.named sha256 before
    | bad partialFile =>
        have before : s.client.response .sha256 = some sha256 := by
          simpa [next, answer, serve, reading, Client.next, Client.download,
            Client.fail] using response
        have same : s.namedAfter (.bad partialFile) = s.named := by simp [namedAfter]
        rw [same]
        exact h.named sha256 before
  · have same : s.namedAfter a = s.named := by
      unfold namedAfter
      split
      · rename_i now
        exact absurd now reading
      · rfl
    rw [same]
    rcases next_response_sha256 T.toDigests s.client (s.answer a) with keep | gone | ⟨_, now, _⟩
    · exact h.named sha256 (keep.symm.trans response)
    · exact absurd (gone.symm.trans response) (Option.some_ne_none sha256).symm
    · exact absurd now reading

/-! ### The four files -/

/-- A `mv` takes a file of the call to its final path and leaves the call's files
the same. -/
theorem carried_install {c : Client} {slot : Slot} {content : Bytes} (at_ : c.pc = .move slot)
    (waiting : c.dir.temporary slot = some content) : carried (c.install slot) = carried c := by
  funext other
  simp only [carried, Client.install, Dir.move, waiting, at_]
  cases slot <;> cases other <;> simp [placed, Client.afterMove, waiting]

/-- The files of a call that has all four: the checks tie the checksums to the
database, and the release read before ties the metadata to it. -/
theorem agree_downloaded (doc : Documented T sha256Field) (h : Linked T sha256Field filename s)
    {file : File} (at_ : s.client.pc = .downloadMetadata)
    (here : s.publisher.final .metadata = some file) (same : s.named = some file.release) :
    Agree T sha256Field (s.client.receive .metadata file.content).dir.temporary := by
  have progress := h.progress
  simp only [Client.Progress, at_] at progress
  obtain ⟨sha256, md5, content, verified⟩ := progress
  have after : Client.Md5Verified T.toDigests (s.client.receive .metadata file.content) sha256 md5 content :=
    verified.receive
  obtain ⟨release, named, digest⟩ := h.named sha256 verified.received.verified.holds.1
  obtain rfl : release = file.release := Option.some.inj (named.symm.trans same)
  obtain ⟨entry, text⟩ : ∃ entry, file.content = T.addSha256 entry (T.sha256 file.release) :=
    h.honest.faithful .metadata file (Or.inl here)
  refine ⟨content, md5, sha256, file.content, after.received.verified.downloaded,
    after.received.holds.2, after.received.verified.holds.2,
    (Client.holds_receive s.client .metadata file.content).2, after.received.verified.agrees.symm,
    after.agrees.symm, ?_⟩
  rw [text, doc.field entry _ (doc.hex _), Option.map_some, ← digest,
    after.received.verified.agrees]

/-- The client's `mv` work. -/
theorem sync_move {slot : Slot} (at_ : s.client.pc = .move slot) (a : Answer) :
    (s.next T filename (.sync a)).client = s.client.install slot := by
  simp [next, answer, at_, Client.next]

theorem carried_of_placed {c : Client} (all : ∀ slot, placed c.pc slot = true) :
    carried c = c.dir.final := by
  funext slot
  rw [carried, if_pos (all slot)]

theorem carried_of_not_placed {c : Client} (none : ∀ slot, placed c.pc slot = false) :
    carried c = c.dir.temporary := by
  funext slot
  rw [carried, if_neg (by simp [none slot])]

/-- A download does not complete the call unless it was the last one. -/
theorem complete_download {c : Client} {slot : Slot} {pc : GeoipSync.Pc} {cleanup : List Slot}
    {fetch : Fetch} (h : complete (c.download slot pc cleanup fetch).pc = true) :
    complete pc = true := by
  cases fetch with
  | ok response => exact h
  | failed partialFile => nomatch h

theorem sync_settled (h : Linked T sha256Field filename s) (a : Answer)
    (agreed : complete (s.next T filename (.sync a)).client.pc = true →
      Agree T sha256Field (carried (s.next T filename (.sync a)).client)) :
    midMove (s.next T filename (.sync a)).client.pc = false →
      ((s.next T filename (.sync a)).client.dir.final .sha256).isSome = true →
      Agree T sha256Field (s.next T filename (.sync a)).client.dir.final := by
  by_cases moving : ∃ slot, s.client.pc = .move slot
  · obtain ⟨slot, at_⟩ := moving
    rw [sync_move at_] at agreed ⊢
    intro last _
    cases slot with
    | sha256 =>
        rw [carried_of_placed (fun _ => rfl)] at agreed
        exact agreed rfl
    | _ => nomatch last
  · have still : midMove s.client.pc = false := by
      cases at_ : s.client.pc with
      | move slot => exact absurd ⟨slot, at_⟩ moving
      | _ => rfl
    rcases Client.next_installs_or_keeps T.toDigests s.client (s.answer a) with ⟨slot, at_, _⟩ | keeps
    · exact absurd ⟨slot, at_⟩ moving
    · have same : (s.next T filename (.sync a)).client.dir.final = s.client.dir.final := keeps.final
      rw [same]
      exact fun _ => h.settled still

/-- Nothing is asked of a call that has not all its files. -/
theorem of_incomplete {pc : GeoipSync.Pc} {P : Prop} (short : complete pc = false)
    (now : complete pc = true) : P :=
  absurd (short.symm.trans now) Bool.false_ne_true

theorem sync_agreed (doc : Documented T sha256Field) (h : Linked T sha256Field filename s)
    (a : Answer) (allowed : s.sound (.sync a) = true) :
    complete (s.next T filename (.sync a)).client.pc = true →
      Agree T sha256Field (carried (s.next T filename (.sync a)).client) := by
  have agreed := h.agreed
  cases at_ : s.client.pc with
  | move slot =>
      rw [at_] at agreed
      have before := agreed rfl
      obtain ⟨content, waiting⟩ : ∃ content, s.client.dir.temporary slot = some content := by
        obtain ⟨database, md5, sha256, metadata, first, second, third, fourth, _⟩ := before
        cases slot with
        | database => exact ⟨database, by simpa [carried, at_, placed] using first⟩
        | md5 => exact ⟨md5, by simpa [carried, at_, placed] using second⟩
        | sha256 => exact ⟨sha256, by simpa [carried, at_, placed] using third⟩
        | metadata => exact ⟨metadata, by simpa [carried, at_, placed] using fourth⟩
      rw [sync_move at_, carried_install at_ waiting]
      exact fun _ => before
  | stamp =>
      rw [at_] at agreed
      simp only [next, answer, at_, Client.next]
      cases a with
      | good =>
          intro _
          have before := agreed rfl
          rw [carried_of_not_placed (by rw [at_]; exact fun _ => rfl)] at before
          rw [carried_of_not_placed (by exact fun _ => rfl)]
          exact before
      | bad partialFile => exact of_incomplete rfl
  | downloadMetadata =>
      simp only [next, answer, at_, Client.next]
      cases a with
      | good =>
          cases here : s.publisher.final .metadata with
          | some file =>
              have same : some file.release = s.named := by
                simpa [sound, at_, Publisher.releaseOf, here] using allowed
              simp only [serve, here]
              exact fun _ => agree_downloaded doc h at_ here same.symm
          | none =>
              simp only [serve, here]
              exact of_incomplete rfl
      | bad partialFile => exact of_incomplete rfl
  | compareCurrent expected =>
      simp only [next, answer, at_, Client.next]
      split_ifs with current
      · intro _
        refine h.settled (by rw [at_]; rfl) ?_
        unfold Client.isCurrent at current
        split at current
        · rename_i sidecar _ here
          rw [here]
          rfl
        · exact absurd current (by decide)
      · exact of_incomplete rfl
  | cleanUp slots success =>
      simp only [next, answer, at_, Client.next]
      cases success with
      | true =>
          rw [at_] at agreed
          have before := agreed rfl
          rw [carried_of_placed (by rw [at_]; exact fun _ => rfl)] at before
          rw [carried_of_placed (by exact fun _ => rfl)]
          exact fun _ => before
      | false => exact of_incomplete rfl
  | downloadMd5 =>
      simp only [next, answer, at_, Client.next]
      unfold Client.certify
      split <;> exact fun now => of_incomplete rfl (complete_download now)
  | downloadSha256 =>
      simp only [next, answer, at_, Client.next]
      exact fun now => of_incomplete rfl (complete_download now)
  | downloadDatabase expected =>
      simp only [next, answer, at_, Client.next]
      exact fun now => of_incomplete rfl (complete_download now)
  | readSha256 =>
      simp only [next, answer, at_, Client.next]
      split_ifs <;> exact of_incomplete rfl
  | verifySha256 expected =>
      simp only [next, answer, at_, Client.next]
      split_ifs <;> exact of_incomplete rfl
  | readMd5 =>
      simp only [next, answer, at_, Client.next]
      split_ifs <;> exact of_incomplete rfl
  | verifyMd5 expected =>
      simp only [next, answer, at_, Client.next]
      split_ifs <;> exact of_incomplete rfl
  | _ =>
      simp only [next, answer, at_, Client.next]
      exact of_incomplete rfl

/-! ### Over any interleaving -/

theorem next_linked (doc : Documented T sha256Field) (s : System) (event : Event)
    (h : Linked T sha256Field filename s) (allowed : s.sound event = true) :
    Linked T sha256Field filename (s.next T filename event) := by
  cases event with
  | publish input =>
      exact ⟨Publisher.next_honest _ input h.honest, h.progress, h.named, h.settled, h.agreed⟩
  | sync a =>
      have agreed := sync_agreed doc h a allowed
      exact
        { honest := h.honest
          progress := Client.next_progress s.client (s.answer a) h.progress
          named := sync_named doc h a
          settled := sync_settled h a agreed
          agreed := agreed }

theorem start_linked (T : Tools) (sha256Field : Bytes → Option Bytes) (filename : Bytes) :
    Linked T sha256Field filename start where
  honest := Publisher.start_honest T filename
  progress := trivial
  named := fun _ no => nomatch no
  settled := fun _ no => nomatch no
  agreed := fun no => nomatch no

/-- **Publisher and client agree on one release**: in every interleaving in which
the metadata downloaded is of the release of the `.sha256` file read before, a
successful call leaves four files that describe the same database. -/
theorem agree_of_returned (T : Tools) (sha256Field : Bytes → Option Bytes) (filename : Bytes)
    (doc : Documented T sha256Field) (events : List Event)
    (allowed : Allowed (next T filename) (fun s event => s.sound event = true) start events)
    (success : (run (next T filename) start events).client.pc = .returned true) :
    Agree T sha256Field (run (next T filename) start events).client.dir.final := by
  have linked := run_invariant (next_linked doc) (start_linked T sha256Field filename) allowed
  have agreed := linked.agreed (by rw [success]; rfl)
  rwa [carried_of_placed (by rw [success]; exact fun _ => rfl)] at agreed

/-! ### Two releases -/

/-- `jq -r '.sha256'` on the metadata of the sample: the field comes last. -/
def sampleSha256Field (metadata : Bytes) : Option Bytes :=
  some ((metadata.drop (metadata.length - 68)).take 64)

theorem sample_documented : Documented Publisher.sampleTools sampleSha256Field where
  hex := by
    intro content
    change isHex 64 (Client.sampleDigests.sha256 content) = true
    unfold Client.sampleDigests
    dsimp only
    split_ifs <;> decide +kernel
  field := by
    intro entry sha256 hex
    have digits : sha256.length = 64 := by
      have both := hex
      simp only [isHex, Bool.and_eq_true, beq_iff_eq] at both
      exact both.1
    obtain ⟨front, shape⟩ : ∃ front, Publisher.sampleTools.addSha256 entry sha256 =
        front ++ (sha256 ++ ascii "\"\n\x7d\n") :=
      ⟨_, List.append_assoc _ _ _⟩
    have tail : (ascii "\"\n\x7d\n").length = 4 := by decide
    have cut : (front ++ (sha256 ++ ascii "\"\n\x7d\n")).length - 68 = front.length := by
      simp only [List.length_append, digits, tail]
      omega
    rw [sampleSha256Field, shape, cut, List.drop_left, ← digits, List.take_left]

/-- A call of the client that downloads everything. -/
def syncEvents : List Event := List.replicate 16 (.sync .good)

def publishEvents (inputs : List GeoipUpdate.Input) : List Event := inputs.map .publish

/-- The second publication is interrupted between its `mv` and made again before
the client comes back. -/
theorem agree_of_returned_twice :
    let events := publishEvents ([.replaced (ascii "release 1") 10] ++
        Publisher.publishInputs (ascii "release 1") 20) ++ syncEvents ++
      publishEvents ([.replaced (ascii "release 2") 30] ++
        (Publisher.publishInputs (ascii "release 2") 40).take 10 ++ [.interrupt] ++
        Publisher.publishInputs (ascii "release 2") 50) ++ syncEvents
    Agree Publisher.sampleTools sampleSha256Field
      (run (next Publisher.sampleTools (ascii "City.mmdb")) start events).client.dir.final :=
  agree_of_returned Publisher.sampleTools sampleSha256Field (ascii "City.mmdb") sample_documented _
    (by decide +kernel) (by decide +kernel)

/-- The client runs between the second `mv` of a publication and the third: it
installs the second release with the metadata of the first. -/
theorem early_download_mixes_releases :
    let events := publishEvents ([.replaced (ascii "release 1") 10] ++
        Publisher.publishInputs (ascii "release 1") 20 ++ [.replaced (ascii "release 2") 30] ++
        (Publisher.publishInputs (ascii "release 2") 40).take 11) ++ syncEvents
    (run (next Publisher.sampleTools (ascii "City.mmdb")) start events).client.pc = .returned true ∧
      ¬ Agree Publisher.sampleTools sampleSha256Field
        (run (next Publisher.sampleTools (ascii "City.mmdb")) start events).client.dir.final := by
  intro events
  have facts :
      (run (next Publisher.sampleTools (ascii "City.mmdb")) start events).client.pc = .returned true ∧
      (run (next Publisher.sampleTools (ascii "City.mmdb")) start events).client.dir.final .database =
        some (ascii "release 2") ∧
      ((run (next Publisher.sampleTools (ascii "City.mmdb")) start events).client.dir.final
        .metadata).bind sampleSha256Field = some (Publisher.sampleTools.sha256 (ascii "release 1")) := by
    decide +kernel
  obtain ⟨returned, installed, described⟩ := facts
  constructor
  · exact returned
  · rintro ⟨database, md5, sha256, metadata, here, _, _, placed, _, _, field⟩
    obtain rfl := Option.some.inj (installed.symm.trans here)
    rw [placed, Option.bind_some] at described
    rw [described, Option.map_some, Option.some.injEq] at field
    exact absurd field (by decide +kernel)

end System

end Nshgeoip.Mirror
