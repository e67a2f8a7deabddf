import Nshgeoip.GeoipUpdate.Published
import Nshgeoip.GeoipSync.Script

/-!
geoip-update/entrypoint.sh as a whole: `run_geoipupdate` and the main loop, for all
editions of the mirror in one directory.

A cycle runs `geoipupdate`, which may replace the database of any edition, and then
calls `publish_checksums` for each edition of the list, whatever the calls return. When
`geoipupdate` fails nothing is published, although it may have replaced some databases.
The files of an edition are named as the sync client names them; the publisher has no
temporary of the database and no response headers, and leaves such files alone.
-/

namespace Nshgeoip.GeoipUpdate

open ByteText ShellText Machine GeoipSync Sections Sweep

/-- `$edition.mmdb`. -/
def filename (edition : Bytes) : Bytes := edition ++ ascii ".mmdb"

/-- The directory and the calls of all editions. -/
structure Directory where
  files : Bytes → Option File
  pc : Bytes → Pc

namespace Directory

/-- The files of an edition and its call. -/
def publisher (d : Directory) (edition : Bytes) : Publisher where
  final slot := d.files (naming.name edition (.final slot))
  temporary
    | .database => none
    | slot => d.files (naming.name edition (.temporary slot))
  pc := d.pc edition

/-- The section of an edition as a command leaves it. -/
def contents (p : Publisher) (old : Place → Option File) : Place → Option File
  | .final slot => p.final slot
  | .temporary .database => old (.temporary .database)
  | .temporary slot => p.temporary slot
  | .headers => old .headers

def put (d : Directory) (edition : Bytes) (p : Publisher) : Directory where
  files := naming.put d.files edition (contents p (naming.view d.files edition))
  pc := Function.update d.pc edition p.pc

/-- No call yet, on the given files. -/
def start (files : Bytes → Option File) : Directory := ⟨files, fun _ => .idle⟩

/-- A command of `publish_checksums "$edition"`, or a replacement by `geoipupdate`. -/
def publishChecksums (T : Bytes → Tools) (d : Directory) (edition : Bytes) (input : Input) : Directory :=
  d.put edition ((d.publisher edition).next (T edition) (filename edition) input)

variable {T : Bytes → Tools} {d : Directory}

/-- The publisher never writes a temporary of the database. -/
theorem next_temporary_database {T : Tools} {name : Bytes} {p : Publisher} (input : Input)
    (h : p.temporary .database = none) : (p.next T name input).temporary .database = none := by
  cases input with
  | interrupt => exact h
  | replaced database mtime =>
      unfold Publisher.next
      dsimp only
      split_ifs <;> exact h
  | retrieved response =>
      unfold Publisher.next
      dsimp only
      split
      · split <;> exact h
      · exact h
  | written clock =>
      unfold Publisher.next
      dsimp only
      split <;> exact h
  | writeFailed =>
      unfold Publisher.next
      dsimp only
      split <;> exact h
  | step =>
      unfold Publisher.next
      dsimp only
      split <;> first
        | exact h
        | rfl
        | (split_ifs <;> exact h)
        | exact (Function.update_of_ne (by decide) _ _).trans h
        | (split
           · split_ifs <;> exact h
           · exact h)

theorem publisher_put_self {edition : Bytes} {p : Publisher} (h : p.temporary .database = none) :
    (d.put edition p).publisher edition = p := by
  have placed : ∀ place, (d.put edition p).files (naming.name edition place) =
      contents p (naming.view d.files edition) place := fun place => naming.put_name _ _ place
  have temporary : ((d.put edition p).publisher edition).temporary = p.temporary := by
    funext slot
    cases slot with
    | database => exact h.symm
    | _ => exact placed _
  have final : ((d.put edition p).publisher edition).final = p.final := by
    funext slot
    exact placed (.final slot)
  have pc : ((d.put edition p).publisher edition).pc = p.pc := Function.update_self _ _ _
  calc (d.put edition p).publisher edition
      = ⟨((d.put edition p).publisher edition).final, ((d.put edition p).publisher edition).temporary,
          ((d.put edition p).publisher edition).pc⟩ := rfl
    _ = p := by rw [final, temporary, pc]

theorem publisher_put_other {edition other : Bytes} (apart : other ≠ edition) (p : Publisher) :
    (d.put edition p).publisher other = d.publisher other := by
  have same : naming.view (d.put edition p).files other = naming.view d.files other :=
    Naming.view_put_other apart
  have kept : ∀ place, (d.put edition p).files (naming.name other place) =
      d.files (naming.name other place) := fun place => congrFun same place
  have pc : (d.put edition p).pc other = d.pc other := Function.update_of_ne apart _ _
  simp only [publisher, kept, pc]

/-- An edition with its publisher. -/
def desk (d : Directory) (edition : Bytes) : Bytes × Publisher := (edition, d.publisher edition)

/-- A command for one edition leaves the others. -/
theorem desk_publishChecksums (T : Bytes → Tools) (d : Directory) (edition : Bytes) (input : Input) :
    (d.publishChecksums T edition input).desk = Function.update d.desk edition
      (edition, (d.publisher edition).next (T edition) (filename edition) input) := by
  funext other
  by_cases mine : other = edition
  · subst mine
    have self : (d.publishChecksums T other input).publisher other =
        (d.publisher other).next (T other) (filename other) input :=
      publisher_put_self (next_temporary_database input rfl)
    rw [Function.update_self, desk, self]
  · have kept : (d.publishChecksums T edition input).publisher other = d.publisher other :=
      publisher_put_other mine _
    rw [Function.update_of_ne mine, desk, desk, kept]

end Directory

open Directory

/-- Whether `publish_checksums` has returned, and what. -/
def outcome (desk : Bytes × Publisher) : Option Bool :=
  match desk.2.pc with
  | .returned success => some success
  | _ => none

/-- What answers a command of `publish_checksums`. -/
def isAnswer : Input → Bool
  | .interrupt => false
  | .replaced _ _ => false
  | _ => true

/-- What a run of `geoipupdate` does. -/
def isReplacement : Input → Bool
  | .replaced _ _ => true
  | _ => false

theorem pc_of_outcome {desk : Bytes × Publisher} {ok : Bool} (shown : outcome desk = some ok) :
    desk.2.pc = .returned ok := by
  unfold outcome at shown
  split at shown
  · rename_i success at_
    rw [at_, Option.some.inj shown]
  · nomatch shown

/-- The next state of an edition. -/
def nextDesk (T : Bytes → Tools) (desk : Bytes × Publisher) (input : Input) : Bytes × Publisher :=
  (desk.1, desk.2.next (T desk.1) (filename desk.1) input)

theorem desk_settles (T : Bytes → Tools) : Settles (nextDesk T) outcome := by
  rintro ⟨edition, p⟩ input ok shown
  have at_ : p.pc = .returned ok := pc_of_outcome shown
  cases input with
  | interrupt => exact Or.inr rfl
  | replaced database mtime =>
      refine Or.inr ?_
      simp only [nextDesk, outcome, Publisher.next, at_]
      rfl
  | step => exact Or.inr (by simp only [nextDesk, outcome, Publisher.next, at_])
  | _ => exact Or.inl (by simp only [nextDesk, outcome, Publisher.next, at_])

/-- The script for the words of GEOIPUPDATE_EDITION_IDS and a GEOIPUPDATE_FREQUENCY:
`run_geoipupdate` in the main loop, one cycle only when the frequency is zero. -/
def script (T : Bytes → Tools) (editions : List Bytes) (frequency : ℕ) :
    Service Directory Bytes (Bytes × Publisher) Input where
  keys := editions
  get := desk
  next := nextDesk T
  apply := publishChecksums T
  outcome := outcome
  commands := isAnswer
  prepares := isReplacement
  interrupt := .interrupt
  preparing := true
  once := frequency == 0
  get_apply := desk_publishChecksums T
  settles := desk_settles T

/-! ### What a cycle has published -/

variable {T : Bytes → Tools} {editions : List Bytes} {frequency : ℕ}

/-- The replacements the shortcut of `publish_checksums` survives. -/
def sound (s : Status Directory Bytes) : Event Bytes Input → Bool
  | .prepare edition input => (s.store.publisher edition).sound input
  | _ => true

/-- What runs of sound events keep for the listed editions. -/
structure Consistent (T : Bytes → Tools) (editions : List Bytes) (frequency : ℕ)
    (s : Status Directory Bytes) : Prop where
  ordered : (script T editions frequency).Ordered s
  editions : ∀ edition, edition ∈ editions →
    Publisher.Honest (T edition) (filename edition) (s.store.publisher edition) ∧
      Publisher.Consistent (s.store.publisher edition)

theorem next_consistent (s : Status Directory Bytes) (event : Event Bytes Input)
    (h : Consistent T editions frequency s) (allowed : sound s event = true) :
    Consistent T editions frequency ((script T editions frequency).react s event) := by
  have step := (script T editions frequency).react_step s event
  refine ⟨step.ordered h.ordered, ?_⟩
  have named : ∀ edition, (s.store.desk edition).1 = edition := fun _ => rfl
  have kept := step.parts
    (fun edition desk => desk.1 = edition ∧ (edition ∈ editions →
      Publisher.Honest (T edition) (filename edition) desk.2 ∧ Publisher.Consistent desk.2))
    (fun desk input => desk.2.sound input = true) ?_ h.ordered ?_
    (fun edition => ⟨named edition, h.editions edition⟩)
  · exact fun edition => (kept edition).2
  · rintro _ ⟨edition, p⟩ input ⟨rfl, before⟩ fine
    refine ⟨rfl, fun listed => ?_⟩
    exact ⟨Publisher.next_honest p input (before listed).1,
      Publisher.next_consistent p input (before listed).2 fine⟩
  · intro edition input given
    cases given with
    | prepare fits => exact allowed
    | command at_ turn fits =>
        cases input with
        | replaced database mtime => nomatch fits
        | _ => rfl
    | stop => rfl

/-- What a call that has returned success has published. -/
theorem published_of_consistent {T : Tools} {name : Bytes} {p : Publisher}
    (honest : Publisher.Honest T name p) (consistent : Publisher.Consistent p)
    (success : p.pc = .returned true) : p.Published T name := by
  have progress := consistent.progress
  simp only [Publisher.Progress, success] at progress
  obtain ⟨database, here⟩ := Option.isSome_iff_exists.mp (consistent.present (by rw [success]; rfl))
  rw [Publisher.served_eq here] at progress
  -- each checksum file has the text of the release it was made from, which is the one on disk
  obtain ⟨md5, placedMd5, ofMd5⟩ := Option.map_eq_some_iff.mp progress.1
  obtain ⟨sha256, placedSha256, ofSha256⟩ := Option.map_eq_some_iff.mp progress.2
  have textMd5 : md5.content = checksumLine (lowerHex (T.md5 md5.release)) name :=
    honest.faithful .md5 md5 (Or.inl placedMd5)
  have textSha256 : sha256.content = checksumLine (T.sha256 sha256.release) name :=
    honest.faithful .sha256 sha256 (Or.inl placedSha256)
  rw [ofMd5] at textMd5
  rw [ofSha256] at textSha256
  exact ⟨database, md5, sha256, here, placedMd5, placedSha256, textMd5, textSha256⟩

/-- What a run may find of an edition: files that say what `publish_checksums` writes for
some release, and checksums the shortcut may rely on. -/
structure Described (T : Tools) (name : Bytes) (p : Publisher) : Prop where
  faithful : Publisher.Faithful T name p
  current : p.Current

/-- An edition without files. -/
theorem described_of_absent {T : Tools} {name edition : Bytes} {files : Bytes → Option File}
    (absent : ∀ place, files (naming.name edition place) = none) :
    Described T name ((Directory.start files).publisher edition) := by
  refine ⟨?_, ?_⟩
  · rintro slot file (placed | waiting)
    · cases (absent (.final slot)).symm.trans placed
    · cases slot with
      | database => cases waiting
      | md5 | sha256 | metadata => cases (absent _).symm.trans waiting
  · intro database metadata here
    cases (absent (.final .database)).symm.trans here

/-- What a run leaves, the next container may start from. -/
theorem Consistent.described {s : Status Directory Bytes} (h : Consistent T editions frequency s)
    {edition : Bytes} (listed : edition ∈ editions) :
    Described (T edition) (filename edition) ((Directory.start s.store.files).publisher edition) := by
  obtain ⟨honest, ready⟩ := h.editions edition listed
  exact ⟨honest.faithful, ready.current⟩

theorem start_consistent (files : Bytes → Option File)
    (described : ∀ edition ∈ editions,
      Described (T edition) (filename edition) ((Directory.start files).publisher edition)) :
    Consistent T editions frequency ((script T editions frequency).start (.start files)) := by
  refine ⟨(script T editions frequency).start_ordered _, fun edition listed => ?_⟩
  obtain ⟨faithful, current⟩ := described edition listed
  exact ⟨⟨faithful, trivial⟩, ⟨current, trivial, fun no => nomatch no⟩⟩

/-- **A mirror cycle without errors has published every edition**: from a directory in which
the listed editions have no files or those of earlier runs, over any number of cycles,
signals and restarts, in which every replacement is newer than the metadata on disk or
brings back the release the checksums are of, a cycle in which no call failed leaves each
listed edition with a database and the checksums of that database. -/
theorem finished_cycle_published (T : Bytes → Tools) (editions : List Bytes) (frequency : ℕ)
    (files : Bytes → Option File)
    (described : ∀ edition ∈ editions,
      Described (T edition) (filename edition) ((Directory.start files).publisher edition))
    (events : List (Event Bytes Input))
    (allowed : Allowed (script T editions frequency).react (fun s event => sound s event = true)
      ((script T editions frequency).start (.start files)) events) :
    let S := script T editions frequency
    let s := run S.react (S.start (.start files)) events
    ∀ round, s.phase.rests = some round → round.failed = false → ∀ edition ∈ editions,
      ∃ database md5 sha256,
        s.store.files (naming.name edition (.final .database)) = some database ∧
        s.store.files (naming.name edition (.final .md5)) = some md5 ∧
        s.store.files (naming.name edition (.final .sha256)) = some sha256 ∧
        md5.content = checksumLine (lowerHex ((T edition).md5 database.content)) (filename edition) ∧
        sha256.content = checksumLine ((T edition).sha256 database.content) (filename edition) := by
  intro S s round resting success edition listed
  have consistent := run_invariant next_consistent (start_consistent files described) allowed
  have shown := (S.reports (.start files) events).succeeded resting success listed
  have returned : (s.store.publisher edition).pc = .returned true := pc_of_outcome shown
  obtain ⟨honest, ready⟩ := consistent.editions edition listed
  exact published_of_consistent honest ready returned

/-! ### Two editions -/

/-- MaxMind's entry of an edition up to its MD5, as `jq -c` prints it. -/
def entryFront (edition : Bytes) : Bytes :=
  ascii "\x7b\"edition_id\":\"" ++ edition ++ ascii "\",\"md5\":\""

/-- `jq` on answers with the single entry of an edition. -/
def sampleTools (edition : Bytes) : Tools where
  toDigests := Client.sampleDigests
  selectEdition := Publisher.between (ascii "\x7b\"databases\":[") (ascii "]\x7d")
  md5Field := Publisher.between (entryFront edition) (ascii "\"\x7d")
  addSha256 entry sha256 :=
    ascii "\x7b\n  \"edition_id\": \"" ++ edition ++ ascii "\",\n  \"md5\": \"" ++
      (Publisher.between (entryFront edition) (ascii "\"\x7d") entry).getD [] ++
      ascii "\",\n  \"sha256\": \"" ++ sha256 ++ ascii "\"\n\x7d\n"

/-- A call that publishes a release at the given time. -/
def publication (edition database : Bytes) (clock : Int) : List (Event Bytes Input) :=
  [.command .step, .command .step, .command .step, .command .step,
    .command (.retrieved (some (ascii "\x7b\"databases\":[" ++ entryFront edition ++
      Client.sampleDigests.md5 database ++ ascii "\"\x7d]\x7d"))),
    .command .step, .command (.written clock), .command (.written clock), .command (.written clock),
    .command .step, .command .step, .command .step]

/-- The first cycle publishes both editions. -/
def firstCycle : List (Event Bytes Input) :=
  [.prepare (ascii "City") (.replaced (ascii "release 1") 10),
    .prepare (ascii "ASN") (.replaced (ascii "release 1") 12), .prepared true] ++
  publication (ascii "City") (ascii "release 1") 20 ++ publication (ascii "ASN") (ascii "release 1") 21

/-- Then `geoipupdate` replaces one database and fails; the cycle behind publishes it and
finds the other published. -/
def laterCycles : List (Event Bytes Input) :=
  [.prepare (ascii "City") (.replaced (ascii "release 2") 30), .prepared false, .loop, .prepared true] ++
  publication (ascii "City") (ascii "release 2") 40 ++
  [.command .step, .command .step, .command .step, .command .step, .loop]

/-- The script of the sample. -/
def sampleScript : Service Directory Bytes (Bytes × Publisher) Input :=
  script sampleTools [ascii "City", ascii "ASN"] 72

/-- What the first cycle has left when the container is stopped. -/
def firstLeft : Status Directory Bytes :=
  run sampleScript.react (sampleScript.start (.start fun _ => none)) firstCycle

/-- The cycles of a second container, on the files of the first. -/
theorem finished_cycle_published_restarted :
    let s := run sampleScript.react (sampleScript.start (.start firstLeft.store.files)) laterCycles
    s.cycles = [none, some [(ascii "City", true), (ascii "ASN", true)]] ∧
      ∃ database sha256, s.store.files (ascii "City.mmdb") = some database ∧
        s.store.files (ascii "City.mmdb.sha256") = some sha256 ∧
        sha256.content = checksumLine (Client.sampleDigests.sha256 database.content) (ascii "City.mmdb") := by
  have facts : (run sampleScript.react (sampleScript.start (.start firstLeft.store.files))
        laterCycles).phase = .sleeping (some ⟨[], [(ascii "City", true), (ascii "ASN", true)]⟩) ∧
      (run sampleScript.react (sampleScript.start (.start firstLeft.store.files)) laterCycles).cycles =
        [none, some [(ascii "City", true), (ascii "ASN", true)]] := by
    decide +kernel
  have left : Consistent sampleTools [ascii "City", ascii "ASN"] 72 firstLeft :=
    run_invariant next_consistent (start_consistent _ fun _ _ => described_of_absent fun _ => rfl)
      (by decide +kernel)
  obtain ⟨database, md5, sha256, here, _, placed, _, text⟩ :=
    finished_cycle_published sampleTools [ascii "City", ascii "ASN"] 72 firstLeft.store.files
      (fun _ => left.described) laterCycles (by decide +kernel) _ (congrArg Phase.rests facts.1) rfl
      (ascii "City") List.mem_cons_self
  have named : ascii "City.mmdb" = naming.name (ascii "City") (.final .database) ∧
      ascii "City.mmdb.sha256" = naming.name (ascii "City") (.final .sha256) ∧
      ascii "City.mmdb" = filename (ascii "City") := by
    decide
  refine ⟨facts.2, database, sha256, ?_, ?_, ?_⟩
  · unfold sampleScript
    rw [named.1]
    exact here
  · unfold sampleScript
    rw [named.2.1]
    exact placed
  · rw [named.2.2]
    exact text

end Nshgeoip.GeoipUpdate
