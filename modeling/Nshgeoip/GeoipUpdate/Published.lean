import Nshgeoip.GeoipUpdate
import Nshgeoip.GeoipSync.Marker

/-!
When the published checksums are those of the database on disk.

Each published file carries the release it was made from, and its text is always
what `publish_checksums` writes for that release (`Faithful`). What the shortcut
needs is `Current`: a database that is not newer than the metadata is the
release of both checksum files. The three `mv` keep it in whatever state an
interruption leaves them; a replacement keeps it when the new database is newer
than the metadata on disk, or is the release the checksum files are of.
-/

namespace Nshgeoip.GeoipUpdate

open ByteText ShellText Machine GeoipSync

namespace Publisher

variable {T : Tools} {filename : Bytes} {p : Publisher}

/-- The release a file in place was made from. -/
def releaseOf (p : Publisher) (slot : Slot) : Option Bytes := (p.final slot).map File.release

/-- The text `publish_checksums` gives a file of the release. -/
def Describes (T : Tools) (filename : Bytes) (file : File) : Slot → Prop
  | .database => file.content = file.release
  | .md5 => file.content = checksumLine (lowerHex (T.md5 file.release)) filename
  | .sha256 => file.content = checksumLine (T.sha256 file.release) filename
  | .metadata => ∃ entry, file.content = T.addSha256 entry (T.sha256 file.release)

/-- Every file says what it should about the release it was made from. -/
def Faithful (T : Tools) (filename : Bytes) (p : Publisher) : Prop :=
  ∀ slot file, p.final slot = some file ∨ p.temporary slot = some file →
    Describes T filename file slot

/-- The digests a call is about to write are those of the database in place. -/
def Computed (T : Tools) (p : Publisher) : Prop :=
  match p.pc with
  | .writeMd5 _ md5 sha256 => md5 = lowerHex (T.md5 p.served) ∧ sha256 = T.sha256 p.served
  | .writeSha256 _ sha256 => sha256 = T.sha256 p.served
  | .writeMetadata _ sha256 => sha256 = T.sha256 p.served
  | _ => True

/-- What every run keeps, whatever replaces the database. -/
structure Honest (T : Tools) (filename : Bytes) (p : Publisher) : Prop where
  faithful : Faithful T filename p
  computed : p.Computed T

/-- A database not newer than the metadata is the release of both checksum files. -/
def Current (p : Publisher) : Prop :=
  ∀ database metadata, p.final .database = some database → p.final .metadata = some metadata →
    database.mtime ≤ metadata.mtime →
    p.releaseOf .md5 = some database.content ∧ p.releaseOf .sha256 = some database.content

/-- What the call has established by the next command. -/
def Progress (p : Publisher) : Prop :=
  match p.pc with
  | .writeSha256 _ _ => (p.temporary .md5).map File.release = some p.served
  | .writeMetadata _ _ => (p.temporary .md5).map File.release = some p.served ∧
      (p.temporary .sha256).map File.release = some p.served
  | .moveMd5 => (p.temporary .md5).map File.release = some p.served ∧
      (p.temporary .sha256).map File.release = some p.served
  | .moveSha256 => p.releaseOf .md5 = some p.served ∧
      (p.temporary .sha256).map File.release = some p.served
  | .moveMetadata => p.releaseOf .md5 = some p.served ∧ p.releaseOf .sha256 = some p.served
  | .returned true => p.releaseOf .md5 = some p.served ∧ p.releaseOf .sha256 = some p.served
  | _ => True

/-- The replacements the shortcut survives: with no metadata on disk any, otherwise
one newer than the metadata, or one that brings back the release both checksum
files were made from. -/
def sound (p : Publisher) : Input → Bool
  | .replaced database mtime =>
      match p.final .metadata with
      | none => true
      | some metadata => decide (metadata.mtime < mtime) ||
          (p.releaseOf .md5 == some database && p.releaseOf .sha256 == some database)
  | _ => true

/-- Whether the call is past the check for the database and has not failed. -/
def publishing : Pc → Bool
  | .writeMd5 _ _ _ => true
  | .writeSha256 _ _ => true
  | .writeMetadata _ _ => true
  | .moveMd5 => true
  | .moveSha256 => true
  | .moveMetadata => true
  | .returned success => success
  | _ => false

/-- What a run of sound inputs keeps. -/
structure Consistent (p : Publisher) : Prop where
  current : p.Current
  progress : p.Progress
  present : publishing p.pc = true → (p.final .database).isSome = true

/-! ### Files -/

theorem Faithful.write {slot : Slot} {content : Bytes} {clock : Int} {next : Pc}
    (h : Faithful T filename p) (text : Describes T filename ⟨content, clock, p.served⟩ slot) :
    Faithful T filename (p.write slot content clock next) := by
  rintro other file (placed | waiting)
  · exact h other file (Or.inl placed)
  · by_cases same : other = slot
    · subst same
      obtain rfl : _ = file := by simpa [Publisher.write] using waiting
      exact text
    · exact h other file (Or.inr (by simpa [Publisher.write, same] using waiting))

theorem Faithful.move {slot : Slot} {next : Pc} (h : Faithful T filename p) :
    Faithful T filename (p.move slot next) := by
  rintro other file (placed | waiting)
  · by_cases same : other = slot
    · subst same
      exact h other file (Or.inr (by simpa [Publisher.move] using placed))
    · exact h other file (Or.inl (by simpa [Publisher.move, same] using placed))
  · by_cases same : other = slot
    · subst same
      simp [Publisher.move] at waiting
    · exact h other file (Or.inr (by simpa [Publisher.move, same] using waiting))

theorem Faithful.replace (h : Faithful T filename p) (database : Bytes) (mtime : Int) :
    Faithful T filename (p.replace database mtime) := by
  rintro other file (placed | waiting)
  · by_cases same : other = .database
    · subst same
      obtain rfl : _ = file := by simpa [Publisher.replace] using placed
      rfl
    · exact h other file (Or.inl (by simpa [Publisher.replace, same] using placed))
  · exact h other file (Or.inr waiting)

theorem releaseOf_move (p : Publisher) (slot : Slot) (next : Pc) :
    (p.move slot next).releaseOf slot = (p.temporary slot).map File.release := by
  simp [releaseOf, Publisher.move]

theorem releaseOf_move_of_ne {slot other : Slot} (apart : other ≠ slot) (next : Pc) :
    (p.move slot next).releaseOf other = p.releaseOf other := by
  simp [releaseOf, Publisher.move, apart]

theorem served_eq {database : File} (h : p.final .database = some database) :
    p.served = database.content := by
  simp [served, h]

theorem final_move_of_ne {slot other : Slot} (apart : other ≠ slot) (next : Pc) :
    (p.move slot next).final other = p.final other :=
  Function.update_of_ne apart _ _

theorem served_move {slot : Slot} (apart : slot ≠ .database) (next : Pc) :
    (p.move slot next).served = p.served := by
  rw [served, final_move_of_ne apart.symm, served]

/-- A `mv` that makes one checksum file current keeps `Current`, whichever the
other is. -/
theorem Current.move_checksum {slot : Slot} {next : Pc} (h : p.Current)
    (checksum : slot = .md5 ∨ slot = .sha256)
    (waiting : (p.temporary slot).map File.release = some p.served) :
    (p.move slot next).Current := by
  intro database metadata here described older
  have apart : slot ≠ .database ∧ slot ≠ .metadata := by
    rcases checksum with rfl | rfl <;> decide
  rw [final_move_of_ne apart.1.symm] at here
  rw [final_move_of_ne apart.2.symm] at described
  have before := h database metadata here described older
  have after : (p.move slot next).releaseOf slot = some database.content := by
    rw [releaseOf_move, waiting, served_eq here]
  rcases checksum with rfl | rfl
  · exact ⟨after, (releaseOf_move_of_ne (by decide) next).trans before.2⟩
  · exact ⟨(releaseOf_move_of_ne (by decide) next).trans before.1, after⟩

/-- The metadata comes last: both checksum files are of the database already. -/
theorem Current.move_metadata {next : Pc}
    (md5 : p.releaseOf .md5 = some p.served) (sha256 : p.releaseOf .sha256 = some p.served) :
    (p.move .metadata next).Current := by
  intro database metadata here _ _
  rw [final_move_of_ne (by decide)] at here
  rw [releaseOf_move_of_ne (by decide), releaseOf_move_of_ne (by decide), md5, sha256,
    served_eq here]
  exact ⟨rfl, rfl⟩

theorem Current.replace {database : Bytes} {mtime : Int}
    (allowed : p.sound (.replaced database mtime) = true) : (p.replace database mtime).Current := by
  intro installed metadata here described older
  have same : ∀ slot, slot ≠ .database →
      (p.replace database mtime).releaseOf slot = p.releaseOf slot := by
    intro slot apart
    simp [releaseOf, Publisher.replace, apart]
  obtain rfl : _ = installed := by simpa [Publisher.replace] using here
  have before : p.final .metadata = some metadata := by simpa [Publisher.replace] using described
  simp only [sound, before, Bool.or_eq_true, decide_eq_true_eq, Bool.and_eq_true, beq_iff_eq] at allowed
  rw [same .md5 (by decide), same .sha256 (by decide)]
  rcases allowed with newer | back
  · exact absurd newer (Int.not_lt.mpr older)
  · exact back

theorem Faithful.clear (h : Faithful T filename p) {pc : Pc} :
    Faithful T filename { p with temporary := fun _ => none, pc := pc } := by
  rintro slot file (placed | waiting)
  · exact h slot file (Or.inl placed)
  · nomatch waiting

/-! ### The files are always those of some release -/

theorem written_honest (clock : Int) (h : Honest T filename p) :
    Honest T filename (p.next T filename (.written clock)) := by
  have computed := h.computed
  cases at_ : p.pc with
  | writeMd5 metadata md5 sha256 =>
      simp only [Computed, at_] at computed
      simp only [next, at_]
      refine ⟨h.faithful.write ?_, computed.2⟩
      rw [computed.1]
      rfl
  | writeSha256 metadata sha256 =>
      simp only [Computed, at_] at computed
      simp only [next, at_]
      refine ⟨h.faithful.write ?_, computed⟩
      rw [computed]
      rfl
  | writeMetadata metadata sha256 =>
      simp only [Computed, at_] at computed
      simp only [next, at_]
      exact ⟨h.faithful.write ⟨metadata, by rw [computed]⟩, trivial⟩
  | _ => simpa only [next, at_] using h

theorem step_honest (h : Honest T filename p) : Honest T filename (p.next T filename .step) := by
  cases at_ : p.pc with
  | idle => simp only [next, at_]; exact ⟨h.faithful, trivial⟩
  | returned success => simp only [next, at_]; exact ⟨h.faithful, trivial⟩
  | removeTemporaries => simp only [next, at_]; exact ⟨h.faithful.clear, trivial⟩
  | cleanUp => simp only [next, at_]; exact ⟨h.faithful.clear, trivial⟩
  | checkDatabase => simp only [next, at_]; split_ifs <;> exact ⟨h.faithful, trivial⟩
  | checkPublished => simp only [next, at_]; split_ifs <;> exact ⟨h.faithful, trivial⟩
  | verifyMd5 metadata =>
      simp only [next, at_]
      split
      · rename_i database md5 here _
        have served : p.served = database.content := served_eq here
        split_ifs with same
        · refine ⟨h.faithful, ?_, ?_⟩
          · exact same.symm.trans (by rw [← served]; rfl)
          · rw [← served]; rfl
        · exact ⟨h.faithful, trivial⟩
      · exact ⟨h.faithful, trivial⟩
  | moveMd5 => simp only [next, at_]; exact ⟨h.faithful.move, trivial⟩
  | moveSha256 => simp only [next, at_]; exact ⟨h.faithful.move, trivial⟩
  | moveMetadata => simp only [next, at_]; exact ⟨h.faithful.move, trivial⟩
  | _ => simpa only [next, at_] using h

theorem next_honest (p : Publisher) (input : Input) (h : Honest T filename p) :
    Honest T filename (p.next T filename input) := by
  cases input with
  | interrupt => exact ⟨h.faithful, trivial⟩
  | replaced database mtime =>
      unfold next
      dsimp only
      split_ifs
      · exact ⟨h.faithful.replace database mtime, trivial⟩
      · exact h
  | retrieved response =>
      cases at_ : p.pc with
      | retrieveMetadata =>
          simp only [next, at_]
          split
          · exact ⟨h.faithful, trivial⟩
          · exact ⟨h.faithful, trivial⟩
      | _ => simpa only [next, at_] using h
  | written clock => exact written_honest clock h
  | writeFailed =>
      cases at_ : p.pc with
      | writeMetadata metadata sha256 =>
          simp only [next, at_]
          exact ⟨h.faithful, trivial⟩
      | _ => simpa only [next, at_] using h
  | step => exact step_honest h

theorem start_honest (T : Tools) (filename : Bytes) : Honest T filename start where
  faithful := by
    rintro slot file (placed | waiting)
    · nomatch placed
    · nomatch waiting
  computed := trivial

/-! ### The shortcut -/

/-- A command that only moves on keeps the files; what it has established is
left to show. -/
theorem Consistent.goto {pc : Pc} (h : Consistent p)
    (progress : Progress { p with pc := pc })
    (present : publishing pc = true → (p.final .database).isSome = true) :
    Consistent { p with pc := pc } :=
  ⟨h.current, progress, present⟩

theorem Consistent.move {slot : Slot} {next : Pc} (h : Consistent p) (apart : slot ≠ .database)
    (busy : publishing p.pc = true) (current : (p.move slot next).Current)
    (progress : (p.move slot next).Progress) : Consistent (p.move slot next) where
  current := current
  progress := progress
  present := by
    rw [final_move_of_ne apart.symm]
    exact fun _ => h.present busy

/-- The shortcut is right: the files it finds are of the database on disk. -/
theorem Consistent.published (h : Consistent p) (published : p.isPublished = true) :
    (p.releaseOf .md5 = some p.served ∧ p.releaseOf .sha256 = some p.served) ∧
      (p.final .database).isSome = true := by
  unfold isPublished at published
  split at published
  · rename_i database md5 sha256 metadata here _ _ described
    have older : database.mtime ≤ metadata.mtime := by
      simpa [newerThan] using published
    rw [served_eq here, here]
    exact ⟨h.current database metadata here described older, rfl⟩
  · exact absurd published (by decide)

theorem written_consistent (clock : Int) (h : Consistent p) :
    Consistent (p.next T filename (.written clock)) := by
  have progress := h.progress
  have present := h.present
  cases at_ : p.pc with
  | writeMd5 metadata md5 sha256 =>
      rw [at_] at present
      simp only [next, at_]
      refine ⟨h.current, ?_, present⟩
      simp [Progress, Publisher.write, served]
  | writeSha256 metadata sha256 =>
      simp only [Progress, at_] at progress
      rw [at_] at present
      simp only [next, at_]
      refine ⟨h.current, ⟨?_, ?_⟩, present⟩
      · simpa [Publisher.write, served] using progress
      · simp [Publisher.write, served]
  | writeMetadata metadata sha256 =>
      simp only [Progress, at_] at progress
      rw [at_] at present
      simp only [next, at_]
      refine ⟨h.current, ⟨?_, ?_⟩, present⟩
      · simpa [Publisher.write, served] using progress.1
      · simpa [Publisher.write, served] using progress.2
  | _ => simpa only [next, at_] using h

theorem step_consistent (h : Consistent p) : Consistent (p.next T filename .step) := by
  have progress := h.progress
  cases at_ : p.pc with
  | idle => simp only [next, at_]; exact h.goto trivial (fun no => nomatch no)
  | returned success => simp only [next, at_]; exact h.goto trivial (fun no => nomatch no)
  | removeTemporaries =>
      simp only [next, at_]
      exact ⟨h.current, trivial, fun no => nomatch no⟩
  | cleanUp =>
      simp only [next, at_]
      exact ⟨h.current, trivial, fun no => nomatch no⟩
  | checkDatabase =>
      simp only [next, at_]
      split_ifs
      · exact h.goto trivial (fun no => nomatch no)
      · exact h.goto trivial (fun no => nomatch no)
  | checkPublished =>
      simp only [next, at_]
      split_ifs with published
      · exact h.goto (h.published published).1 fun _ => (h.published published).2
      · exact h.goto trivial (fun no => nomatch no)
  | verifyMd5 metadata =>
      simp only [next, at_]
      split
      · rename_i database md5 here _
        split_ifs
        · exact h.goto trivial fun _ => by rw [here]; rfl
        · exact h.goto trivial (fun no => nomatch no)
      · exact h.goto trivial (fun no => nomatch no)
  | moveMd5 =>
      simp only [Progress, at_] at progress
      simp only [next, at_]
      refine h.move (by decide) (by rw [at_]; rfl)
        (h.current.move_checksum (Or.inl rfl) progress.1) ⟨?_, ?_⟩
      · rw [releaseOf_move, progress.1, served_move (by decide)]
      · rw [served_move (by decide), ← progress.2]
        rfl
  | moveSha256 =>
      simp only [Progress, at_] at progress
      simp only [next, at_]
      refine h.move (by decide) (by rw [at_]; rfl)
        (h.current.move_checksum (Or.inr rfl) progress.2) ⟨?_, ?_⟩
      · rw [releaseOf_move_of_ne (by decide), progress.1, served_move (by decide)]
      · rw [releaseOf_move, progress.2, served_move (by decide)]
  | moveMetadata =>
      simp only [Progress, at_] at progress
      simp only [next, at_]
      refine h.move (by decide) (by rw [at_]; rfl)
        (Current.move_metadata progress.1 progress.2) ⟨?_, ?_⟩
      · rw [releaseOf_move_of_ne (by decide), progress.1, served_move (by decide)]
      · rw [releaseOf_move_of_ne (by decide), progress.2, served_move (by decide)]
  | _ => simpa only [next, at_] using h

theorem next_consistent (p : Publisher) (input : Input) (h : Consistent p)
    (allowed : p.sound input = true) : Consistent (p.next T filename input) := by
  cases input with
  | interrupt => exact h.goto trivial (fun no => nomatch no)
  | replaced database mtime =>
      unfold next
      dsimp only
      split_ifs
      · exact ⟨Current.replace allowed, trivial, fun no => nomatch no⟩
      · exact h
  | retrieved response =>
      cases at_ : p.pc with
      | retrieveMetadata =>
          simp only [next, at_]
          split
          · exact h.goto trivial (fun no => nomatch no)
          · exact h.goto trivial (fun no => nomatch no)
      | _ => simpa only [next, at_] using h
  | written clock => exact written_consistent clock h
  | writeFailed =>
      cases at_ : p.pc with
      | writeMetadata metadata sha256 =>
          simp only [next, at_]
          exact h.goto trivial (fun no => nomatch no)
      | _ => simpa only [next, at_] using h
  | step => exact step_consistent h

theorem start_consistent : Consistent start where
  current := by
    intro database metadata here
    nomatch here
  progress := trivial
  present := fun no => nomatch no

/-- The checksum files contain the digests of the database in place. -/
def Published (T : Tools) (filename : Bytes) (p : Publisher) : Prop :=
  ∃ database md5 sha256,
    p.final .database = some database ∧ p.final .md5 = some md5 ∧ p.final .sha256 = some sha256 ∧
    md5.content = checksumLine (lowerHex (T.md5 database.content)) filename ∧
    sha256.content = checksumLine (T.sha256 database.content) filename

/-- **Published checksums are those of the database on disk**, in every run whose
replacements the shortcut survives. -/
theorem published_of_returned (T : Tools) (filename : Bytes) (inputs : List Input)
    (allowed : Allowed (next T filename) (fun p input => p.sound input = true) start inputs)
    (success : (run (next T filename) start inputs).pc = .returned true) :
    (run (next T filename) start inputs).Published T filename := by
  have honest := run_always next_honest (start_honest T filename) inputs
  have h := run_invariant next_consistent start_consistent allowed
  have progress := h.progress
  simp only [Progress, success] at progress
  obtain ⟨database, here⟩ := Option.isSome_iff_exists.mp (h.present (by rw [success]; rfl))
  rw [served_eq here] at progress
  obtain ⟨md5, placedMd5, releaseMd5⟩ := Option.map_eq_some_iff.mp progress.1
  obtain ⟨sha256, placedSha256, releaseSha256⟩ := Option.map_eq_some_iff.mp progress.2
  have textMd5 := honest.faithful .md5 md5 (Or.inl placedMd5)
  have textSha256 := honest.faithful .sha256 sha256 (Or.inl placedSha256)
  rw [Describes, releaseMd5] at textMd5
  rw [Describes, releaseSha256] at textSha256
  exact ⟨database, md5, sha256, here, placedMd5, placedSha256, textMd5, textSha256⟩

/-! ### Two releases -/

/-- The text between a front and a back. -/
def between (front back text : Bytes) : Option Bytes :=
  if front <+: text ∧ back <:+ text then
    some ((text.drop front.length).take (text.length - front.length - back.length))
  else none

/-- MaxMind's entry of an edition, as `jq -c` prints it. -/
def sampleEntry (md5 : Bytes) : Bytes :=
  ascii "\x7b\"edition_id\":\"City\",\"md5\":\"" ++ md5 ++ ascii "\"\x7d"

/-- MaxMind's answer with a single entry. -/
def sampleAnswer (md5 : Bytes) : Bytes :=
  ascii "\x7b\"databases\":[" ++ sampleEntry md5 ++ ascii "]\x7d"

/-- `jq` on answers of this shape. -/
def sampleTools : Tools where
  toDigests := Client.sampleDigests
  selectEdition := between (ascii "\x7b\"databases\":[") (ascii "]\x7d")
  md5Field := between (ascii "\x7b\"edition_id\":\"City\",\"md5\":\"") (ascii "\"\x7d")
  addSha256 entry sha256 :=
    ascii "\x7b\n  \"edition_id\": \"City\",\n  \"md5\": \"" ++
      (between (ascii "\x7b\"edition_id\":\"City\",\"md5\":\"") (ascii "\"\x7d") entry).getD [] ++
      ascii "\",\n  \"sha256\": \"" ++ sha256 ++ ascii "\"\n\x7d\n"

/-- A call that publishes a release at the given time. -/
def publishInputs (database : Bytes) (clock : Int) : List Input :=
  [.step, .step, .step, .step, .retrieved (some (sampleAnswer (Client.sampleDigests.md5 database))),
    .step, .written clock, .written clock, .written clock, .step, .step, .step]

/-- The second release is newer than the metadata of the first; its publication is
interrupted after the first `mv` and made again. -/
theorem published_of_returned_resumed :
    let inputs := [.replaced (ascii "release 1") 10] ++ publishInputs (ascii "release 1") 20 ++
      [.replaced (ascii "release 2") 30] ++ (publishInputs (ascii "release 2") 40).take 10 ++
      [.interrupt] ++ publishInputs (ascii "release 2") 50
    (run (next sampleTools (ascii "City.mmdb")) start inputs).Published sampleTools (ascii "City.mmdb") :=
  published_of_returned sampleTools (ascii "City.mmdb") _ (by decide +kernel) (by decide +kernel)

/-- The second release carries a time before the publication of the first. The
shortcut takes it for published: the checksums served are those of the first. -/
theorem old_release_keeps_checksums :
    let inputs := [.replaced (ascii "release 1") 10] ++ publishInputs (ascii "release 1") 20 ++
      [.replaced (ascii "release 2") 15, .step, .step, .step, .step]
    (run (next sampleTools (ascii "City.mmdb")) start inputs).pc = .returned true ∧
      ¬ (run (next sampleTools (ascii "City.mmdb")) start inputs).Published sampleTools
        (ascii "City.mmdb") := by
  intro inputs
  have facts : (run (next sampleTools (ascii "City.mmdb")) start inputs).pc = .returned true ∧
      ((run (next sampleTools (ascii "City.mmdb")) start inputs).final .database).map File.content =
        some (ascii "release 2") ∧
      ((run (next sampleTools (ascii "City.mmdb")) start inputs).final .sha256).map File.content =
        some (checksumLine (sampleTools.sha256 (ascii "release 1")) (ascii "City.mmdb")) := by
    decide +kernel
  obtain ⟨returned, installed, served⟩ := facts
  constructor
  · exact returned
  · rintro ⟨database, md5, sha256, here, _, placed, _, text⟩
    rw [here, Option.map_some, Option.some.injEq] at installed
    rw [placed, Option.map_some, Option.some.injEq, text, installed] at served
    exact absurd served (by decide +kernel)

end Publisher

end Nshgeoip.GeoipUpdate
