import Nshgeoip.GeoipSync

/-!
The mirror's publisher: `publish_checksums` of geoip-update/entrypoint.sh for one
edition, command by command, between the runs of `geoipupdate` that replace the
database.

The function writes the two checksum files and the metadata next to the database
and leaves everything alone when all three are there and the database is not
newer than the metadata. The two times come from different clocks: with
GEOIPUPDATE_PRESERVE_FILE_TIMES the database carries MaxMind's, the metadata
carries the time it was written. `geoipupdate` has ended when the function is
called, so the database changes only between calls.
-/

namespace Nshgeoip.GeoipUpdate

open ByteText ShellText Machine GeoipSync

/-- A file with its modification time and, of what is not in the file, the
database it was made from. -/
structure File where
  content : Bytes
  mtime : Int
  release : Bytes
  deriving DecidableEq

/-- What the function leaves to other programs. -/
structure Tools extends Digests where
  /-- `jq -ce '.databases[] | select(.edition_id == $edition)'`. -/
  selectEdition : Bytes → Option Bytes
  /-- `jq -er '.md5'`. -/
  md5Field : Bytes → Option Bytes
  /-- `jq --arg sha256 "$sha256" '. + {sha256: $sha256}'`. -/
  addSha256 : Bytes → Bytes → Bytes

/-- The next command, with the shell variables that are still read. -/
inductive Pc where
  /-- No call is running. -/
  | idle
  | removeTemporaries
  | checkDatabase
  | checkPublished
  | retrieveMetadata
  | verifyMd5 (metadata : Bytes)
  | writeMd5 (metadata expectedMd5 sha256 : Bytes)
  | writeSha256 (metadata sha256 : Bytes)
  | writeMetadata (metadata sha256 : Bytes)
  | moveMd5
  | moveSha256
  | moveMetadata
  /-- The `rm -f` after `jq` has failed. -/
  | cleanUp
  | returned (success : Bool)
  deriving DecidableEq

/-- How the world answers the next command. -/
inductive Input where
  | step
  /-- A run of `geoipupdate` installs a release. -/
  | replaced (database : Bytes) (mtime : Int)
  /-- MaxMind's answer, if `wget` had one. -/
  | retrieved (response : Option Bytes)
  /-- A temporary was written at this time. -/
  | written (clock : Int)
  | writeFailed
  | interrupt

structure Publisher where
  final : Slot → Option File
  temporary : Slot → Option File
  pc : Pc

namespace Publisher

/-- No files for the edition. -/
def start : Publisher := ⟨fun _ => none, fun _ => none, .idle⟩

/-- `[ "$database" -nt "$metadata_file" ]`. -/
def newerThan (database metadata : File) : Bool := decide (metadata.mtime < database.mtime)

/-- All three files are there and the database is not newer than the metadata. -/
def isPublished (p : Publisher) : Bool :=
  match p.final .database, p.final .md5, p.final .sha256, p.final .metadata with
  | some database, some _, some _, some metadata => !newerThan database metadata
  | _, _, _, _ => false

/-- The checks of MaxMind's answer, down to the entry of the edition. -/
def selected (T : Tools) : Option Bytes → Option Bytes
  | none => none
  | some response => if response = [] then none else T.selectEdition response

/-- The MD5 MaxMind names, in lower case, when it is one. -/
def expectedMd5 (T : Tools) (metadata : Bytes) : Option Bytes :=
  match T.md5Field metadata with
  | none => none
  | some md5 => if isHex 32 (lowerHex md5) then some (lowerHex md5) else none

/-- The database in place; the checksums are of what is there when they are made. -/
def served (p : Publisher) : Bytes := ((p.final .database).map File.content).getD []

def write (p : Publisher) (slot : Slot) (content : Bytes) (clock : Int) (next : Pc) : Publisher :=
  { p with
    temporary := Function.update p.temporary slot (some ⟨content, clock, p.served⟩)
    pc := next }

/-- `mv` of a temporary onto its final name. -/
def move (p : Publisher) (slot : Slot) (next : Pc) : Publisher :=
  { final := Function.update p.final slot (p.temporary slot)
    temporary := Function.update p.temporary slot none
    pc := next }

/-- `geoipupdate` puts a release in place. -/
def replace (p : Publisher) (database : Bytes) (mtime : Int) : Publisher :=
  { p with
    final := Function.update p.final .database (some ⟨database, mtime, database⟩)
    pc := .idle }

/-- Whether `geoipupdate` may run. -/
def isQuiet : Pc → Bool
  | .idle => true
  | .returned _ => true
  | _ => false

variable (T : Tools) (filename : Bytes)

/-- One command. An input that does not answer it changes nothing. Of the writes only the
metadata's is checked by the function; the two `printf` and the three `mv` always work here. -/
def next (p : Publisher) : Input → Publisher
  | .interrupt => { p with pc := .idle }
  | .replaced database mtime =>
      if isQuiet p.pc then p.replace database mtime else p
  | .retrieved response =>
      match p.pc with
      | .retrieveMetadata =>
          match selected T response with
          | some metadata => { p with pc := .verifyMd5 metadata }
          | none => { p with pc := .returned false }
      | _ => p
  | .written clock =>
      match p.pc with
      | .writeMd5 metadata md5 sha256 =>
          p.write .md5 (checksumLine md5 filename) clock (.writeSha256 metadata sha256)
      | .writeSha256 metadata sha256 =>
          p.write .sha256 (checksumLine sha256 filename) clock (.writeMetadata metadata sha256)
      | .writeMetadata metadata sha256 =>
          p.write .metadata (T.addSha256 metadata sha256) clock .moveMd5
      | _ => p
  | .writeFailed =>
      match p.pc with
      | .writeMetadata _ _ => { p with pc := .cleanUp }
      | _ => p
  | .step =>
      match p.pc with
      | .idle => { p with pc := .removeTemporaries }
      | .returned _ => { p with pc := .removeTemporaries }
      | .removeTemporaries => { p with temporary := fun _ => none, pc := .checkDatabase }
      | .checkDatabase =>
          if (p.final .database).isSome then { p with pc := .checkPublished }
          else { p with pc := .returned false }
      | .checkPublished =>
          if p.isPublished then { p with pc := .returned true } else { p with pc := .retrieveMetadata }
      | .verifyMd5 metadata =>
          match p.final .database, expectedMd5 T metadata with
          | some database, some md5 =>
              if lowerHex (T.md5 database.content) = md5 then
                { p with pc := .writeMd5 metadata md5 (T.sha256 database.content) }
              else { p with pc := .returned false }
          | _, _ => { p with pc := .returned false }
      | .moveMd5 => p.move .md5 .moveSha256
      | .moveSha256 => p.move .sha256 .moveMetadata
      | .moveMetadata => p.move .metadata (.returned true)
      | .cleanUp => { p with temporary := fun _ => none, pc := .returned false }
      | _ => p

end Publisher

end Nshgeoip.GeoipUpdate
