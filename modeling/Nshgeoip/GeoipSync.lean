import Nshgeoip.Lib.Machine
import Nshgeoip.Lib.ShellText
import Mathlib.Logic.Function.Basic

/-!
The sync client: `update_database` of geoip-sync.sh for one edition, command by
command.

The script works on four files, the database and its three sidecars, each with
a temporary beside it. Downloads go to the temporaries, everything is verified
there, and four `mv` put the files in place, the SHA-256 sidecar last. The
program counter says which command comes next; the input says how the world
answers it: what the mirror sent, whether the downloaded database could be
given its modification time, whether a `mv` worked. An interruption may come
before any command and leaves every file as it is.

`run_sync` calls the function under `if !`, which suspends `set -e`: a `mv`
that fails stops nothing, and the function still returns what its last `echo`
returns. The file of response headers is written and removed beside the others
and never read after the time stamp is set; it is left out.
-/

namespace Nshgeoip.GeoipSync

open ByteText ShellText Machine

/-- The files of one edition. -/
inductive Slot where
  | database
  | md5
  | sha256
  | metadata
  deriving DecidableEq, Repr

structure Dir where
  final : Slot → Option Bytes
  temporary : Slot → Option Bytes

namespace Dir

/-- No files for the edition. -/
def empty : Dir := ⟨fun _ => none, fun _ => none⟩

/-- `wget -O` on a temporary, complete or cut short. -/
def write (dir : Dir) (slot : Slot) (content : Option Bytes) : Dir :=
  { dir with temporary := Function.update dir.temporary slot content }

/-- `rm -f` on temporaries. -/
def remove (dir : Dir) (slots : List Slot) : Dir :=
  { dir with temporary := fun slot => if slot ∈ slots then none else dir.temporary slot }

/-- `mv` of a temporary onto its final name. -/
def move (dir : Dir) (slot : Slot) : Dir :=
  match dir.temporary slot with
  | some content =>
      { final := Function.update dir.final slot (some content)
        temporary := Function.update dir.temporary slot none }
  | none => dir

end Dir

/-- The digests `sha256sum` and `md5sum` print. -/
structure Digests where
  sha256 : Bytes → Bytes
  md5 : Bytes → Bytes

/-- What became of a download: the whole response, or a failure that may leave
part of one behind. -/
inductive Fetch where
  | ok (response : Bytes)
  | failed (partialFile : Option Bytes)

/-- The next command, with the shell variables that are still read. -/
inductive Pc where
  /-- No call is running. -/
  | idle
  | removeTemporaries
  | downloadSha256
  | readSha256
  | compareCurrent (expected : Bytes)
  | downloadDatabase (expected : Bytes)
  | verifySha256 (expected : Bytes)
  | downloadMd5
  | readMd5
  | verifyMd5 (expected : Bytes)
  | downloadMetadata
  /-- Last-Modified is read from the headers, parsed and given to `touch`. -/
  | stamp
  | move (slot : Slot)
  /-- The `rm -f` before a `return`. -/
  | cleanUp (slots : List Slot) (success : Bool)
  | returned (success : Bool)
  deriving DecidableEq

/-- How the world answers the next command. -/
inductive Input where
  | step
  | downloaded (fetch : Fetch)
  | stamped (ok : Bool)
  | moved (ok : Bool)
  | interrupt

/-- The client, with what a reader of its log could tell: the responses this
call has had, the two checksum responses of every call that had both, the
files in place when the call began, and whether a database was put in place
whose SHA-256 sidecar has not followed. -/
structure Client where
  dir : Dir
  pc : Pc
  response : Slot → Option Bytes
  certificates : List (Bytes × Bytes)
  entry : Slot → Option Bytes
  torn : Bool

namespace Client

/-- No call yet, on the given files. -/
def start (dir : Dir) : Client := ⟨dir, .idle, fun _ => none, [], dir.final, false⟩

/-- `run_sync` calls `update_database`. -/
def call (c : Client) : Client :=
  { c with pc := .removeTemporaries, response := fun _ => none, entry := c.dir.final }

/-- `return 1`, after the temporaries are removed. -/
def fail (c : Client) (slots : List Slot) : Client := { c with pc := .cleanUp slots false }

/-- A whole response in a temporary. -/
def receive (c : Client) (slot : Slot) (response : Bytes) : Client :=
  { c with
    dir := c.dir.write slot (some response)
    response := Function.update c.response slot (some response) }

/-- `download_file`: go on at `next` with the response in the temporary, or clean
up and fail. -/
def download (c : Client) (slot : Slot) (next : Pc) (cleanup : List Slot) : Fetch → Client
  | .ok response => { c.receive slot response with pc := next }
  | .failed partialFile => { c with dir := c.dir.write slot partialFile }.fail cleanup

/-- The first field of a checksum file, in lower case. -/
def digestOf (file : Bytes) : Bytes := lowerHex (firstField file)

/-- Whether the sidecar in place names the expected digest. The database is
there, but it is not hashed. -/
def isCurrent (c : Client) (expected : Bytes) : Bool :=
  match c.dir.final .database, c.dir.final .sha256 with
  | some _, some sidecar => digestOf sidecar == expected
  | _, _ => false

/-- The digest of a downloaded file; the tool prints nothing for a file that is
not there. -/
def digest (c : Client) (sum : Bytes → Bytes) : Bytes :=
  match c.dir.temporary .database with
  | some content => lowerHex (sum content)
  | none => []

/-- The two checksum responses of the call, once both are there. -/
def certify (c : Client) : Client :=
  match c.response .sha256, c.response .md5 with
  | some sha256, some md5 => { c with certificates := (sha256, md5) :: c.certificates }
  | _, _ => c

/-- The `mv` after this one; after the last the function returns 0. -/
def afterMove : Slot → Pc
  | .database => .move .md5
  | .md5 => .move .metadata
  | .metadata => .move .sha256
  | .sha256 => .returned true

/-- A new database tears the directory, its sidecar mends it. -/
def tornAfter (torn : Bool) : Slot → Bool
  | .database => true
  | .sha256 => false
  | _ => torn

/-- A `mv` that worked. -/
def install (c : Client) (slot : Slot) : Client :=
  { c with dir := c.dir.move slot, pc := afterMove slot, torn := tornAfter c.torn slot }

variable (D : Digests)

/-- One command. An input that does not answer it changes nothing. -/
def next (c : Client) : Input → Client
  | .interrupt => { c with pc := .idle }
  | .step =>
      match c.pc with
      | .idle => c.call
      | .returned _ => c.call
      | .removeTemporaries =>
          { c with dir := c.dir.remove [.database, .md5, .sha256, .metadata], pc := .downloadSha256 }
      | .readSha256 =>
          let field := firstField ((c.dir.temporary .sha256).getD [])
          if isHex 64 field then { c with pc := .compareCurrent (lowerHex field) }
          else c.fail [.sha256]
      | .compareCurrent expected =>
          if c.isCurrent expected then { c with pc := .cleanUp [.sha256] true }
          else { c with pc := .downloadDatabase expected }
      | .verifySha256 expected =>
          if c.digest D.sha256 = expected then { c with pc := .downloadMd5 }
          else c.fail [.database, .sha256]
      | .readMd5 =>
          let field := firstField ((c.dir.temporary .md5).getD [])
          if isHex 32 field then { c with pc := .verifyMd5 (lowerHex field) }
          else c.fail [.database, .md5, .sha256]
      | .verifyMd5 expected =>
          if c.digest D.md5 = expected then { c with pc := .downloadMetadata }
          else c.fail [.database, .md5, .sha256]
      | .cleanUp slots success => { c with dir := c.dir.remove slots, pc := .returned success }
      | _ => c
  | .downloaded fetch =>
      match c.pc with
      | .downloadSha256 => c.download .sha256 .readSha256 [.sha256] fetch
      | .downloadDatabase expected =>
          c.download .database (.verifySha256 expected) [.database, .sha256] fetch
      | .downloadMd5 => (c.download .md5 .readMd5 [.database, .md5, .sha256] fetch).certify
      | .downloadMetadata =>
          c.download .metadata .stamp [.database, .md5, .sha256, .metadata] fetch
      | _ => c
  | .stamped ok =>
      match c.pc with
      | .stamp =>
          if ok then { c with pc := .move .database }
          else c.fail [.database, .md5, .sha256, .metadata]
      | _ => c
  | .moved ok =>
      match c.pc with
      | .move slot => if ok then c.install slot else { c with pc := afterMove slot }
      | _ => c

end Client

end Nshgeoip.GeoipSync
