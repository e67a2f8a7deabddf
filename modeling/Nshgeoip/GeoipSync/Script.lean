import Nshgeoip.GeoipSync.Marker
import Nshgeoip.Lib.Sections
import Nshgeoip.Lib.Service

/-!
geoip-sync.sh as a whole: the editions of one cycle after another, in one directory.

`run_sync` calls `update_database` for each edition of the list, goes on to the next
whatever the call returns, and reports failure when one of them failed. The main loop
sleeps and starts again, or exits after the first cycle when the interval is zero. TERM
and INT end the script at any command, and the container may start it again on the
directory it left.

The directory is one store of files under names. The files of an edition are those
`update_database` names, nine of them with the response headers, and no name belongs to
two editions. Names are compared as text: two spellings of one path count as two files.
-/

namespace Nshgeoip.GeoipSync

open ByteText ShellText Machine Sections Sweep

/-! ### The files of an edition -/

inductive Place where
  | final (slot : Slot)
  | temporary (slot : Slot)
  | headers
  deriving DecidableEq, Repr

namespace Place

def all : List Place :=
  [.final .database, .final .md5, .final .sha256, .final .metadata, .temporary .database,
    .temporary .md5, .temporary .sha256, .temporary .metadata, .headers]

/-- What the script appends to the edition for a file in place. -/
def finalSuffix : Slot → Bytes
  | .database => ascii ".mmdb"
  | .md5 => ascii ".mmdb.md5"
  | .sha256 => ascii ".mmdb.sha256"
  | .metadata => ascii ".mmdb.metadata.json"

def suffix : Place → Bytes
  | .final slot => finalSuffix slot
  | .temporary slot => finalSuffix slot ++ ascii ".tmp"
  | .headers => ascii ".mmdb.headers.tmp"

theorem mem_all (place : Place) : place ∈ all := by
  cases place with
  | headers => exact List.mem_of_elem_eq_true rfl
  | _ slot => cases slot <;> exact List.mem_of_elem_eq_true rfl

/-- No suffix ends another: each has `.mmdb` at its start and nowhere else. -/
theorem suffix_apart {place other : Place} (ends : place.suffix <:+ other.suffix) : place = other := by
  have apart : all.all (fun place => all.all fun other =>
      !place.suffix.isSuffixOf other.suffix || place == other) = true := by
    decide +kernel
  have pair := List.all_eq_true.mp (List.all_eq_true.mp apart place (mem_all place)) other (mem_all other)
  rw [List.isSuffixOf_iff_suffix.mpr ends] at pair
  simpa using pair

theorem name_injective {edition edition' : Bytes} {place place' : Place}
    (same : edition ++ place.suffix = edition' ++ place'.suffix) :
    edition = edition' ∧ place = place' := by
  have first : place.suffix <:+ edition ++ place.suffix := List.suffix_append ..
  have second : place'.suffix <:+ edition ++ place.suffix := same ▸ List.suffix_append ..
  have alike : place = place' := by
    rcases List.suffix_or_suffix_of_suffix first second with shorter | longer
    · exact suffix_apart shorter
    · exact (suffix_apart longer).symm
  subst alike
  exact ⟨List.append_cancel_right same, rfl⟩

end Place

/-- The names `update_database` gives the files of its edition. -/
def naming : Naming Bytes Place Bytes where
  name edition place := edition ++ place.suffix
  indices := Place.all
  complete := Place.mem_all
  injective := Place.name_injective

/-! ### The script -/

/-- What is known of an edition outside the directory: where its call is, and what
the log says of it. -/
structure Memory where
  pc : Pc
  response : Slot → Option Bytes
  certificates : List (Bytes × Bytes)
  entry : Slot → Option Bytes
  torn : Bool

namespace Client

def memory (c : Client) : Memory := ⟨c.pc, c.response, c.certificates, c.entry, c.torn⟩

/-- Whether the call has returned, and what. -/
def outcome (c : Client) : Option Bool :=
  match c.pc with
  | .returned success => some success
  | _ => none

/-- The file of response headers: `wget -S` writes it with the database, and it goes
when the database's temporary goes or the time stamp has been set. -/
def headersAfter (c : Client) (input : Input) (headers : Bytes) (old : Option Bytes) : Option Bytes :=
  match c.pc, input with
  | .removeTemporaries, .step => none
  | .downloadDatabase _, .downloaded _ => some headers
  | .cleanUp slots _, .step => if .database ∈ slots then none else old
  | .stamp, .stamped true => none
  | _, _ => old

end Client

/-- The directory and the calls of all editions. -/
structure Workspace where
  files : Bytes → Option Bytes
  memory : Bytes → Memory

namespace Workspace

/-- The files of an edition, without the response headers. -/
def dir (w : Workspace) (edition : Bytes) : Dir where
  final slot := w.files (naming.name edition (.final slot))
  temporary slot := w.files (naming.name edition (.temporary slot))

def client (w : Workspace) (edition : Bytes) : Client where
  dir := w.dir edition
  pc := (w.memory edition).pc
  response := (w.memory edition).response
  certificates := (w.memory edition).certificates
  entry := (w.memory edition).entry
  torn := (w.memory edition).torn

/-- The section of an edition as a command leaves it. -/
def contents (dir : Dir) (headers : Option Bytes) : Place → Option Bytes
  | .final slot => dir.final slot
  | .temporary slot => dir.temporary slot
  | .headers => headers

/-- Another state of one edition's files and of its call. -/
def put (w : Workspace) (edition : Bytes) (c : Client) (headers : Option Bytes) : Workspace where
  files := naming.put w.files edition (contents c.dir headers)
  memory := Function.update w.memory edition c.memory

/-- No call yet, on the given files. -/
def start (files : Bytes → Option Bytes) : Workspace where
  files := files
  memory edition :=
    { pc := .idle
      response := fun _ => none
      certificates := []
      entry := fun slot => files (naming.name edition (.final slot))
      torn := false }

/-- How the world answers a command, with the headers a download is answered with. -/
structure Answer where
  input : Input
  headers : Bytes := []

/-- A command of `update_database "$edition"`. -/
def updateDatabase (D : Digests) (w : Workspace) (edition : Bytes) (answer : Answer) : Workspace :=
  w.put edition ((w.client edition).next D answer.input)
    ((w.client edition).headersAfter answer.input answer.headers
      (w.files (naming.name edition .headers)))

variable {w : Workspace}

theorem client_put_self (edition : Bytes) (c : Client) (headers : Option Bytes) :
    (w.put edition c headers).client edition = c := by
  simp [client, put, dir, naming.put_name, contents, Client.memory]

theorem client_put_other {edition other : Bytes} (apart : other ≠ edition) (c : Client)
    (headers : Option Bytes) : (w.put edition c headers).client other = w.client other := by
  have files : ∀ place, naming.put w.files edition (contents c.dir headers) (naming.name other place) =
      w.files (naming.name other place) := by
    intro place
    have same : naming.view (naming.put w.files edition (contents c.dir headers)) other =
        naming.view w.files other := Naming.view_put_other apart
    exact congrFun same place
  simp [client, put, dir, files, apart]

/-- A command for one edition leaves the clients of the others. -/
theorem client_updateDatabase (D : Digests) (w : Workspace) (edition : Bytes) (answer : Answer) :
    (w.updateDatabase D edition answer).client =
      Function.update w.client edition ((w.client edition).next D answer.input) := by
  funext other
  by_cases mine : other = edition
  · subst mine
    rw [Function.update_self]
    exact client_put_self ..
  · rw [Function.update_of_ne mine]
    exact client_put_other mine ..

end Workspace

open Workspace

theorem pc_of_outcome {c : Client} {ok : Bool} (shown : c.outcome = some ok) : c.pc = .returned ok := by
  unfold Client.outcome at shown
  split at shown
  · rename_i success at_
    rw [at_, Option.some.inj shown]
  · nomatch shown

theorem client_settles (D : Digests) :
    Settles (fun c (answer : Answer) => Client.next D c answer.input) Client.outcome := by
  rintro c ⟨input, headers⟩ ok shown
  have at_ : c.pc = .returned ok := pc_of_outcome shown
  cases input with
  | interrupt => exact Or.inr rfl
  | step => exact Or.inr (by simp only [Client.next, at_]; rfl)
  | _ => exact Or.inl (by simpa only [Client.next, at_] using shown)

/-- What an answer is to a running call; an interruption is none. -/
def isAnswer : Input → Bool
  | .interrupt => false
  | _ => true

/-- The script for the words of GEOIP_SYNC_EDITION_IDS and a GEOIP_SYNC_INTERVAL:
`run_sync` in the main loop, one cycle only when the interval is zero. -/
def script (D : Digests) (editions : List Bytes) (interval : ℕ) :
    Service Workspace Bytes Client Answer where
  keys := editions
  get := client
  next c answer := c.next D answer.input
  apply := updateDatabase D
  outcome := Client.outcome
  commands answer := isAnswer answer.input
  prepares _ := false
  interrupt := ⟨.interrupt, []⟩
  preparing := false
  once := interval == 0
  get_apply := client_updateDatabase D
  settles := client_settles D

end Nshgeoip.GeoipSync
