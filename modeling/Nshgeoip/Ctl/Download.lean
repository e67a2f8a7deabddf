import Nshgeoip.Ctl
import Nshgeoip.GeoipSync

/-!
`download_one_db` of nshgeoipctl.sh, and the loop of `download_db` that calls it.

The commands it runs are not part of this repository: a `Call` is what they come to in one
call of the function. Digests are functions of the bytes, and so is what `tar` makes of
an archive. Every way out of the function but the first removes the temporary directory by
a command of its own, so the model removes it in each. `rm -rf` does not fail.
-/

namespace Nshgeoip.Ctl

open ByteText ShellText Machine GeoipSync

/-! ### What the function works on -/

/-- The files with what they hold, and the temporary directories. -/
structure Disk where
  fs : FileSystem
  content : Bytes → Option Bytes
  temporary : List Bytes

namespace Disk

/-- `mktemp -d`. -/
def mkdir (d : Disk) (dir : Bytes) : Disk := { d with temporary := dir :: d.temporary }

/-- `rm -rf`. -/
def remove (d : Disk) (dir : Bytes) : Disk := { d with temporary := d.temporary.erase dir }

/-- `install` of a database with the given bytes. -/
def install (d : Disk) (path data : Bytes) : Disk :=
  { d with
    fs := d.fs.install path
    content := fun q => if d.fs.leadsTo path q then some data else d.content q }

end Disk

/-- How `curl -w '%{http_code}' -o` ends: its exit status when that is not 0, or the HTTP
status with the bytes written. -/
inductive Transfer where
  | failed (exit : Nat)
  | done (status archive : Bytes)

/-- A file or a directory that `tar` made, by its path below the temporary directory. A
directory has no data. -/
structure Entry where
  path : Bytes
  data : Option Bytes

/-- How `install` of the database ends. After a failure anything may be left of the file. -/
inductive Installation where
  | done
  | failed (fs : FileSystem) (content : Bytes → Option Bytes)

/-- What the commands come to in one call. -/
structure Call where
  haveMd5sum : Bool
  haveSha256sum : Bool
  mktemp : Option Bytes
  /-- The transfer for a user and a URL. -/
  curl : Bytes → Bytes → Transfer
  /-- What `curl` prints for a user and a URL; nothing after a failure to connect. -/
  curlText : Bytes → Bytes → Bytes
  /-- What an archive unpacks to, in the order in which `find` lists it. -/
  tar : Bytes → Option (List Entry)
  /-- `install -d` works. -/
  installDir : Bool
  install : Installation

inductive Notice where
  | checking (e : Edition) (dest : Bytes)
  | noMd5sum (e : Edition)
  | downloading (e : Edition)
  | curlFailed (e : Edition) (exit : Nat)
  | upToDate (e : Edition) (dest : Bytes)
  | httpFailed (e : Edition) (status : Bytes)
  | noChecksum (e : Edition)
  | mismatch (e : Edition) (expected actual : Bytes)
  | verified (e : Edition)
  | noSha256sum (e : Edition)
  | notAnArchive (e : Edition)
  | noMmdb (e : Edition)
  | updated (dest : Bytes)

def Notice.text : Notice → Bytes
  | checking e dest =>
      ascii "Checking " ++ ascii e.id ++ ascii " for updates (" ++ dest ++ ascii ") ..."
  | noMd5sum e =>
      ascii "Info: md5sum not found -- doing a fresh download instead of an update check for " ++
        ascii e.id
  | downloading e => ascii "Downloading " ++ ascii e.id ++ ascii " ..."
  | curlFailed e exit =>
      ascii "Error: download failed for " ++ ascii e.id ++ ascii " (curl exit " ++ dec exit ++
        ascii ") -- check network connectivity."
  | upToDate e dest =>
      ascii "[" ++ ascii e.id ++ ascii "] already up to date (" ++ dest ++ ascii ")"
  | httpFailed e status =>
      ascii "Error: download failed for " ++ ascii e.id ++ ascii " (HTTP " ++ status ++
        ascii (") -- check the account ID/license key and that this edition is enabled on your " ++
          "MaxMind account.")
  | noChecksum e =>
      ascii "Error: could not fetch SHA256 checksum for " ++ ascii e.id ++
        ascii " -- refusing to install unverified data."
  | mismatch e expected actual =>
      ascii "Error: SHA256 mismatch for " ++ ascii e.id ++ ascii " (expected " ++ expected ++
        ascii ", got " ++ actual ++
        ascii (") -- refusing to install; archive may be corrupted or tampered with in transit.")
  | verified e => ascii "[" ++ ascii e.id ++ ascii "] SHA256 verified"
  | noSha256sum e =>
      ascii "Info: sha256sum not found -- skipping checksum verification for " ++ ascii e.id
  | notAnArchive e =>
      ascii "Error: downloaded file for " ++ ascii e.id ++
        ascii " is not a valid archive -- check the account ID/license key."
  | noMmdb e =>
      ascii "Error: no .mmdb file found in the downloaded " ++ ascii e.id ++ ascii " archive."
  | updated dest => ascii "[" ++ dest ++ ascii "] updated"

/-! ### The parts of the function -/

def databaseUrl (e : Edition) : Bytes :=
  ascii "https://updates.maxmind.com/geoip/databases/" ++ ascii e.id

def updateUrl (e : Edition) (md5 : Bytes) : Bytes := databaseUrl e ++ ascii "/update?db_md5=" ++ md5

def downloadUrl (e : Edition) : Bytes := databaseUrl e ++ ascii "/download?suffix=tar.gz"

def checksumUrl (e : Edition) : Bytes := databaseUrl e ++ ascii "/download?suffix=tar.gz.sha256"

/-- The digest as `md5sum` and `sha256sum` print it: behind a backslash when the path has a
character they have to escape. -/
def printedDigest (path digest : Bytes) : Bytes :=
  if path.any fun b => b = 92 ∨ b = 10 ∨ b = 13 then 92 :: digest else digest

/-- `awk '{print $1}'`, captured. -/
def firstFields (text : Bytes) : Bytes :=
  captured ((getLines text).flatMap fun line =>
    (line.dropWhile isBlank).takeWhile (fun b => !isBlank b) ++ [10])

/-- `local_md5`: empty when there is nothing to read. -/
def localMd5 (D : Digests) (d : Disk) (dest : Bytes) : Bytes :=
  match d.content dest with
  | some data => printedDigest dest (D.md5 data)
  | none => []

/-- The URL, with what is said before it is used. -/
def Call.request (D : Digests) (c : Call) (d : Disk) (e : Edition) (dest : Bytes) :
    Bytes × List Notice :=
  if d.fs.readable dest ∧ c.haveMd5sum then
    (updateUrl e (localMd5 D d dest), [.checking e dest])
  else
    (downloadUrl e, (if d.fs.readable dest then [.noMd5sum e] else []) ++ [.downloading e])

def archivePath (tmpdir : Bytes) : Bytes := tmpdir ++ ascii "/db.tar.gz"

/-- The check of the archive: what is said when it fails, or when it goes on. -/
def Call.verify (D : Digests) (c : Call) (user : Bytes) (e : Edition) (tmpdir archive : Bytes) :
    Except Notice Notice :=
  if c.haveSha256sum then
    let expected := firstFields (c.curlText user (checksumUrl e))
    let actual := printedDigest (archivePath tmpdir) (D.sha256 archive)
    if expected = [] then .error (.noChecksum e)
    else if actual ≠ expected then .error (.mismatch e expected actual)
    else .ok (.verified e)
  else .ok (.noSha256sum e)

/-- `-maxdepth 2 -iname '*.mmdb'`. -/
def Entry.isMmdb (entry : Entry) : Bool :=
  let names := entry.path.splitOn 47
  names.length ≤ 2 ∧ ascii ".mmdb" <:+ toLower (names.getLast?.getD [])

def Entry.pathIn (tmpdir : Bytes) (entry : Entry) : Bytes := tmpdir ++ ascii "/" ++ entry.path

/-- `mmdb_path`: the first line `find` prints. -/
def findMmdb (tmpdir : Bytes) (entries : List Entry) : Bytes :=
  match entries.find? Entry.isMmdb with
  | some entry => captured ((entry.pathIn tmpdir).takeWhile (· ≠ 10))
  | none => []

/-- What `install` finds at a path. -/
def dataAt (tmpdir : Bytes) (entries : List Entry) (path : Bytes) : Option Bytes :=
  (entries.find? fun entry => entry.pathIn tmpdir = path).bind Entry.data

/-! ### The function -/

structure Outcome where
  reply : Reply
  disk : Disk
  notices : List Notice

/-- The part of the function behind the checks. -/
def Call.installMmdb (c : Call) (d : Disk) (e : Edition) (dest tmpdir : Bytes) (entries : List Entry)
    (said : List Notice) : Outcome :=
  let path := findMmdb tmpdir entries
  if path = [] then ⟨.failed, d.remove tmpdir, said ++ [.noMmdb e]⟩
  else if c.installDir = false then ⟨.failed, d.remove tmpdir, said⟩
  else
    match c.install, dataAt tmpdir entries path with
    | .done, some data => ⟨.installed, (d.install dest data).remove tmpdir, said ++ [.updated dest]⟩
    -- there is no file to copy
    | .done, none => ⟨.failed, d.remove tmpdir, said⟩
    | .failed fs content, _ =>
        ⟨.failed, { d with fs := fs, content := content }.remove tmpdir, said⟩

/-- `download_one_db` for an edition and the path it is stored at. -/
def downloadOneDb (D : Digests) (user : Bytes) (e : Edition) (dest : Bytes) (c : Call) (d : Disk) :
    Outcome :=
  match c.mktemp with
  | none => ⟨.failed, d, []⟩
  | some tmpdir =>
      let d := d.mkdir tmpdir
      let (url, said) := c.request D d e dest
      match c.curl user url with
      | .failed exit => ⟨.failed, d.remove tmpdir, said ++ [.curlFailed e exit]⟩
      | .done status archive =>
          if status = ascii "304" then
            ⟨.notModified, d.remove tmpdir, said ++ [.upToDate e dest]⟩
          else if status ≠ ascii "200" then
            ⟨.failed, d.remove tmpdir, said ++ [.httpFailed e status]⟩
          else
            match c.verify D user e tmpdir archive with
            | .error notice => ⟨.failed, d.remove tmpdir, said ++ [notice]⟩
            | .ok notice =>
                match c.tar archive with
                | none => ⟨.failed, d.remove tmpdir, said ++ [notice, .notAnArchive e]⟩
                | some entries => c.installMmdb d e dest tmpdir entries (said ++ [notice])

/-! ### The loop -/

/-- A turn of the loop. -/
structure Job where
  edition : Edition
  dest : Bytes
  call : Call

def Job.outcome (D : Digests) (user : Bytes) (d : Disk) (job : Job) : Outcome :=
  downloadOneDb D user job.edition job.dest job.call d

/-- The disk after a turn. -/
def fetch (D : Digests) (user : Bytes) (d : Disk) (job : Job) : Disk := (job.outcome D user d).disk

/-- How the turns end. -/
def outcomes (D : Digests) (user : Bytes) : Disk → List Job → List Outcome
  | _, [] => []
  | d, job :: jobs => job.outcome D user d :: outcomes D user (fetch D user d job) jobs

def replies (D : Digests) (user : Bytes) (d : Disk) (jobs : List Job) : List Reply :=
  (outcomes D user d jobs).map Outcome.reply

/-- The turns for a list of editions, with what each of them meets. -/
def Host.jobs (h : Host) (editions : List Edition) (calls : ℕ → Call) : List Job :=
  editions.zipIdx.map fun e => ⟨e.1, h.owned e.1, calls e.2⟩

/-! ### The command, with its calls -/

structure Finished where
  ok : Bool
  disk : Disk
  messages : List Message
  notices : List Notice

/-- The value of `curl -u`. -/
def Host.user (h : Host) (s : Session) : Bytes :=
  firstSet [s.accountEnv, h.credentials.accountId, s.accountPrompt] ++ ascii ":" ++
    firstSet [s.licenseEnv, h.credentials.licenseKey, s.licensePrompt]

/-- `process` with the calls themselves instead of their replies. -/
def processCalls (D : Digests) (h : Host) (s : Session) (d : Disk) (calls : ℕ → Call)
    (autoDefaulted : Bool) (editions : List Edition) (messages : List Message) : Finished :=
  let left := h.toProcess autoDefaulted editions
  let messages := messages ++ h.skipMessages autoDefaulted editions
  let accountId := firstSet [s.accountEnv, h.credentials.accountId, s.accountPrompt]
  let licenseKey := firstSet [s.licenseEnv, h.credentials.licenseKey, s.licensePrompt]
  if left = [] then ⟨true, d, messages ++ [.nothingToDo], []⟩
  else if accountId = [] ∨ licenseKey = [] then ⟨false, d, messages ++ [.credentialsRequired], []⟩
  else if s.haveCurl = false then ⟨false, d, messages ++ [.commandRequired "curl"], []⟩
  else if s.haveTar = false then ⟨false, d, messages ++ [.commandRequired "tar"], []⟩
  else if s.isRoot = false then ⟨false, d, messages, []⟩
  else
    let jobs := h.jobs left calls
    ⟨(replies D (h.user s) d jobs).all fun reply => reply ≠ .failed,
      run (fetch D (h.user s)) d jobs, messages,
      (outcomes D (h.user s) d jobs).flatMap Outcome.notices⟩

/-- `download_db` with the calls of `download_one_db`. -/
def downloadDbCalls (D : Digests) (h : Host) (s : Session) (d : Disk) (calls : ℕ → Call)
    (args : List Bytes) : Finished :=
  let greeting := match h.geoipConf with
    | some _ => [.credentialsFrom]
    | none => []
  if args = [] then
    let unknown := h.credentials.editionIds.filter fun raw => (Edition.normalize raw).isNone
    processCalls D h s d calls true h.defaultEditions (greeting ++ unknown.map .noSlot)
  else
    match args.find? fun raw => (Edition.ofName raw).isNone with
    | some raw => ⟨false, d, greeting ++ [.unknownEdition raw], []⟩
    | none => processCalls D h s d calls false (args.filterMap Edition.ofName) greeting

end Nshgeoip.Ctl
