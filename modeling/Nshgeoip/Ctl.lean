import Nshgeoip.Config
import Nshgeoip.Lib.Machine
import Nshgeoip.Lib.ShellText

/-!
`download_db` of nshgeoipctl.sh: which databases are fetched and where they are
stored.

The script reads nshgeoip.conf and /etc/GeoIP.conf with its own few lines of
shell, not with the daemon's parser. What is stored where follows from them;
`download_one_db` enters only by its outcome, a file installed at the path, an
answer that the file there is current, or a failure. The databases of a default
directory count as managed elsewhere unless the directory is the one stored to.
-/

namespace Nshgeoip.Ctl

open ByteText ShellText Machine

/-! ### Files -/

/-- The files a path leads to. A path may have other names: a link, a doubled
slash, a relative path. -/
structure FileSystem where
  /-- `stat` finds a regular file. -/
  regular : Bytes → Bool
  /-- `[ -r path ]`. -/
  readable : Bytes → Bool
  /-- A file put at the first path is found at the second. -/
  leadsTo : Bytes → Bytes → Bool
  leadsTo_refl : ∀ path, leadsTo path path = true
  leadsTo_trans : ∀ p q r, leadsTo p q = true → leadsTo q r = true → leadsTo p r = true
  regular_of_leadsTo : ∀ p q, regular p = true → leadsTo p q = true → regular q = true

namespace FileSystem

/-- `install` of a database at a path. -/
def install (fs : FileSystem) (path : Bytes) : FileSystem :=
  { fs with
    regular := fun q => fs.regular q || fs.leadsTo path q
    readable := fun q => fs.readable q || fs.leadsTo path q
    regular_of_leadsTo := by
      intro p q here leads
      simp only [Bool.or_eq_true] at here ⊢
      rcases here with before | new
      · exact Or.inl (fs.regular_of_leadsTo p q before leads)
      · exact Or.inr (fs.leadsTo_trans path p q new leads) }

end FileSystem

/-! ### Editions -/

inductive Edition where
  | country
  | asn
  | city
  deriving DecidableEq, Repr

namespace Edition

def name : Edition → String
  | country => "country"
  | asn => "asn"
  | city => "city"

/-- `edition_id_for`. -/
def id : Edition → String
  | country => "GeoLite2-Country"
  | asn => "GeoLite2-ASN"
  | city => "GeoLite2-City"

/-- `config_key_for`. -/
def configKey : Edition → String
  | country => "country_db"
  | asn => "asn_db"
  | city => "city_db"

def all : List Edition := [country, asn, city]

/-- The edition of a short name, the only one the command line takes. -/
def ofName (s : Bytes) : Option Edition := all.find? fun e => s = ascii e.name

/-- `normalize_edition`: the short name or MaxMind's. -/
def normalize (s : Bytes) : Option Edition :=
  all.find? fun e => s = ascii e.name ∨ s = ascii e.id

/-- The file in a directory. -/
def fileIn (e : Edition) (dir : Bytes) : Bytes := dir ++ ascii "/" ++ ascii (e.id ++ ".mmdb")

end Edition

/-! ### The two configuration files -/

/-- `read_config_value`. `notice` is what `grep` prints instead of the matching
lines when it takes the file for a binary one. -/
def readConfigValue (notice : Option Bytes) (conf : Option Bytes) (key : String) : Bytes :=
  match conf with
  | none => []
  | some text =>
      let found := (getLines text).filter (ascii key ++ [61]).isPrefixOf
      let printed := match notice with
        | none => found
        | some notice => if found = [] then [] else [notice]
      captured (afterEquals (printed.getLast?.getD []))

/-- What `read_geoip_conf` takes from /etc/GeoIP.conf. -/
structure GeoipConf where
  accountId : Bytes := []
  licenseKey : Bytes := []
  editionIds : List Bytes := []
  databaseDir : Bytes := []

/-- A line, once comment and surrounding blanks are gone. -/
def readGeoipLine (conf : GeoipConf) (raw : Bytes) : GeoipConf :=
  let line := trim (raw.takeWhile (· ≠ 35))
  let key := line.takeWhile (!isSpace ·)
  let value := (line.drop key.length).dropWhile isSpace
  if key = ascii "AccountID" then { conf with accountId := value }
  else if key = ascii "LicenseKey" then { conf with licenseKey := value }
  else if key = ascii "DatabaseDirectory" then { conf with databaseDir := value }
  else if key = ascii "EditionIDs" then { conf with editionIds := words value }
  else conf

/-- `read_geoip_conf`. `read` drops NUL bytes, and it fails on a last line without
a newline, which ends the loop before that line is looked at. -/
def readGeoipConf (text : Bytes) : GeoipConf :=
  (((text.filter (· ≠ 0)).splitOn 10).dropLast).foldl readGeoipLine {}

/-! ### Where a database is stored -/

/-- `owned_db_path`. -/
def ownedDbPath (notice conf : Option Bytes) (geoipDir : Bytes) (e : Edition) : Bytes :=
  let configured := readConfigValue notice conf e.configKey
  if configured ≠ [] then echoed configured else e.fileIn geoipDir

/-- `nshgeoip_find_db`, on the default directories when none are given. -/
def findDb (fs : FileSystem) (defaults : List Bytes) (e : Edition) (dirs : List Bytes) : Option Bytes :=
  ((if dirs = [] then defaults else dirs).map e.fileIn).find? fs.readable

/-- `external_db_path`. -/
def externalDbPath (fs : FileSystem) (defaults : List Bytes) (geoipDir : Bytes) (e : Edition) :
    Option Bytes :=
  findDb fs defaults e (defaults.filter (· ≠ geoipDir))

/-! ### The command -/

/-- The machine as the command finds it. -/
structure Host where
  fs : FileSystem
  /-- The content of nshgeoip.conf, if there is one. -/
  conf : Option Bytes
  notice : Option Bytes
  /-- The content of /etc/GeoIP.conf, if there is one. -/
  geoipConf : Option Bytes
  /-- `NSHGEOIP_DEFAULT_GEOIP_DIRS`, which the daemon has as well. -/
  defaults : List Bytes

/-- How `download_one_db` ends for one edition. -/
inductive Reply where
  | installed
  /-- HTTP status 304. -/
  | notModified
  | failed
  deriving DecidableEq

/-- What the command is given and what it meets on its way. -/
structure Session where
  accountEnv : Bytes
  licenseEnv : Bytes
  accountPrompt : Bytes
  licensePrompt : Bytes
  haveCurl : Bool
  haveTar : Bool
  isRoot : Bool
  replies : List Reply

inductive Message where
  | credentialsFrom
  | noSlot (raw : Bytes)
  | unknownEdition (raw : Bytes)
  | available (e : Edition) (path : Bytes)
  | cityCovers
  | nothingToDo
  | credentialsRequired
  | commandRequired (command : String)
  deriving DecidableEq

def Message.text : Message → Bytes
  | credentialsFrom => ascii "Using credentials from /etc/GeoIP.conf"
  | noSlot raw =>
      ascii "Info: skipping /etc/GeoIP.conf EditionIDs entry nshgeoip has no config slot for: " ++ raw
  | unknownEdition raw =>
      ascii "Error: unknown database edition: " ++ raw ++ ascii " (expected: country, asn, or city)"
  | available e path =>
      ascii "[" ++ ascii e.name ++ ascii "] already available at " ++ path ++
        ascii " (not managed by nshgeoipctl.sh -- leaving it alone)"
  | cityCovers => ascii "[country] skipping: city already supplies country/continent data"
  | nothingToDo =>
      ascii "Nothing to do -- every requested edition is already available at an external location."
  | credentialsRequired =>
      ascii ("Error: account ID and license key are both required (argument env vars " ++
        "NSHGEOIP_MAXMIND_ACCOUNT_ID/NSHGEOIP_MAXMIND_LICENSE_KEY, /etc/GeoIP.conf, or prompt).")
  | commandRequired command =>
      ascii "Error: " ++ ascii command ++ ascii " is required for download-db but was not found."

structure Result where
  ok : Bool
  files : FileSystem
  messages : List Message

namespace Host

variable (h : Host)

/-- nshgeoip.conf as the daemon finds it. -/
def configFile : ConfigFile :=
  match h.conf with
  | some text => .text text
  | none => .absent

def credentials : GeoipConf := (h.geoipConf.map readGeoipConf).getD {}

/-- `GEOIP_DIR_DEFAULT`, or the directory /etc/GeoIP.conf names. -/
def geoipDir : Bytes :=
  if h.credentials.databaseDir ≠ [] then h.credentials.databaseDir else h.defaults.headD []

/-- The editions of a run without arguments. -/
def defaultEditions : List Edition :=
  match h.credentials.editionIds.filterMap Edition.normalize with
  | [] => Edition.all
  | editions => editions

def external (e : Edition) : Option Bytes := externalDbPath h.fs h.defaults h.geoipDir e

def owned (e : Edition) : Bytes := ownedDbPath h.notice h.conf h.geoipDir e

/-- What is left for `download_one_db`: no edition that is available elsewhere, and
no country database beside a city one unless editions were named. -/
def toProcess (autoDefaulted : Bool) (editions : List Edition) : List Edition :=
  let left := editions.filter fun e => (h.external e).isNone
  if autoDefaulted ∧ .city ∈ editions then left.filter (· ≠ .country) else left

/-- What is said on the way there. -/
def skipMessages (autoDefaulted : Bool) (editions : List Edition) : List Message :=
  (editions.filterMap fun e => (h.external e).map (.available e)) ++
    if autoDefaulted ∧ .city ∈ editions then
      (editions.filter fun e => (h.external e).isNone ∧ e = .country).map fun _ => .cityCovers
    else []

/-- Each edition's path and how its download ends. -/
def downloads (s : Session) (editions : List Edition) : List (Bytes × Reply) :=
  editions.zipIdx.map fun e => (h.owned e.1, s.replies.getD e.2 .failed)

end Host

/-- What a download leaves on disk. -/
def store (fs : FileSystem) (download : Bytes × Reply) : FileSystem :=
  match download.2 with
  | .installed => fs.install download.1
  | _ => fs

/-- The first value that is not empty: the environment, /etc/GeoIP.conf, the prompt. -/
def firstSet (values : List Bytes) : Bytes := (values.find? (· ≠ [])).getD []

/-- The command from the pre-check on. -/
def process (h : Host) (s : Session) (autoDefaulted : Bool) (editions : List Edition)
    (messages : List Message) : Result :=
  let left := h.toProcess autoDefaulted editions
  let messages := messages ++ h.skipMessages autoDefaulted editions
  let accountId := firstSet [s.accountEnv, h.credentials.accountId, s.accountPrompt]
  let licenseKey := firstSet [s.licenseEnv, h.credentials.licenseKey, s.licensePrompt]
  if left = [] then ⟨true, h.fs, messages ++ [.nothingToDo]⟩
  else if accountId = [] ∨ licenseKey = [] then ⟨false, h.fs, messages ++ [.credentialsRequired]⟩
  else if s.haveCurl = false then ⟨false, h.fs, messages ++ [.commandRequired "curl"]⟩
  else if s.haveTar = false then ⟨false, h.fs, messages ++ [.commandRequired "tar"]⟩
  else if s.isRoot = false then ⟨false, h.fs, messages⟩
  else
    let downloads := h.downloads s left
    ⟨downloads.all fun d => d.2 ≠ .failed, run store h.fs downloads, messages⟩

/-- `download_db`. -/
def downloadDb (h : Host) (s : Session) (args : List Bytes) : Result :=
  let greeting := match h.geoipConf with
    | some _ => [.credentialsFrom]
    | none => []
  if args = [] then
    let unknown := h.credentials.editionIds.filter fun raw => (Edition.normalize raw).isNone
    process h s true h.defaultEditions (greeting ++ unknown.map .noSlot)
  else
    match args.find? fun raw => (Edition.ofName raw).isNone with
    | some raw => ⟨false, h.fs, greeting ++ [.unknownEdition raw]⟩
    | none => process h s false (args.filterMap Edition.ofName) greeting

end Nshgeoip.Ctl
