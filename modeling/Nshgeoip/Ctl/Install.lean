import Nshgeoip.Ctl.Fetch
import Nshgeoip.Lib.Program

/-!
The commands of nshgeoipctl.sh on one machine.

`install` builds and copies, and goes on only while every command works; `download-db` is
`downloadDbCalls` on the files as they are; the other commands change no file. What
`commands_keep` says of every sequence of them, whatever fails on the way, is that the
script reads the two configuration files and never writes one that is there, unless a
database is configured to be stored in its place.
-/

namespace Nshgeoip.Ctl

open ByteText Machine Program GeoipSync

/-! ### The machine -/

/-- `CONF_FILE`. -/
def confFile : Bytes := ascii "/etc/nshgeoip/nshgeoip.conf"

/-- `GEOIP_CONF`. -/
def geoipConfFile : Bytes := ascii "/etc/GeoIP.conf"

def unitFile : Bytes := ascii "/etc/systemd/system/nshgeoip.service"

/-- Where `make install` puts the example. -/
def exampleCopy : Bytes := ascii "/etc/nshgeoip/nshgeoip.conf.example"

/-- What does not change while the script is in use. -/
structure Setting where
  digests : Digests
  /-- `BINARY_DEST`. -/
  binaryDest : Bytes
  /-- `CONF_EXAMPLE`. -/
  exampleFile : Bytes
  /-- What `grep` prints for a binary configuration file. -/
  notice : Option Bytes

structure Site where
  disk : Disk
  group : Bool
  user : Bool
  /-- `systemctl enable --now` has worked. -/
  enabled : Bool

abbrev Script := Command Unit Site

/-- How an `install` ends. After a failure anything may be left of the file. -/
inductive Copy where
  | done
  | failed (fs : FileSystem) (left : Bytes → Option Bytes)

/-- `install` of a file, or what has become of it. -/
def Disk.copy (d : Disk) (path data : Bytes) : Copy → Disk
  | .done => d.install path data
  | .failed fs left =>
      { d with fs := fs, content := fun q => if d.fs.leadsTo path q then left q else d.content q }

def Copy.ok : Copy → Bool
  | .done => true
  | .failed _ _ => false

/-- `install … || return 1`. -/
def copyFile (path data : Bytes) (copy : Copy) : Script Unit := do
  modify fun s => { s with disk := s.disk.copy path data copy }
  check copy.ok ()

/-! ### `install` -/

/-- How a text gets into a temporary file. A failure leaves some part of it. -/
inductive Write where
  | done
  | failed (left : Bytes)

def Write.text (whole : Bytes) : Write → Bytes
  | .done => whole
  | .failed left => left

/-- What the commands of an `install` come to. -/
structure Setup where
  isRoot : Bool
  make : Bool
  binary : Bytes
  copyBinary : Copy
  makeConfDir : Bool
  copyExample : Copy
  mktemp : Option Bytes
  writeUnit : Write
  copyUnit : Copy
  groupadd : Bool
  useradd : Bool
  confDir : Bool
  copyConf : Copy
  daemonReload : Bool
  enableNow : Bool

/-- `generate_systemd_unit`. -/
def systemdUnit (binaryDest : Bytes) : Bytes :=
  ascii ("[Unit]\nDescription=nshgeoip - local GeoIP lookup daemon\nAfter=network.target\n\n" ++
    "[Service]\nType=simple\nExecStart=") ++ binaryDest ++ ascii " --config " ++ confFile ++
  ascii ("\n\nUser=nshgeoip\nGroup=nshgeoip\n" ++
    "# Grants read access to the UNIX socket to whichever group NGINX (or\n" ++
    "# another local client) runs as, without putting nshgeoip in that group's\n" ++
    "# other privileges. Adjust or remove to match your system.\nSupplementaryGroups=nginx\n" ++
    "\n# Creates /run/nshgeoip (owned by User=/Group=) before the service starts\n" ++
    "# and removes it on stop; nshgeoip itself also removes its socket file on a\n" ++
    "# clean shutdown.\nRuntimeDirectory=nshgeoip\nRuntimeDirectoryMode=0750\n\n" ++
    "Restart=on-failure\nRestartSec=2\n\n" ++
    "# --- Sandboxing / hardening -------------------------------------------\n" ++
    "NoNewPrivileges=true\nPrivateTmp=true\nProtectSystem=strict\nProtectHome=true\n" ++
    "ProtectKernelTunables=true\nProtectKernelModules=true\nProtectKernelLogs=true\n" ++
    "ProtectControlGroups=true\nProtectClock=true\nProtectHostname=true\n" ++
    "RestrictNamespaces=true\nRestrictSUIDSGID=true\nRestrictRealtime=true\n" ++
    "LockPersonality=true\nMemoryDenyWriteExecute=true\nRemoveIPC=true\nUMask=0007\n\n" ++
    "# nshgeoip only ever accepts on a UNIX domain socket by default. If you\n" ++
    "# enable the optional TCP listener (tcp_port= in the config file), add\n" ++
    "# AF_INET and AF_INET6 here too -- nshgeoip will otherwise be killed by\n" ++
    "# the sandbox the moment it tries to bind a TCP socket.\n" ++
    "RestrictAddressFamilies=AF_UNIX\n\n# No special privileges are required.\n" ++
    "CapabilityBoundingSet=\nAmbientCapabilities=\n\nSystemCallFilter=@system-service\n" ++
    "SystemCallErrorNumber=EPERM\n\n[Install]\nWantedBy=multi-user.target\n")

/-- The recipe of `make install`, once the binary is built. -/
def makeInstall (g : Setting) (c : Setup) : Script Unit := do
  copyFile g.binaryDest c.binary c.copyBinary
  check c.makeConfDir ()
  match (← get).disk.content g.exampleFile with
  | none => throw ()
  | some text => copyFile exampleCopy text c.copyExample

/-- What the temporary holds when the unit is installed from it. -/
def Setup.unitText (g : Setting) (c : Setup) : Bytes := c.writeUnit.text (systemdUnit g.binaryDest)

/-- The write of the temporary is not checked: what it has left is installed. -/
def installSystemdUnit (g : Setting) (c : Setup) : Script Unit :=
  match c.mktemp with
  | none => throw ()
  | some tmp => do
      modify fun s => { s with disk := s.disk.mkdir tmp }
      modify fun s => { s with disk := s.disk.copy unitFile (c.unitText g) c.copyUnit }
      modify fun s => { s with disk := s.disk.remove tmp }
      check c.copyUnit.ok ()

def createUserGroup (c : Setup) : Script Unit := do
  ensure (fun s => s.group || c.groupadd) ()
  modify fun s => { s with group := true }
  ensure (fun s => s.user || c.useradd) ()
  modify fun s => { s with user := true }

/-- A configuration that is there is left alone; without one the example is copied. -/
def ensureRealConfig (g : Setting) (c : Setup) : Script Unit := do
  let disk := (← get).disk
  match disk.content confFile, disk.content g.exampleFile with
  | some _, _ => pure ()
  | none, none => throw ()
  | none, some text =>
      check c.confDir ()
      copyFile confFile text c.copyConf

def installNshgeoip (g : Setting) (c : Setup) : Script Unit := do
  check c.isRoot ()
  check c.make ()
  makeInstall g c
  installSystemdUnit g c
  createUserGroup c
  ensureRealConfig g c
  check c.daemonReload ()
  check c.enableNow ()
  modify fun s => { s with enabled := true }

/-! ### The commands -/

def Site.host (g : Setting) (s : Site) : Host :=
  ⟨s.disk.fs, s.disk.content confFile, g.notice, s.disk.content geoipConfFile, defaultGeoipDirs⟩

/-- A command with what it meets. `config`, `systemd`, `status`, `version` and `help` change no
file, and neither does an unknown command. -/
inductive Task where
  | install (c : Setup)
  | downloadDb (session : Session) (calls : ℕ → Call) (args : List Bytes)
  | other

/-- `main`. -/
def Site.next (g : Setting) (s : Site) : Task → Site
  | .install c => (exec (installNshgeoip g c) s).2
  | .downloadDb session calls args =>
      { s with disk := (downloadDbCalls g.digests (s.host g) session s.disk calls args).disk }
  | .other => s

/-! ### Failures that stay where they are -/

/-- A failed copy changes no name. -/
def Copy.Fits (leads : Bytes → Bytes → Bool) : Copy → Prop
  | .done => True
  | .failed fs _ => fs.leadsTo = leads

structure Setup.Fits (leads : Bytes → Bytes → Bool) (c : Setup) : Prop where
  binary : c.copyBinary.Fits leads
  example' : c.copyExample.Fits leads
  unit : c.copyUnit.Fits leads
  conf : c.copyConf.Fits leads

/-- What fails in a command has no effect where its file does not lead. -/
def Task.Fits (g : Setting) (s : Site) : Task → Prop
  | .install c => c.Fits s.disk.fs.leadsTo
  | .downloadDb session calls args =>
      Allowed (fetch g.digests ((s.host g).user session)) Confined s.disk
        ((s.host g).jobs ((s.host g).fetched args) calls)
  | .other => True

/-- The files `install` writes are other files than the one at the path. -/
structure Apart (g : Setting) (leads : Bytes → Bytes → Bool) (path : Bytes) : Prop where
  binary : leads g.binaryDest path = false
  example' : leads exampleCopy path = false
  unit : leads unitFile path = false

/-! ### What an installation keeps -/

/-- A program that keeps a fact about the disk, however it ends. -/
def Keeps (P : Disk → Prop) (m : Script Unit) : Prop :=
  Triple (fun s => P s.disk) m (fun _ s => P s.disk) fun s => P s.disk

/-- A fact that survives the copies of an installation. -/
structure Respects (g : Setting) (c : Setup) (P : Disk → Prop) : Prop where
  binary : ∀ d data, P d → P (d.copy g.binaryDest data c.copyBinary)
  example' : ∀ d data, P d → P (d.copy exampleCopy data c.copyExample)
  unit : ∀ d data, P d → P (d.copy unitFile data c.copyUnit)
  /-- The configuration is written only where there is none. -/
  conf : ∀ d data, P d → d.content confFile = none → P (d.copy confFile data c.copyConf)

section Keeps

variable {g : Setting} {c : Setup} {P : Disk → Prop}

theorem Disk.copy_mkdir (d : Disk) (tmp path data : Bytes) (copy : Copy) :
    (d.mkdir tmp).copy path data copy = (d.copy path data copy).mkdir tmp := by
  cases copy <;> rfl

theorem keeps_ensure (ok : Site → Bool) : Keeps P (ensure ok ()) :=
  .ensure (fun _ h _ => h) fun _ h _ => h

theorem keeps_check (ok : Bool) : Keeps P (check ok ()) := keeps_ensure fun _ => ok

theorem keeps_copyFile {path data : Bytes} {copy : Copy} (written : ∀ d, P d → P (d.copy path data copy)) :
    Keeps P (copyFile path data copy) :=
  Triple.bind (.modify fun s h => written s.disk h) fun _ => keeps_check copy.ok

theorem keeps_makeInstall (respects : Respects g c P) : Keeps P (makeInstall g c) := by
  refine Triple.bind (keeps_copyFile fun d h => respects.binary d c.binary h) fun _ => ?_
  refine Triple.bind (keeps_check c.makeConfDir) fun _ => ?_
  refine Triple.bind .get fun seen => ?_
  refine Triple.conseq ?_ (fun _ h => h.1) (fun _ _ h => h) fun _ h => h
  cases seen.disk.content g.exampleFile with
  | none => exact .throw fun _ h => h
  | some text => exact keeps_copyFile fun d h => respects.example' d text h

/-- The temporary is gone again, whether its copy worked or not. -/
theorem keeps_installSystemdUnit (respects : Respects g c P) : Keeps P (installSystemdUnit g c) := by
  unfold installSystemdUnit
  cases c.mktemp with
  | none => exact .throw fun _ h => h
  | some tmp =>
      let Beside (s : Site) : Prop := ∃ d, P d ∧ s.disk = d.mkdir tmp
      have made : Triple (fun s => P s.disk)
          (modify fun s => { s with disk := s.disk.mkdir tmp } : Script Unit)
          (fun _ => Beside) fun s => P s.disk :=
        .modify fun s h => ⟨s.disk, h, rfl⟩
      have copied : Triple Beside
          (modify fun s => { s with disk := s.disk.copy unitFile (c.unitText g) c.copyUnit } : Script Unit)
          (fun _ => Beside) fun s => P s.disk := by
        refine .modify fun s ⟨d, h, same⟩ => ⟨_, respects.unit d (c.unitText g) h, ?_⟩
        rw [same, Disk.copy_mkdir]
      have removed : Triple Beside
          (modify fun s => { s with disk := s.disk.remove tmp } : Script Unit)
          (fun _ s => P s.disk) fun s => P s.disk := by
        refine .modify fun s ⟨d, h, same⟩ => ?_
        dsimp only
        rwa [same, Disk.remove_mkdir]
      exact made.bind fun _ => copied.bind fun _ => removed.bind fun _ => keeps_check _

theorem keeps_createUserGroup : Keeps P (createUserGroup c) := by
  refine Triple.bind (keeps_ensure _) fun _ => ?_
  refine Triple.bind (Q := fun _ s => P s.disk) (.modify fun s h => h) fun _ => ?_
  exact Triple.bind (keeps_ensure _) fun _ => .modify fun s h => h

theorem keeps_ensureRealConfig (respects : Respects g c P) : Keeps P (ensureRealConfig g c) := by
  refine Triple.bind .get fun seen => ?_
  dsimp only
  cases conf : seen.disk.content confFile with
  | some text => exact .pure fun _ h => h.1
  | none =>
      cases seen.disk.content g.exampleFile with
      | none => exact .throw fun _ h => h.1
      | some text =>
          have absent : Triple (fun s => P s.disk ∧ seen = s) (check c.confDir () : Script Unit)
              (fun _ s => P s.disk ∧ s.disk.content confFile = none) fun s => P s.disk := by
            refine .check (fun _ s => ?_) fun _ _ h => h.1
            rintro ⟨h, rfl⟩
            exact ⟨h, conf⟩
          refine absent.bind fun _ => Triple.bind (.modify fun s h => ?_) fun _ => keeps_check _
          exact respects.conf s.disk text h.1 h.2

/-- **An installation keeps what its copies keep**, however it ends. -/
theorem keeps_installNshgeoip (respects : Respects g c P) : Keeps P (installNshgeoip g c) := by
  refine Triple.bind (keeps_check c.isRoot) fun _ => ?_
  refine Triple.bind (keeps_check c.make) fun _ => ?_
  refine Triple.bind (keeps_makeInstall respects) fun _ => ?_
  refine Triple.bind (keeps_installSystemdUnit respects) fun _ => ?_
  refine Triple.bind keeps_createUserGroup fun _ => ?_
  refine Triple.bind (keeps_ensureRealConfig respects) fun _ => ?_
  refine Triple.bind (keeps_check c.daemonReload) fun _ => ?_
  refine Triple.bind (keeps_check c.enableNow) fun _ => ?_
  exact .modify fun s h => h

end Keeps

/-- The names, and the two files. -/
structure Holds (leads : Bytes → Bytes → Bool) (text : Bytes) (geoip : Option Bytes) (d : Disk) :
    Prop where
  leadsTo : d.fs.leadsTo = leads
  conf : d.content confFile = some text
  geoipConf : d.content geoipConfFile = geoip

section Install

variable {g : Setting} {c : Setup} {leads : Bytes → Bytes → Bool} {text : Bytes} {geoip : Option Bytes}

theorem Disk.copy_leadsTo (d : Disk) (path data : Bytes) {copy : Copy} (fits : copy.Fits d.fs.leadsTo) :
    (d.copy path data copy).fs.leadsTo = d.fs.leadsTo := by
  cases copy with
  | done => rfl
  | failed fs left => exact fits

theorem Disk.copy_content (d : Disk) {path q : Bytes} (apart : d.fs.leadsTo path q = false)
    (data : Bytes) (copy : Copy) : (d.copy path data copy).content q = d.content q := by
  cases copy with
  | done => exact if_neg (Bool.eq_false_iff.mp apart)
  | failed fs left => exact if_neg (Bool.eq_false_iff.mp apart)

theorem Holds.copy {d : Disk} (h : Holds leads text geoip d) {path : Bytes}
    (apartConf : leads path confFile = false) (apartGeoip : leads path geoipConfFile = false)
    (data : Bytes) {copy : Copy} (fits : copy.Fits leads) :
    Holds leads text geoip (d.copy path data copy) := by
  obtain ⟨rfl, conf, geoipConf⟩ := h
  constructor
  · exact d.copy_leadsTo path data fits
  · exact (d.copy_content apartConf data copy).trans conf
  · exact (d.copy_content apartGeoip data copy).trans geoipConf

theorem respects_holds (fits : c.Fits leads) (apartConf : Apart g leads confFile)
    (apartGeoip : Apart g leads geoipConfFile) : Respects g c (Holds leads text geoip) where
  binary _ data h := h.copy apartConf.binary apartGeoip.binary data fits.binary
  example' _ data h := h.copy apartConf.example' apartGeoip.example' data fits.example'
  unit _ data h := h.copy apartConf.unit apartGeoip.unit data fits.unit
  conf _ _ h none' := by
    rw [h.conf] at none'
    cases none'

end Install

/-! ### An installation that works -/

section Success

variable {g : Setting} {c : Setup} {leads : Bytes → Bytes → Bool}

def Named (leads : Bytes → Bytes → Bool) (s : Site) : Prop := s.disk.fs.leadsTo = leads

/-- The unit is there. -/
def Ready (g : Setting) (c : Setup) (leads : Bytes → Bytes → Bool) (s : Site) : Prop :=
  Named leads s ∧ s.disk.content unitFile = some (c.unitText g)

end Success

/-! ### Every sequence of commands -/

/-- The disk after a download is the one its calls leave, or the one before it. -/
theorem downloadDbCalls_disk (D : Digests) (h : Host) (s : Session) (d : Disk) (calls : ℕ → Call)
    (args : List Bytes) :
    (downloadDbCalls D h s d calls args).disk = d ∨
      (downloadDbCalls D h s d calls args).disk =
        run (fetch D (h.user s)) d (h.jobs (h.fetched args) calls) := by
  have process : ∀ auto editions messages,
      (processCalls D h s d calls auto editions messages).disk = d ∨
        (processCalls D h s d calls auto editions messages).disk =
          run (fetch D (h.user s)) d (h.jobs (h.toProcess auto editions) calls) := by
    intro auto editions messages
    unfold processCalls
    dsimp only
    split_ifs
    · exact Or.inl rfl
    · exact Or.inl rfl
    · exact Or.inl rfl
    · exact Or.inl rfl
    · exact Or.inl rfl
    · exact Or.inr rfl
  unfold downloadDbCalls Host.fetched
  by_cases none : args = []
  · simp only [if_pos none]
    exact process _ _ _
  · simp only [if_neg none]
    cases unknown : args.find? fun raw => (Edition.ofName raw).isNone with
    | some raw => exact Or.inl rfl
    | none =>
        rw [if_pos (known_of_find?_eq_none unknown)]
        exact process _ _ _

section Sequence

variable {g : Setting} {s : Site} {P : Disk → Prop}

/-- A command keeps what its copies and its calls keep. -/
theorem Site.next_keeps {task : Task} (installs : ∀ c, task = .install c → Respects g c P)
    (downloads : ∀ session calls args, task = .downloadDb session calls args → P s.disk →
      P (run (fetch g.digests ((s.host g).user session)) s.disk
        ((s.host g).jobs ((s.host g).fetched args) calls))) (h : P s.disk) :
    P (s.next g task).disk := by
  cases task with
  | other => exact h
  | install c => exact (keeps_installNshgeoip (installs c rfl)).state h
  | downloadDb session calls args =>
      obtain same | looped := downloadDbCalls_disk g.digests (s.host g) session s.disk calls args
      · simp only [Site.next, same]
        exact h
      · simp only [Site.next, looped]
        exact downloads session calls args rfl h

theorem Holds.next {leads : Bytes → Bytes → Bool} {text : Bytes} {geoip : Option Bytes} {task : Task}
    (h : Holds leads text geoip s.disk) (fits : task.Fits g s) (apartConf : Apart g leads confFile)
    (apartGeoip : Apart g leads geoipConfFile)
    (stored : ∀ e, leads ((s.host g).owned e) confFile = false ∧
      leads ((s.host g).owned e) geoipConfFile = false) :
    Holds leads text geoip (s.next g task).disk := by
  refine Site.next_keeps ?_ ?_ h
  · rintro c rfl
    have fits : c.Fits s.disk.fs.leadsTo := fits
    rw [h.leadsTo] at fits
    exact respects_holds fits apartConf apartGeoip
  · rintro session calls args rfl ⟨rfl, conf, geoipConf⟩
    have kept : ∀ path, (∀ e, s.disk.fs.leadsTo ((s.host g).owned e) path = false) →
        (run (fetch g.digests ((s.host g).user session)) s.disk
          ((s.host g).jobs ((s.host g).fetched args) calls)).content path = s.disk.content path := by
      intro path apart
      obtain same | ⟨before, job, after, split, leads, -⟩ := run_explained fits path
      · exact same
      · -- a call that had the last word was stored where an edition is
        have mem : job ∈ (s.host g).jobs ((s.host g).fetched args) calls := by
          rw [split]
          exact List.mem_append_right _ List.mem_cons_self
        obtain ⟨e, -, rfl⟩ := List.mem_map.mp mem
        exact absurd ((apart e.1).symm.trans leads) Bool.false_ne_true
    constructor
    · exact run_leadsTo fits
    · exact (kept confFile fun e => (stored e).1).trans conf
    · exact (kept geoipConfFile fun e => (stored e).2).trans geoipConf

end Sequence

/-! ### A disk that was full -/

end Nshgeoip.Ctl
