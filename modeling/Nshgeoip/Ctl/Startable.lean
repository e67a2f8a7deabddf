import Nshgeoip.Ctl
import Nshgeoip.Config.AutoDetect

/-!
Whether a download leaves the daemon with databases to open.

The script stores a database where it reads the configuration to say so; the
daemon opens what its own parser reads, or what it finds in the default
directories. `Covered` compares the two before anything is downloaded: each path
the daemon will look at has a file already, or is where an edition is stored
that the script does fetch. A run without arguments never fetches the country
database when a city database is asked for, and fetches nothing that lies
readable in a default directory it does not store to.
-/

namespace Nshgeoip.Ctl

open ByteText ShellText Machine

/-! ### What a run of downloads leaves -/

theorem store_leadsTo (fs : FileSystem) (download : Bytes × Reply) :
    (store fs download).leadsTo = fs.leadsTo := by
  unfold store
  split <;> rfl

/-- An answer 304 is about a file that is there. -/
def FoundCurrent (fs : FileSystem) (download : Bytes × Reply) : Prop :=
  download.2 = .notModified → fs.regular download.1 = true

instance (fs : FileSystem) (download : Bytes × Reply) : Decidable (FoundCurrent fs download) :=
  inferInstanceAs (Decidable (_ → _))

/-- A file is there afterwards iff it was before, or an edition is stored where its
path leads. -/
theorem run_store_regular {fs : FileSystem} {downloads : List (Bytes × Reply)}
    (succeeded : ∀ d ∈ downloads, d.2 ≠ .failed)
    (current : Allowed store FoundCurrent fs downloads) (path : Bytes) :
    (run store fs downloads).regular path = true ↔
      fs.regular path = true ∨ ∃ d ∈ downloads, fs.leadsTo d.1 path = true := by
  induction downloads generalizing fs with
  | nil => simp [run]
  | cons d downloads ih =>
      have step : (store fs d).regular path = true ↔
          fs.regular path = true ∨ fs.leadsTo d.1 path = true := by
        obtain ⟨dest, reply⟩ := d
        cases reply with
        | installed => simp [store, FileSystem.install]
        | notModified =>
            have here : fs.regular dest = true := current.1 rfl
            constructor
            · exact Or.inl
            · rintro (before | leads)
              · exact before
              · exact fs.regular_of_leadsTo dest path here leads
        | failed => exact absurd rfl (succeeded _ List.mem_cons_self)
      have rest := ih (fun d mem => succeeded d (List.mem_cons_of_mem _ mem)) current.2
      rw [store_leadsTo] at rest
      calc (run store fs (d :: downloads)).regular path = true
          ↔ (store fs d).regular path = true ∨ ∃ d ∈ downloads, fs.leadsTo d.1 path = true := rest
        _ ↔ _ := by rw [step, or_assoc, List.exists_mem_cons_iff]

/-- A successful command has run through its list of downloads; with nothing to do
the list is empty. -/
theorem process_ok {h : Host} {s : Session} {auto : Bool} {editions : List Edition}
    {messages : List Message} (ok : (process h s auto editions messages).ok = true) :
    (∀ d ∈ h.downloads s (h.toProcess auto editions), d.2 ≠ .failed) ∧
      (process h s auto editions messages).files =
        run store h.fs (h.downloads s (h.toProcess auto editions)) := by
  unfold process at ok ⊢
  dsimp only at ok ⊢
  split_ifs at ok ⊢ with nothing
  · rw [nothing]
    exact ⟨fun d mem => (List.not_mem_nil mem).elim, rfl⟩
  · refine ⟨?_, rfl⟩
    intro d mem
    have all := List.all_eq_true.mp ok d mem
    simpa using all

theorem exists_download_iff {h : Host} {s : Session} {editions : List Edition} (P : Bytes → Prop) :
    (∃ d ∈ h.downloads s editions, P d.1) ↔ ∃ e ∈ editions, P (h.owned e) := by
  simp only [Host.downloads, List.mem_map, Prod.exists]
  constructor
  · rintro ⟨dest, reply, ⟨e, i, mem, same⟩, holds⟩
    obtain ⟨rfl, _⟩ := Prod.mk.inj same
    exact ⟨e, List.fst_mem_of_mem_zipIdx mem, holds⟩
  · rintro ⟨e, mem, holds⟩
    obtain ⟨i, bound, rfl⟩ := List.mem_iff_getElem.mp mem
    exact ⟨_, _, ⟨_, i, List.mk_mem_zipIdx_iff_getElem?.mpr (List.getElem?_eq_getElem bound), rfl⟩, holds⟩

/-! ### What the daemon selects -/

/-- Every selected database path has a file, and there are an ASN and a city path. -/
structure Startable (files : FileSystem) (selected : Config) : Prop where
  asn : selected.asnDb ≠ [] ∧ files.regular selected.asnDb = true
  city : selected.cityDb ≠ [] ∧ files.regular selected.cityDb = true
  country : selected.countryDb ≠ [] → files.regular selected.countryDb = true

/-- The path has a file, or is where an edition is stored that is fetched: the ASN
or the city database when no default directory other than the one stored to has
it. -/
def Available (h : Host) (path : Bytes) : Prop :=
  h.fs.regular path = true ∨
    ∃ e, e ≠ .country ∧ h.external e = none ∧ h.fs.leadsTo (h.owned e) path = true

/-- A slot as the daemon reads it: its configured path, or one in a default
directory. -/
def SlotCovered (h : Host) (e : Edition) (configured : Bytes) : Prop :=
  (configured ≠ [] ∧ Available h configured) ∨
    configured = [] ∧ ∃ dir ∈ h.defaults, Available h (e.fileIn dir)

/-- What the daemon will look for is there or will be fetched. -/
structure Covered (h : Host) (cfg : Config) : Prop where
  asn : SlotCovered h .asn cfg.asnDb
  city : SlotCovered h .city cfg.cityDb
  country : cfg.countryDb ≠ [] → Available h cfg.countryDb

theorem mem_toProcess_iff {h : Host} {editions : List Edition} (requested : ∀ e, e ∈ editions)
    {e : Edition} : e ∈ h.toProcess true editions ↔ e ≠ .country ∧ h.external e = none := by
  simp [Host.toProcess, requested]

/-- What a successful run without arguments leaves. -/
theorem downloadDb_regular {h : Host} {s : Session} (requested : ∀ e, e ∈ h.defaultEditions)
    (current : Allowed store FoundCurrent h.fs (h.downloads s (h.toProcess true h.defaultEditions)))
    (ok : (downloadDb h s []).ok = true) (path : Bytes) :
    (downloadDb h s []).files.regular path = true ↔ Available h path := by
  obtain ⟨succeeded, files⟩ := process_ok ok
  have stored := run_store_regular succeeded current path
  rw [exists_download_iff fun dest => h.fs.leadsTo dest path = true] at stored
  simp only [mem_toProcess_iff requested, and_assoc] at stored
  exact files ▸ stored

theorem startable_applyDefaultDbPaths_iff {h : Host} {files : FileSystem} {cfg : Config}
    (there : ∀ path, files.regular path = true ↔ Available h path) :
    Startable files (applyDefaultDbPaths files.regular h.defaults cfg).1 ↔ Covered h cfg := by
  have city := detected_regular_iff files.regular h.defaults cfg.cityDb "GeoLite2-City.mmdb"
  have asn := detected_regular_iff files.regular h.defaults cfg.asnDb "GeoLite2-ASN.mmdb"
  simp only [there] at city asn
  rw [applyDefaultDbPaths_fields]
  constructor
  · intro startable
    have country := startable.country
    dsimp only at country
    -- with a city database the country slot stays as configured
    rw [detectedCountry, if_pos startable.city.1] at country
    refine ⟨asn.mp ?_, city.mp ?_, fun set => (there _).mp (country set)⟩
    · exact ⟨startable.asn.1, (there _).mp startable.asn.2⟩
    · exact ⟨startable.city.1, (there _).mp startable.city.2⟩
  · intro covered
    obtain ⟨cityDb, cityFile⟩ := city.mpr covered.city
    obtain ⟨asnDb, asnFile⟩ := asn.mpr covered.asn
    constructor
    · exact ⟨asnDb, (there _).mpr asnFile⟩
    · exact ⟨cityDb, (there _).mpr cityFile⟩
    · dsimp only
      rw [detectedCountry, if_pos cityDb]
      exact fun set => (there _).mpr (covered.country set)

/-- With no variables in the environment the daemon opens what its file and the
default directories say. -/
theorem startupConfig_of_accepted {h : Host} {path : Bytes} {detected : UInt32} {loaded : Loaded}
    (accepted : loadConfig path h.conf (Config.default detected) = .ok loaded)
    (explicitPath : Bool) (regular : Bytes → Bool) :
    startupConfig detected path explicitPath h.configFile (fun _ => none) regular =
      .ok (applyDefaultDbPaths regular defaultGeoipDirs loaded.cfg).1 := by
  cases conf : h.conf with
  | none =>
      rw [conf] at accepted
      nomatch accepted
  | some text =>
      rw [conf] at accepted
      simp only [startupConfig, Host.configFile, conf, startupFile, accepted]
      rfl

/-- **A download leaves the daemon startable exactly when what the daemon will look
for is covered**: for a configuration that `load_config` accepts, the daemon's
default directories, all three editions requested, and every download installed or
found current. -/
theorem startable_iff_covered (h : Host) (s : Session) (path : Bytes) (explicitPath : Bool)
    (detected : UInt32) (loaded : Loaded)
    (accepted : loadConfig path h.conf (Config.default detected) = .ok loaded)
    (sameDirs : h.defaults = defaultGeoipDirs) (requested : ∀ e, e ∈ h.defaultEditions)
    (current : Allowed store FoundCurrent h.fs (h.downloads s (h.toProcess true h.defaultEditions)))
    (ok : (downloadDb h s []).ok = true) :
    (∃ selected, startupConfig detected path explicitPath h.configFile (fun _ => none)
        (downloadDb h s []).files.regular = .ok selected ∧
        Startable (downloadDb h s []).files selected) ↔ Covered h loaded.cfg := by
  have there := downloadDb_regular requested current ok
  rw [startupConfig_of_accepted accepted, ← sameDirs, ← startable_applyDefaultDbPaths_iff there]
  constructor
  · rintro ⟨selected, same, startable⟩
    obtain rfl := Except.ok.inj same
    exact startable
  · exact fun startable => ⟨_, rfl, startable⟩

/-! ### Two configurations on an empty disk -/

/-- No databases, and no path with another name. -/
def emptyDisk : FileSystem where
  regular _ := false
  readable _ := false
  leadsTo p q := p == q
  leadsTo_refl _ := beq_self_eq_true _
  leadsTo_trans p q r first second := by
    rw [beq_iff_eq] at first second ⊢
    exact first.trans second
  regular_of_leadsTo _ _ here _ := here

def sampleHost (conf : Bytes) (geoipConf : Option Bytes) : Host :=
  ⟨emptyDisk, some conf, none, geoipConf, defaultGeoipDirs⟩

/-- Credentials are typed in, and two databases are installed. -/
def sampleSession : Session :=
  ⟨[], [], ascii "42", ascii "key", true, true, true, [.installed, .installed]⟩

theorem Edition.mem_all (e : Edition) : e ∈ Edition.all := by
  cases e <;> decide

/-- No database is configured: both are stored in the first default directory, where
the daemon finds them. -/
theorem startable_iff_covered_defaults :
    let h := sampleHost (ascii "socket_mode=0660\n")
      (some (ascii "# MaxMind\nAccountID 42\nEditionIDs GeoLite2-ASN GeoLite2-City GeoLite2-Country\n"))
    ∃ selected, startupConfig 4 (ascii "nshgeoip.conf") false h.configFile (fun _ => none)
        (downloadDb h sampleSession []).files.regular = .ok selected ∧
        Startable (downloadDb h sampleSession []).files selected := by
  intro h
  have accepted : loadConfig (ascii "nshgeoip.conf") h.conf (Config.default 4) =
      .ok ⟨Config.default 4, []⟩ := by
    decide +kernel
  have facts : (∀ e ∈ Edition.all, e ∈ h.defaultEditions) ∧
      (∀ e ∈ Edition.all, h.external e = none) ∧
      (∀ e ∈ Edition.all, h.owned e = e.fileIn (ascii "/var/lib/GeoIP")) ∧
      Allowed store FoundCurrent h.fs
        (h.downloads sampleSession (h.toProcess true h.defaultEditions)) ∧
      (downloadDb h sampleSession []).ok = true := by
    decide +kernel
  obtain ⟨requested, absent, owned, current, ok⟩ := facts
  have stored : ∀ e : Edition, e ≠ .country → Available h (e.fileIn (ascii "/var/lib/GeoIP")) := by
    intro e fetched
    refine Or.inr ⟨e, fetched, absent e e.mem_all, ?_⟩
    rw [owned e e.mem_all]
    exact h.fs.leadsTo_refl _
  refine (startable_iff_covered h sampleSession (ascii "nshgeoip.conf") false 4 ⟨Config.default 4, []⟩
    accepted rfl (fun e => requested e e.mem_all) current ok).mpr ?_
  constructor
  · exact Or.inr ⟨rfl, _, List.mem_cons_self, stored .asn nofun⟩
  · exact Or.inr ⟨rfl, _, List.mem_cons_self, stored .city nofun⟩
  · exact fun set => absurd rfl set

/-- The three paths of the example configuration. The country database is configured
and never fetched: the command succeeds and the daemon is left with a path to
nothing. -/
theorem configured_country_not_fetched :
    let h := sampleHost (ascii ("country_db=/var/lib/GeoIP/GeoLite2-Country.mmdb\n" ++
      "asn_db=/var/lib/GeoIP/GeoLite2-ASN.mmdb\ncity_db=/var/lib/GeoIP/GeoLite2-City.mmdb\n")) none
    (∀ e, e ∈ h.defaultEditions) ∧ (downloadDb h sampleSession []).ok = true ∧
      Allowed store FoundCurrent h.fs
        (h.downloads sampleSession (h.toProcess true h.defaultEditions)) ∧
      ∃ selected, startupConfig 4 (ascii "nshgeoip.conf") false h.configFile (fun _ => none)
          (downloadDb h sampleSession []).files.regular = .ok selected ∧
        ¬ Startable (downloadDb h sampleSession []).files selected := by
  intro h
  have facts : (∀ e ∈ Edition.all, e ∈ h.defaultEditions) ∧
      (downloadDb h sampleSession []).ok = true ∧
      Allowed store FoundCurrent h.fs
        (h.downloads sampleSession (h.toProcess true h.defaultEditions)) ∧
      startupConfig 4 (ascii "nshgeoip.conf") false h.configFile (fun _ => none)
          (downloadDb h sampleSession []).files.regular =
        .ok { Config.default 4 with
          countryDb := ascii "/var/lib/GeoIP/GeoLite2-Country.mmdb"
          asnDb := ascii "/var/lib/GeoIP/GeoLite2-ASN.mmdb"
          cityDb := ascii "/var/lib/GeoIP/GeoLite2-City.mmdb" } ∧
      (downloadDb h sampleSession []).files.regular (ascii "/var/lib/GeoIP/GeoLite2-Country.mmdb") =
        false := by
    decide +kernel
  obtain ⟨requested, ok, current, started, missing⟩ := facts
  refine ⟨fun e => requested e e.mem_all, ok, current, _, started, ?_⟩
  intro startable
  have here := startable.country (by decide)
  exact absurd (missing.symm.trans here) Bool.false_ne_true

end Nshgeoip.Ctl
