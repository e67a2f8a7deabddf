import Nshgeoip.Server.Databases

/-!
Database handles are never leaked, closed twice or used after their close.

The handles the process holds are those of the open slots and the one of an
open under way (`DbRun.held`); every step moves them by the rules of `Owned`, so
the log of library calls stays disciplined whatever fails and whoever reads in
between. A slot holds what its last successful open gave it (`lastOpen`).
-/

namespace Nshgeoip

open ByteText Lifetime

/-! ### One open -/

namespace GeoIpDatabases

theorem reloadDb_eq (db : GeoIpDatabases) (d : Db) : db.reloadDb d = db.openDb d := by
  cases d <;> rfl

/-- A failed open changes nothing, a successful one its own slot alone. -/
theorem slot_openDb (db : GeoIpDatabases) (d d' : Db) (opened : Option Mmdb) :
    (db.openDb d opened).db.slot d' =
      match opened with
      | none => db.slot d'
      | some tmp => if d' = d then ⟨tmp, true⟩ else db.slot d' := by
  cases opened with
  | none => cases d <;> rfl
  | some tmp => cases d <;> cases d' <;> rfl

theorem openDb_ok (db : GeoIpDatabases) (d : Db) (opened : Option Mmdb) :
    (db.openDb d opened).ok = opened.isSome := by
  cases opened <;> cases d <;> rfl

/-- An open turns the handle it brings in and the one it closes around. -/
theorem openDb_handles (db : GeoIpDatabases) (d : Db) (opened : Option Mmdb) :
    (db.destroy ++ (opened.map Mmdb.handle).toList).Perm
      ((db.openDb d opened).closed ++ (db.openDb d opened).db.destroy) := by
  cases opened with
  | none => cases d <;> simp [openDb, openCountry, openAsn, openCity, openSlot]
  | some tmp =>
      have installed : (DbSlot.mk tmp true).handles = [tmp.handle] := rfl
      rw [List.perm_iff_count]
      intro h
      cases d <;>
        simp only [openDb, openCountry, openAsn, openCity, openSlot, destroy, installed,
          List.count_append, Option.map_some, Option.toList_some] <;>
        omega

/-- One database of a lookup uses its own handle at most, and only when open. -/
theorem touched_ask {run : LookupRun} {slot : DbSlot} {addr : ParsedAddr}
    {fill : GeoIpResult → MmdbEntry → GeoIpResult} {h : Nat}
    (mem : h ∈ (run.ask slot addr fill).touched) : h ∈ run.touched ∨ h ∈ slot.handles := by
  unfold LookupRun.ask at mem
  split at mem
  · rename_i asked
    have more : h ∈ run.touched ++ [slot.mmdb.handle] := by
      dsimp only at mem
      split at mem <;> exact mem
    rcases List.mem_append.mp more with before | here
    · exact .inl before
    · exact .inr (by rwa [DbSlot.handles, if_pos asked.1])
  · exact .inl mem

/-- **A lookup uses the handles of open slots only.** -/
theorem mem_destroy_of_touched {db : GeoIpDatabases} {addr : ParsedAddr} {h : Nat}
    (mem : h ∈ (db.lookupRun addr).touched) : h ∈ db.destroy := by
  unfold destroy
  rw [List.mem_append, List.mem_append]
  rcases touched_ask mem with mem | city
  · rcases touched_ask mem with mem | asn
    · rcases touched_ask mem with none | country
      · exact absurd none List.not_mem_nil
      · exact .inl (.inl country)
    · exact .inl (.inr asn)
  · exact .inr city

theorem handles_subset_destroy (db : GeoIpDatabases) (d : Db) :
    ∀ h ∈ (db.slot d).handles, h ∈ db.destroy := by
  intro h mem
  cases d <;> simp_all [slot, destroy]

end GeoIpDatabases

/-! ### What a slot holds -/

/-- The state of a slot after these opens: that of the last one it was named in. -/
def lastOpen (opens : List (Db × Mmdb)) (d : Db) : DbSlot :=
  match (opens.filter fun o => o.1 = d).getLast? with
  | none => {}
  | some (_, tmp) => ⟨tmp, true⟩

theorem lastOpen_snoc (opens : List (Db × Mmdb)) (d d' : Db) (tmp : Mmdb) :
    lastOpen (opens ++ [(d, tmp)]) d' = if d' = d then ⟨tmp, true⟩ else lastOpen opens d' := by
  by_cases same : d' = d
  · subst same
    simp [lastOpen]
  · simp [lastOpen, same, Ne.symm same]

namespace DbRun

variable {cfg : DbPaths} {s t : DbRun}

/-- The handle of an open under way. -/
def pendingHandle (s : DbRun) : List Nat := (s.pending.join.map Mmdb.handle).toList

/-- The handles the process holds. -/
def held (s : DbRun) : List Nat :=
  match s.main with
  | .destroyed => []
  | _ => s.slots.destroy ++ s.pendingHandle

/-- What the slots and the log look like, whatever the main thread does. -/
structure Accounted (s : DbRun) : Prop where
  last : ∀ d, s.slots.slot d = lastOpen s.opens d
  owned : Owned s.log s.held
  /-- Every handle the library gave out went into a slot, or is about to. -/
  acquired : Lifetime.acquired s.log = (s.opens.map fun o => o.2.handle) ++ s.pendingHandle
  /-- `MMDB_open` is called for a database that is still to open. -/
  pending : s.pending ≠ none → s.main.todo ≠ []

theorem held_of_alive (alive : s.main ≠ .destroyed) :
    s.held = s.slots.destroy ++ s.pendingHandle := by
  unfold held
  split
  · rename_i gone
    exact absurd gone alive
  · rfl

theorem held_of_destroyed (gone : s.main = .destroyed) : s.held = [] := by
  simp only [held, gone]

theorem alive_of_busy (busy : s.main.todo ≠ []) : s.main ≠ .destroyed := by
  intro gone
  rw [gone] at busy
  exact busy rfl

/-- The end of an open, successful or not, keeps the accounts. -/
theorem Accounted.install (accounted : s.Accounted) {d : Db} {opened : Option Mmdb}
    {main : Main} (alive : s.main ≠ .destroyed) (alive' : main ≠ .destroyed)
    (here : s.pending = some opened) :
    (s.install d opened (s.slots.openDb d opened) main).Accounted := by
  have pending : s.pendingHandle = (opened.map Mmdb.handle).toList := by
    rw [pendingHandle, here]
    rfl
  refine ⟨fun d' => ?_, ?_, ?_, fun busy => absurd rfl busy⟩
  · rw [DbRun.install, GeoIpDatabases.slot_openDb]
    cases opened with
    | none => simpa using accounted.last d'
    | some tmp =>
        rw [Option.map_some, Option.toList_some, lastOpen_snoc, accounted.last d']
  · have before := accounted.owned
    rw [held_of_alive alive, pending] at before
    rw [held_of_alive alive']
    simpa [DbRun.install, pendingHandle] using
      (before.perm (s.slots.openDb_handles d opened)).releases
  · rw [DbRun.install, acquired_releases, accounted.acquired, pending]
    cases opened <;> simp [pendingHandle]

/-- A step that only moves the main thread on. -/
theorem Accounted.goto (accounted : s.Accounted) {main : Main} {initialized : Bool}
    (alive : s.main ≠ .destroyed) (alive' : main ≠ .destroyed) (idle : s.main.todo = []) :
    ({ s with main := main, initialized := initialized } : DbRun).Accounted := by
  refine ⟨accounted.last, ?_, accounted.acquired, fun busy => absurd idle (accounted.pending busy)⟩
  rw [held_of_alive alive']
  have owned := accounted.owned
  rw [held_of_alive alive] at owned
  exact owned

/-- A reader uses handles of open slots. -/
theorem Accounted.read (accounted : s.Accounted) (alive : s.main ≠ .destroyed) {hs : List Nat}
    (mem : ∀ h ∈ hs, h ∈ s.slots.destroy) :
    ({ s with log := s.log ++ hs.map .use } : DbRun).Accounted := by
  have held' : ∀ h ∈ hs, h ∈ s.held := by
    intro h used
    rw [held_of_alive alive]
    exact List.mem_append_left _ (mem h used)
  exact ⟨accounted.last, accounted.owned.uses held',
    (acquired_uses hs).trans accounted.acquired, accounted.pending⟩

/-- With no open under way, the handles are those of the slots. -/
theorem Accounted.owned_idle (accounted : s.Accounted) (alive : s.main ≠ .destroyed)
    (idle : s.pending = none) : Owned s.log s.slots.destroy := by
  have owned := accounted.owned
  rw [held_of_alive alive, pendingHandle, idle] at owned
  simpa using owned

/-- `MMDB_open` returns: its handle, if any, is held from here on. -/
theorem Accounted.pend (accounted : s.Accounted) (busy : s.main.todo ≠ [])
    (idle : s.pending = none) {opened : Option Mmdb} {log : List (Event Nat)}
    (owned : Owned log (s.slots.destroy ++ (opened.map Mmdb.handle).toList))
    (acquired : Lifetime.acquired log =
      Lifetime.acquired s.log ++ (opened.map Mmdb.handle).toList) :
    ({ s with pending := some opened, log := log } : DbRun).Accounted := by
  have alive : ({ s with pending := some opened, log := log } : DbRun).main ≠ .destroyed :=
    alive_of_busy busy
  refine ⟨accounted.last, ?_, ?_, fun _ => busy⟩
  · rw [held_of_alive alive]
    exact owned
  · have before := accounted.acquired
    rw [pendingHandle, idle] at before
    rw [acquired, before]
    simp [pendingHandle]

theorem Step.accounted (h : Step cfg s t) (accounted : s.Accounted) : t.Accounted := by
  cases h with
  | signals at' | signalsFail at' | initDone at' | initFail at' | sighup at' | reloadDone at' =>
      exact accounted.goto (by simp [at']) (by simp) (by simp [at', Main.todo])
  | mmdbOpen busy idle fresh =>
      have opened := (accounted.owned_idle (alive_of_busy busy) idle).acquire fresh
      refine accounted.pend busy idle (opened.perm (List.perm_append_singleton _ _).symm) ?_
      simp [Lifetime.acquired, Event.acquired]
  | mmdbOpenFail busy idle =>
      have before := accounted.owned_idle (alive_of_busy busy) idle
      exact accounted.pend busy idle (by simpa using before) (by simp)
  | initOpen at' here =>
      exact accounted.install (by simp [at']) (by split <;> simp) here
  | reloadOpen at' here =>
      rw [GeoIpDatabases.reloadDb_eq]
      exact accounted.install (by simp [at']) (by simp) here
  | lookup addr alive =>
      exact accounted.read alive fun h mem => GeoIpDatabases.mem_destroy_of_touched mem
  | metadata d alive => exact accounted.read alive (s.slots.handles_subset_destroy d)
  | destroy at' =>
      have alive : s.main ≠ .destroyed := by rcases at' with at' | at' <;> simp [at']
      have nothing : s.pending = none := by
        by_contra busy
        have open' := accounted.pending busy
        rcases at' with at' | at' <;> simp [at', Main.todo] at open'
      refine ⟨accounted.last, ?_, (acquired_releases _).trans accounted.acquired,
        fun busy => absurd nothing busy⟩
      have before := accounted.owned_idle alive nothing
      rw [← List.append_nil s.slots.destroy] at before
      rw [held_of_destroyed rfl]
      exact before.releases

/-! ### Which slots are open -/

/-- The open slots are the configured ones. -/
def Ready (cfg : DbPaths) (slots : GeoIpDatabases) : Prop :=
  ∀ d, (slots.slot d).isOpen = true ↔ d ∈ cfg.configured

/-- What is open at each point of the main thread. -/
def Progress (cfg : DbPaths) (slots : GeoIpDatabases) : Main → Prop
  | .created => ∀ d, (slots.slot d).isOpen = false
  | .init todo =>
      ∃ opened, cfg.configured = opened ++ todo ∧ ∀ d, (slots.slot d).isOpen = true ↔ d ∈ opened
  | .serving => Ready cfg slots
  | .reload todo => Ready cfg slots ∧ ∀ d ∈ todo, d ∈ cfg.configured
  | .failed => True
  | .destroyed => True

structure Staged (cfg : DbPaths) (s : DbRun) : Prop where
  progress : Progress cfg s.slots s.main
  ready : s.initialized = true → Ready cfg s.slots

/-- An open never closes a slot. -/
theorem isOpen_openDb {slots : GeoIpDatabases} {d d' : Db} {opened : Option Mmdb} :
    ((slots.openDb d opened).db.slot d').isOpen = true ↔
      (slots.slot d').isOpen = true ∨ d' = d ∧ opened.isSome = true := by
  rw [GeoIpDatabases.slot_openDb]
  cases opened with
  | none => simp
  | some tmp => by_cases same : d' = d <;> simp [same]

theorem Ready.openDb {slots : GeoIpDatabases} {d : Db} (ready : Ready cfg slots)
    (mem : d ∈ cfg.configured) (opened : Option Mmdb) :
    Ready cfg (slots.openDb d opened).db := by
  intro d'
  rw [isOpen_openDb, ready d']
  constructor
  · rintro (mem' | ⟨rfl, -⟩)
    · exact mem'
    · exact mem
  · exact .inl

theorem Step.staged (h : Step cfg s t) (staged : s.Staged cfg) : t.Staged cfg := by
  obtain ⟨progress, ready⟩ := staged
  cases h with
  | signals at' =>
      rw [at'] at progress
      exact ⟨⟨[], rfl, fun d => by simpa using progress d⟩, ready⟩
  | signalsFail | initFail => exact ⟨trivial, ready⟩
  | destroy => exact ⟨trivial, ready⟩
  | mmdbOpen | mmdbOpenFail | lookup | metadata => exact ⟨progress, ready⟩
  | @initOpen d todo opened at' here =>
      rw [at'] at progress
      obtain ⟨before, configured, isOpen⟩ := progress
      have mem : d ∈ cfg.configured := by simp [configured]
      refine ⟨?_, fun initialized => (ready initialized).openDb mem opened⟩
      cases opened with
      | none =>
          rw [GeoIpDatabases.openDb_ok]
          exact trivial
      | some tmp =>
          rw [GeoIpDatabases.openDb_ok]
          refine ⟨before ++ [d], by simp [configured], fun d' => ?_⟩
          rw [DbRun.install, isOpen_openDb, isOpen d']
          simp
  | initDone at' =>
      rw [at'] at progress
      obtain ⟨opened, configured, isOpen⟩ := progress
      rw [List.append_nil] at configured
      have all : Ready cfg s.slots := fun d => by rw [isOpen d, configured]
      exact ⟨all, fun _ => all⟩
  | sighup at' =>
      rw [at'] at progress
      exact ⟨⟨progress, fun d mem => mem⟩, ready⟩
  | @reloadOpen d todo opened at' here =>
      rw [at'] at progress
      obtain ⟨all, mem⟩ := progress
      have all' := all.openDb (mem d List.mem_cons_self) opened
      rw [GeoIpDatabases.reloadDb_eq]
      exact ⟨⟨all', fun d' mem' => mem d' (List.mem_cons_of_mem _ mem')⟩, fun _ => all'⟩
  | reloadDone at' =>
      rw [at'] at progress
      exact ⟨progress.1, ready⟩

/-! ### Every run -/

theorem Reachable.accounted (run : Reachable cfg s) : s.Accounted := by
  induction run with
  | refl =>
      exact ⟨fun d => by cases d <;> rfl, owned_nil, rfl, fun busy => absurd rfl busy⟩
  | tail _ step ih => exact step.accounted ih

theorem Reachable.staged (run : Reachable cfg s) : s.Staged cfg := by
  induction run with
  | refl => exact ⟨fun d => by cases d <;> rfl, fun initialized => absurd initialized (by simp)⟩
  | tail _ step ih => exact step.staged ih

/-- A step that completes no open leaves the slots alone, and none closes one. -/
theorem Step.slots (h : Step cfg s t) :
    (t.opens = s.opens → t.slots = s.slots) ∧
      ∀ d, (s.slots.slot d).isOpen = true → (t.slots.slot d).isOpen = true := by
  have installed : ∀ {d opened main}, t = s.install d opened (s.slots.openDb d opened) main →
      (t.opens = s.opens → t.slots = s.slots) ∧
        ∀ d, (s.slots.slot d).isOpen = true → (t.slots.slot d).isOpen = true := by
    rintro d opened main rfl
    refine ⟨fun same => ?_, fun d' open' => isOpen_openDb.mpr (.inl open')⟩
    cases opened with
    | none => cases d <;> rfl
    | some tmp => simp [DbRun.install] at same
  cases h with
  | initOpen => exact installed rfl
  | reloadOpen =>
      rw [GeoIpDatabases.reloadDb_eq] at installed ⊢
      exact installed rfl
  | _ => exact ⟨fun _ => rfl, fun d open' => open'⟩

/-- **Database handles across reloads.** In every state of every run, a slot
holds what its last successful open gave it, and every handle given out went
into a slot but for one whose open is under way; a step that completes no open
leaves all slots as they were and no step closes one; after a successful `init`
the open slots, those with metadata, are the configured ones; every handle was
open when a lookup or a metadata read used it, and is closed at most once; and
after the destruction every handle ever opened has been closed exactly once. -/
theorem database_lifetimes (cfg : DbPaths) (s : DbRun) (run : Reachable cfg s) :
    (∀ d, s.slots.slot d = lastOpen s.opens d) ∧
      acquired s.log = (s.opens.map fun o => o.2.handle) ++ s.pendingHandle ∧
      (∀ t, Step cfg s t →
        (t.opens = s.opens → t.slots = s.slots) ∧
          ∀ d, (s.slots.slot d).isOpen = true → (t.slots.slot d).isOpen = true) ∧
      (s.initialized = true → ∀ d,
        ((s.slots.slot d).isOpen = true ↔ cfg.path d ≠ []) ∧
          ∀ host, ((s.slots.slot d).metadata host).isSome = true ↔ cfg.path d ≠ []) ∧
      (∀ pre h post, s.log = pre ++ .use h :: post → Live pre h) ∧
      (∀ h, s.log.count (.release h) ≤ 1) ∧
      (s.main = .destroyed → ∀ h, .acquire h ∈ s.log → s.log.count (.release h) = 1) := by
  have accounted := run.accounted
  have owned := accounted.owned
  refine ⟨accounted.last, accounted.acquired, fun t step => step.slots, ?_, ?_,
    owned.disciplined.count_release_le, ?_⟩
  · intro initialized d
    have isOpen := (run.staged.ready initialized d).trans DbPaths.mem_configured
    refine ⟨isOpen, fun host => ?_⟩
    rw [← isOpen, DbSlot.metadata]
    split <;> simp_all
  · intro pre h post eq
    exact owned.disciplined pre _ post eq
  · intro gone h mem
    rw [held_of_destroyed gone] at owned
    exact owned.released_once mem

def cityOnly : DbPaths := ⟨[], [], ascii "city.mmdb"⟩

def emptyDatabase (handle : Nat) : Mmdb := ⟨handle, fun _ => .notFound, none, 0⟩

/-- One database opened, reloaded and read, to the end. -/
theorem database_lifetimes_one_reload :
    ∃ s, Reachable cityOnly s ∧ s.main = .destroyed ∧ acquired s.log = [1, 2] ∧
      .use 2 ∈ s.log ∧ s.log.count (.release 1) = 1 ∧ s.log.count (.release 2) = 1 := by
  have started : Reachable cityOnly _ := .single (.signals rfl)
  have opened := started.tail (@Step.mmdbOpen _ _ (emptyDatabase 1) (by decide) rfl (by simp))
  have installed := opened.tail (@Step.initOpen _ _ .city [] _ rfl rfl)
  have serving := installed.tail (.initDone rfl rfl)
  have reloading := serving.tail (.sighup rfl)
  have reopened := reloading.tail
    (@Step.mmdbOpen _ _ (emptyDatabase 2) (by decide) rfl (by decide))
  have swapped := reopened.tail (@Step.reloadOpen _ _ .city [] _ rfl rfl)
  have looked := swapped.tail (.lookup (.inet [1, 2, 3, 4]) (by simp [DbRun.install]))
  have idle := looked.tail (.reloadDone rfl)
  have gone := idle.tail (.destroy (.inl rfl))
  obtain ⟨-, -, -, -, -, -, closed⟩ := database_lifetimes cityOnly _ gone
  exact ⟨_, gone, rfl, rfl, by decide, closed rfl 1 (by decide), closed rfl 2 (by decide)⟩

end DbRun

end Nshgeoip
