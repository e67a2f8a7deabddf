import Nshgeoip.Geoip
import Nshgeoip.Lib.Lifetime
import Mathlib.Logic.Relation

/-!
The databases over the life of the process: `Server::init`,
`Server::reload_databases`, and the readers in between.

The main thread opens the configured databases one after another, at startup and
on every SIGHUP. `MMDB_open` runs outside the lock and may fail; installing its
result is one step under the unique lock. A lookup or a metadata read holds the
shared lock from its first use of a handle to its last, so it is one step too,
and may come at any time before the destruction, which waits for the workers.
The history fields record the opens that succeeded and every call that concerns
a handle; no step reads them, apart from the library's promise of a new handle.
-/

namespace Nshgeoip

open ByteText Lifetime

/-! ### Configuration -/

inductive Db where
  | country
  | asn
  | city
  deriving DecidableEq

/-- The database paths of the configuration; an empty one disables the database. -/
structure DbPaths where
  countryDb : Bytes
  asnDb : Bytes
  cityDb : Bytes

def DbPaths.path (cfg : DbPaths) : Db → Bytes
  | .country => cfg.countryDb
  | .asn => cfg.asnDb
  | .city => cfg.cityDb

/-- The databases that `init` and `reload_databases` go through, in their order. -/
def DbPaths.configured (cfg : DbPaths) : List Db :=
  [.country, .asn, .city].filter fun d => cfg.path d ≠ []

theorem DbPaths.mem_configured {cfg : DbPaths} {d : Db} : d ∈ cfg.configured ↔ cfg.path d ≠ [] := by
  cases d <;> simp [DbPaths.configured]

/-! ### Slots by name -/

namespace GeoIpDatabases

def slot (db : GeoIpDatabases) : Db → DbSlot
  | .country => db.country
  | .asn => db.asn
  | .city => db.city

def openDb (db : GeoIpDatabases) : Db → Option Mmdb → OpenOutcome
  | .country => db.openCountry
  | .asn => db.openAsn
  | .city => db.openCity

def reloadDb (db : GeoIpDatabases) : Db → Option Mmdb → OpenOutcome
  | .country => db.reloadCountry
  | .asn => db.reloadAsn
  | .city => db.reloadCity

end GeoIpDatabases

/-! ### The run -/

/-- Where the main thread is. -/
inductive Main where
  | created
  /-- Inside `init`, with these databases still to open. -/
  | init (todo : List Db)
  | serving
  /-- Inside `reload_databases`, with these databases still to reload. -/
  | reload (todo : List Db)
  /-- After `init` returned false. -/
  | failed
  | destroyed

/-- The databases the main thread has still to open. -/
def Main.todo : Main → List Db
  | .init todo => todo
  | .reload todo => todo
  | _ => []

structure DbRun where
  slots : GeoIpDatabases := {}
  main : Main := .created
  /-- The result of `MMDB_open`, before the lock is taken. -/
  pending : Option (Option Mmdb) := none
  /-- History: `init` has returned true. -/
  initialized : Bool := false
  /-- History: the calls of `open_*` and `reload_*` that returned true. -/
  opens : List (Db × Mmdb) := []
  /-- History: what was done with each handle. -/
  log : List (Event Nat) := []

namespace DbRun

/-- The call of `open_*` or `reload_*` under way comes to its end. -/
def install (s : DbRun) (d : Db) (opened : Option Mmdb) (out : OpenOutcome) (main : Main) : DbRun :=
  { s with
    slots := out.db
    main := main
    pending := none
    opens := s.opens ++ (opened.map fun tmp => (d, tmp)).toList
    log := s.log ++ out.closed.map .release }

inductive Step (cfg : DbPaths) : DbRun → DbRun → Prop where
  | signals {s : DbRun} : s.main = .created → Step cfg s { s with main := .init cfg.configured }
  | signalsFail {s : DbRun} : s.main = .created → Step cfg s { s with main := .failed }
  | mmdbOpen {s : DbRun} {tmp : Mmdb} :
      s.main.todo ≠ [] → s.pending = none → .acquire tmp.handle ∉ s.log →
        Step cfg s { s with pending := some (some tmp), log := s.log ++ [.acquire tmp.handle] }
  | mmdbOpenFail {s : DbRun} :
      s.main.todo ≠ [] → s.pending = none → Step cfg s { s with pending := some none }
  | initOpen {s : DbRun} {d : Db} {todo : List Db} {opened : Option Mmdb} :
      s.main = .init (d :: todo) → s.pending = some opened →
        Step cfg s
          (s.install d opened (s.slots.openDb d opened)
            (if (s.slots.openDb d opened).ok then .init todo else .failed))
  | initDone {s : DbRun} :
      s.main = .init [] → (s.slots.country.isOpen || s.slots.asn.isOpen || s.slots.city.isOpen) →
        Step cfg s { s with main := .serving, initialized := true }
  | initFail {s : DbRun} : s.main = .init [] → Step cfg s { s with main := .failed }
  | sighup {s : DbRun} : s.main = .serving → Step cfg s { s with main := .reload cfg.configured }
  | reloadOpen {s : DbRun} {d : Db} {todo : List Db} {opened : Option Mmdb} :
      s.main = .reload (d :: todo) → s.pending = some opened →
        Step cfg s (s.install d opened (s.slots.reloadDb d opened) (.reload todo))
  | reloadDone {s : DbRun} : s.main = .reload [] → Step cfg s { s with main := .serving }
  | lookup {s : DbRun} (addr : ParsedAddr) :
      s.main ≠ .destroyed →
        Step cfg s { s with log := s.log ++ (s.slots.lookupRun addr).touched.map .use }
  | metadata {s : DbRun} (d : Db) :
      s.main ≠ .destroyed → Step cfg s { s with log := s.log ++ (s.slots.slot d).handles.map .use }
  | destroy {s : DbRun} :
      s.main = .serving ∨ s.main = .failed →
        Step cfg s { s with main := .destroyed, log := s.log ++ s.slots.destroy.map .release }

def Reachable (cfg : DbPaths) (s : DbRun) : Prop := Relation.ReflTransGen (Step cfg) {} s

end DbRun

end Nshgeoip
