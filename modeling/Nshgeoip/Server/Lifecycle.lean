import Nshgeoip.Config
import Nshgeoip.Lib.Program
import Nshgeoip.Server.Databases

/-!
What a `Server` acquires and gives back, from its construction to the end of
its destructor.

`Calls` is the outcome of every system and library call `init` may make, one
field for each place in the source; a function gives up at the first one that
fails, with the state it has reached. Descriptors and database handles are
named by a counter, since the kernel hands out the same numbers again. The log
and `pathOps` are history: every acquisition and release, and what was done at
the socket path.
-/

namespace Nshgeoip

open ByteText Lifetime Program

/-! ### State -/

inductive FdKind where
  | signal
  | unix
  | tcp
  | probe
  deriving DecidableEq

/-- The descriptors connections are accepted on. -/
def FdKind.isListener : FdKind → Bool
  | unix => true
  | tcp => true
  | _ => false

inductive Res where
  | fd (kind : FdKind) (n : Nat)
  | db (handle : Nat)
  | pool
  deriving DecidableEq

/-- What the server does to the file at the socket path. -/
inductive PathOp where
  | removeStale
  | bind
  | unlink
  deriving DecidableEq

/-- The members of `Server`, and the history. -/
structure Life where
  signalFd : Option Nat := none
  listenFd : Option Nat := none
  tcpListenFds : List Nat := []
  socketCreated : Bool := false
  pool : Bool := false
  db : GeoIpDatabases := {}
  /-- The next name. -/
  next : Nat := 0
  log : List (Event Res) := []
  pathOps : List PathOp := []

abbrev Init := Command Bytes Life

/-! ### Outcomes -/

/-- What `mkdir` and the checks behind it find. -/
inductive MkdirResult where
  | created
  | failed
  | exists (lstat isDirectory writable : Bool)

/-- What `lstat` finds at the socket path. -/
inductive LstatResult where
  | absent
  | failed
  | other
  | socket
  deriving DecidableEq

structure TcpCalls where
  socket : Bool
  reuseAddr : Bool
  v6only : Bool
  bind : Bool
  listen : Bool

structure Calls where
  sigprocmask : Bool
  signalfd : Bool
  mmdbOpen : Db → Option Mmdb
  mkdir : MkdirResult
  lstat : LstatResult
  probeSocket : Bool
  connect : Bool
  unlinkStale : Bool
  socket : Bool
  bind : Bool
  chmod : Bool
  listen : Bool
  tcp4 : TcpCalls
  tcp6 : TcpCalls
  /-- `errno_str()` and `MMDB_strerror` at the failing call. -/
  errorText : Bytes

/-! ### Descriptors -/

/-- A call that returns a new descriptor. -/
def openFd (kind : FdKind) : Init Nat :=
  modifyGet fun s =>
    (s.next, { s with next := s.next + 1, log := s.log ++ [.acquire (.fd kind s.next)] })

def closeFd (kind : FdKind) (fd : Nat) : Init Unit :=
  modify fun s => { s with log := s.log ++ [.release (.fd kind fd)] }

/-- A call after whose failure a local descriptor is closed. -/
def checkOrClose (ok : Bool) (kind : FdKind) (fd : Nat) (err : Bytes) : Init Unit :=
  if ok then pure ()
  else do
    closeFd kind fd
    throw err

/-! ### Signals and databases -/

def setupSignals (calls : Calls) : Init Unit := do
  check calls.sigprocmask (ascii "sigprocmask() failed: " ++ calls.errorText)
  check calls.signalfd (ascii "signalfd() failed: " ++ calls.errorText)
  let fd ← openFd .signal
  modify fun s => { s with signalFd := some fd }

def Config.dbPaths (cfg : Config) : DbPaths := ⟨cfg.countryDb, cfg.asnDb, cfg.cityDb⟩

/-- `open_*` or `reload_*`: whether it succeeded, and the state after it. -/
def Life.openDatabase (s : Life) (d : Db) (opened : Option Mmdb) : Bool × Life :=
  let named := opened.map fun tmp => { tmp with handle := s.next }
  let out := s.db.openDb d named
  (out.ok,
    { s with
      db := out.db
      next := s.next + 1
      log := s.log ++ (named.map fun tmp => .acquire (.db tmp.handle)).toList
        ++ (out.closed.map Res.db).map .release })

def openConfigured (cfg : Config) (calls : Calls) (d : Db) : Init Unit := do
  let ok ← modifyGet fun s => s.openDatabase d (calls.mmdbOpen d)
  check ok (ascii "failed to open database '" ++ cfg.dbPaths.path d ++ ascii "': " ++ calls.errorText)

def Life.hasDatabase (s : Life) : Bool :=
  s.db.country.isOpen || s.db.asn.isOpen || s.db.city.isOpen

/-! ### The UNIX socket -/

def pathHasLiveListener (calls : Calls) : Init Bool :=
  if calls.probeSocket then do
    let fd ← openFd .probe
    closeFd .probe fd
    return calls.connect
  else return false

/-- The text before the last slash, if there is any. -/
def socketDirectory (path : Bytes) : Option Bytes :=
  let dir := (path.rdropWhile (· ≠ 47)).dropLast
  if dir = [] then none else some dir

def ensureSocketDirectory (path : Bytes) (calls : Calls) : Init Unit :=
  match socketDirectory path with
  | none => pure ()
  | some dir =>
      match calls.mkdir with
      | .created => pure ()
      | .failed =>
          throw (ascii "failed to create socket directory '" ++ dir ++ ascii "': "
            ++ calls.errorText
            ++ ascii (" (if running under systemd, set RuntimeDirectory=nshgeoip; " ++
              "otherwise create it manually, e.g. 'mkdir -p ")
            ++ dir ++ ascii "')")
      | .exists lstat isDirectory writable => do
          check lstat (ascii "failed to stat socket directory '" ++ dir ++ ascii "': "
            ++ calls.errorText)
          check isDirectory (ascii "socket directory path '" ++ dir
            ++ ascii "' exists but is not a directory")
          check writable (ascii "socket directory '" ++ dir
            ++ ascii "' exists but is not writable: " ++ calls.errorText)

/-- The path checks of `setup_socket`: whether a stale socket is in the way. -/
def checkPath (path : Bytes) (calls : Calls) : Init Bool :=
  match calls.lstat with
  | .absent => return false
  | .failed => throw (ascii "failed to stat socket path " ++ path ++ ascii ": " ++ calls.errorText)
  | .other => throw (ascii "refusing to remove non-socket file at " ++ path)
  | .socket => do
      let live ← pathHasLiveListener calls
      check (!live) (ascii "another process is already listening on " ++ path
        ++ ascii (" -- refusing to remove its socket. Stop that instance " ++
          "first, or configure a different socket= path."))
      return true

def removeStale (path : Bytes) (calls : Calls) : Init Unit := do
  check calls.unlinkStale (ascii "failed to remove stale socket " ++ path ++ ascii ": "
    ++ calls.errorText)
  modify fun s => { s with pathOps := s.pathOps ++ [.removeStale] }

/-- `sizeof(addr.sun_path)`. -/
def sunPathSize : Nat := 108

def bindSocket (cfg : Config) (calls : Calls) : Init Unit := do
  check calls.socket (ascii "socket() failed: " ++ calls.errorText)
  let fd ← openFd .unix
  modify fun s => { s with listenFd := some fd }
  check (decide (cfg.socketPath.length < sunPathSize))
    (ascii "socket path too long: " ++ cfg.socketPath)
  check calls.bind (ascii "bind(" ++ cfg.socketPath ++ ascii ") failed: " ++ calls.errorText)
  modify fun s => { s with socketCreated := true, pathOps := s.pathOps ++ [.bind] }
  check calls.chmod (ascii "chmod(" ++ cfg.socketPath ++ ascii ") failed: " ++ calls.errorText)
  check calls.listen (ascii "listen() failed: " ++ calls.errorText)

def setupSocket (cfg : Config) (calls : Calls) : Init Unit := do
  ensureSocketDirectory cfg.socketPath calls
  let stale ← checkPath cfg.socketPath calls
  if stale then
    removeStale cfg.socketPath calls
    bindSocket cfg calls
  else
    bindSocket cfg calls

/-! ### TCP listeners and the pool -/

inductive Family where
  | inet
  | inet6
  deriving DecidableEq

def bindOneTcp (family : Family) (tcp : TcpCalls) (errorText : Bytes) : Init Unit := do
  check tcp.socket (ascii "socket() failed for TCP listener: " ++ errorText)
  let fd ← openFd .tcp
  checkOrClose tcp.reuseAddr .tcp fd (ascii "setsockopt(SO_REUSEADDR) failed: " ++ errorText)
  -- only an IPv6 socket is asked not to be dual-stack
  checkOrClose (family == .inet || tcp.v6only) .tcp fd
    (ascii "setsockopt(IPV6_V6ONLY) failed: " ++ errorText)
  checkOrClose tcp.bind .tcp fd (ascii "bind() failed for TCP listener: " ++ errorText)
  checkOrClose tcp.listen .tcp fd (ascii "listen() failed for TCP listener: " ++ errorText)
  modify fun s => { s with tcpListenFds := s.tcpListenFds ++ [fd] }

def setupTcpListeners (cfg : Config) (calls : Calls) : Init Unit :=
  if cfg.tcpPort = 0 then pure ()
  else if cfg.tcpAddress = [] then do
    bindOneTcp .inet calls.tcp4 calls.errorText
    bindOneTcp .inet6 calls.tcp6 calls.errorText
  else
    match parseIpAddress cfg.tcpAddress with
    | none => throw (ascii "invalid tcp_address: " ++ cfg.tcpAddress)
    | some (.inet _) => bindOneTcp .inet calls.tcp4 calls.errorText
    | some (.inet6 _) => bindOneTcp .inet6 calls.tcp6 calls.errorText

def startPool : Init Unit :=
  modify fun s => { s with pool := true, log := s.log ++ [.acquire .pool] }

def Server.init (cfg : Config) (calls : Calls) : Init Unit := do
  setupSignals calls
  cfg.dbPaths.configured.forM (openConfigured cfg calls)
  ensure Life.hasDatabase
    (ascii "no databases configured (set country_db, asn_db, and/or city_db)")
  setupSocket cfg calls
  setupTcpListeners cfg calls
  startPool

/-! ### Serving and the end -/

namespace Life

/-- `reload_databases`, with what `MMDB_open` returns for each database. -/
def reloadDatabases (cfg : Config) (s : Life) (mmdbOpen : Db → Option Mmdb) : Life :=
  cfg.dbPaths.configured.foldl (fun s d => (s.openDatabase d (mmdbOpen d)).2) s

/-- `pool_->shutdown(); pool_.reset();` if there is a pool. -/
def stopPool (s : Life) : Life :=
  if s.pool then { s with pool := false, log := s.log ++ [.release .pool] } else s

def closeListenFd (s : Life) : Life :=
  { s with
    listenFd := none
    log := s.log ++ s.listenFd.toList.map fun fd => .release (.fd .unix fd) }

def closeTcpListenFds (s : Life) : Life :=
  { s with
    tcpListenFds := []
    log := s.log ++ s.tcpListenFds.map fun fd => .release (.fd .tcp fd) }

def closeSignalFd (s : Life) : Life :=
  { s with
    signalFd := none
    log := s.log ++ s.signalFd.toList.map fun fd => .release (.fd .signal fd) }

/-- `unlink` if `socket_created_`. -/
def unlinkSocket (s : Life) : Life :=
  if s.socketCreated then { s with socketCreated := false, pathOps := s.pathOps ++ [.unlink] } else s

/-- `~GeoIpDatabases`. -/
def closeDatabases (s : Life) : Life :=
  { s with db := {}, log := s.log ++ (s.db.destroy.map Res.db).map .release }

def cleanup (s : Life) : Life :=
  s.stopPool.closeListenFd.closeTcpListenFds.unlinkSocket.closeSignalFd

/-- `~Server`, and after it the destructors of its members. -/
def destroy (s : Life) : Life :=
  s.stopPool.closeListenFd.closeTcpListenFds.closeSignalFd.unlinkSocket.closeDatabases

end Life

/-- What a server that has come up does until its end: reloads on SIGHUP, until
a signal or an error of `poll` ends the loop. -/
def Server.run (cfg : Config) (s : Life) (reloads : List (Db → Option Mmdb)) : Life :=
  (reloads.foldl (Life.reloadDatabases cfg) s).cleanup

/-- Both lifecycles: `main` destroys the server whether `init` succeeded or not. -/
def lifecycle (cfg : Config) (calls : Calls) (reloads : List (Db → Option Mmdb)) : Life :=
  match exec (Server.init cfg calls) {} with
  | (.ok (), s) => (Server.run cfg s reloads).destroy
  | (.error _, s) => s.destroy

end Nshgeoip
