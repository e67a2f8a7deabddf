import Nshgeoip.Server.Lifecycle
import Nshgeoip.Server.Lifetime

/-!
No resource of the server is leaked or given back twice.

The resources a server owns are those its members name (`Life.held`), and while
a function of `init` runs also the descriptors it has in local variables. Every
call moves them by the rules of `Owned`, whatever fails, so that the destructor
finds exactly what is still to be given back.
-/

namespace Nshgeoip

open ByteText Lifetime Program

/-! ### What the members own -/

/-- A name the counter has given out before it reached `n`. -/
def Res.Below (n : Nat) : Res → Prop
  | .fd _ k => k < n
  | .db k => k < n
  | .pool => True

theorem Res.Below.mono {m n : Nat} (le : m ≤ n) {r : Res} (h : r.Below m) : r.Below n := by
  cases r with
  | fd kind k => exact Nat.lt_of_lt_of_le h le
  | db k => exact Nat.lt_of_lt_of_le h le
  | pool => trivial

namespace Life

def poolRes : Bool → List Res
  | true => [.pool]
  | false => []

def held (s : Life) : List Res :=
  s.signalFd.toList.map (.fd .signal) ++ s.listenFd.toList.map (.fd .unix)
    ++ s.tcpListenFds.map (.fd .tcp) ++ s.db.destroy.map .db ++ poolRes s.pool

/-- `socket_created_` says whether a bound socket file is still to be unlinked. -/
structure FileAccount (s : Life) : Prop where
  once : s.pathOps.count .bind ≤ 1
  balance : s.pathOps.count .bind = s.pathOps.count .unlink + if s.socketCreated then 1 else 0

/-- The accounts of a server that also has the descriptors of `extra` in local
variables. -/
structure Sound (extra : List Res) (s : Life) : Prop where
  owned : Owned s.log (extra ++ s.held)
  named : ∀ r, .acquire r ∈ s.log → r.Below s.next
  file : s.FileAccount

/-- No descriptor that connections are accepted on has been closed. -/
def Quiet (s : Life) : Prop := ∀ kind n, FdKind.isListener kind = true → .release (.fd kind n) ∉ s.log

/-- There has not been a pool. -/
structure Poolless (s : Life) : Prop where
  pool : s.pool = false
  log : .acquire .pool ∉ s.log

variable {s : Life} {extra : List Res}

theorem Sound.acquire (h : Sound extra s) {r : Res} (fresh : .acquire r ∉ s.log)
    (below : r.Below (s.next + 1)) :
    Sound (r :: extra) { s with next := s.next + 1, log := s.log ++ [.acquire r] } := by
  refine ⟨h.owned.acquire fresh, ?_, ⟨h.file.once, h.file.balance⟩⟩
  intro r' mem
  rcases List.mem_append.mp mem with before | here
  · exact (h.named r' before).mono (Nat.le_succ _)
  · cases List.mem_singleton.mp here
    exact below

theorem Sound.release {r : Res} (h : Sound (r :: extra) s) :
    Sound extra { s with log := s.log ++ [.release r] } := by
  refine ⟨h.owned.release, ?_, ⟨h.file.once, h.file.balance⟩⟩
  intro r' mem
  refine h.named r' ?_
  simpa using mem

/-- A resource moves from a local variable into a member. -/
theorem Sound.store (h : Sound extra s) {s' : Life} {extra' : List Res}
    (moved : (extra ++ s.held).Perm (extra' ++ s'.held)) (log : s'.log = s.log)
    (next : s'.next = s.next) (file : s'.FileAccount) : Sound extra' s' := by
  refine ⟨?_, ?_, file⟩
  · rw [log]
    exact h.owned.perm moved
  · rw [log, next]
    exact h.named

theorem Quiet.append {log : List (Event Res)} {next : Nat} (h : Quiet s)
    (more : ∀ kind n, FdKind.isListener kind = true → .release (.fd kind n) ∉ log) :
    Quiet { s with next := next, log := s.log ++ log } := by
  intro kind n listener mem
  rcases List.mem_append.mp mem with before | here
  · exact h kind n listener before
  · exact more kind n listener here

theorem Poolless.append {log : List (Event Res)} {next : Nat} (h : Poolless s)
    (more : .acquire .pool ∉ log) : Poolless { s with next := next, log := s.log ++ log } := by
  refine ⟨h.pool, ?_⟩
  intro mem
  rcases List.mem_append.mp mem with before | here
  · exact h.log before
  · exact more here

end Life

/-! ### Calls that open and close -/

open Life

/-- A fact about the members that the log has no part in. -/
def Unlogged (F : Life → Prop) : Prop := ∀ s next log, F s → F { s with next := next, log := log }

/-- `init` is on its way: the accounts are sound, nothing was closed and there
is no pool yet. -/
structure Starting (F : Life → Prop) (extra : List Res) (s : Life) : Prop where
  sound : Sound extra s
  quiet : Quiet s
  poolless : Poolless s
  frame : F s

/-- `init` has given up. -/
structure Broken (s : Life) : Prop where
  sound : Sound [] s
  poolless : Poolless s

theorem Starting.broken {F : Life → Prop} {s : Life} (h : Starting F [] s) : Broken s :=
  ⟨h.sound, h.poolless⟩

section Calls

variable {F : Life → Prop} {extra : List Res} {E : Life → Prop}

theorem openFd_starting (frame : Unlogged F) (kind : FdKind) :
    Triple (Starting F extra) (openFd kind) (fun fd => Starting F (.fd kind fd :: extra)) E := by
  refine .modifyGet fun s h => ?_
  have fresh : .acquire (.fd kind s.next) ∉ s.log := by
    intro mem
    exact Nat.lt_irrefl _ (h.sound.named _ mem)
  exact ⟨h.sound.acquire fresh (Nat.lt_succ_self _), h.quiet.append (by simp),
    h.poolless.append (by simp), frame s _ _ h.frame⟩

/-- Closing a descriptor that is no listener. -/
theorem closeFd_starting (frame : Unlogged F) {kind : FdKind} (other : kind.isListener = false)
    (fd : Nat) :
    Triple (Starting F (.fd kind fd :: extra)) (closeFd kind fd) (fun _ => Starting F extra) E := by
  refine .modify fun s h => ?_
  refine ⟨h.sound.release, h.quiet.append ?_, h.poolless.append (by simp), frame s _ _ h.frame⟩
  intro kind' n listener mem
  cases List.mem_singleton.mp mem
  rw [other] at listener
  cases listener

/-- A failing call behind which the descriptor is closed leaves nothing behind. -/
theorem checkOrClose_starting {ok : Bool} {kind : FdKind} {fd : Nat} {err : Bytes} :
    Triple (Starting F [.fd kind fd]) (checkOrClose ok kind fd err)
      (fun _ => Starting F [.fd kind fd]) Broken := by
  unfold checkOrClose
  cases ok with
  | true => exact .pure fun s h => h
  | false =>
      refine Triple.bind (Q := fun _ => Broken) (.modify fun s h => ?_) fun _ => .throw fun s h => h
      exact ⟨h.sound.release, h.poolless.append (by simp)⟩

theorem check_starting {ok : Bool} {err : Bytes} :
    Triple (Starting F []) (check ok err) (fun _ => Starting F []) Broken :=
  .check (fun _ _ h => h) fun _ _ h => h.broken

end Calls

/-! ### The parts of `init` -/

/-- Nothing is set up yet. -/
def Fresh (s : Life) : Prop := s.signalFd = none ∧ s.listenFd = none ∧ .bind ∉ s.pathOps

/-- The UNIX socket is not set up yet. -/
def Unbound (s : Life) : Prop := s.listenFd = none ∧ .bind ∉ s.pathOps

theorem setupSignals_starting (calls : Calls) :
    Triple (Starting Fresh []) (setupSignals calls) (fun _ => Starting Unbound []) Broken := by
  refine check_starting.bind fun _ => ?_
  refine check_starting.bind fun _ => ?_
  refine (openFd_starting (fun _ _ _ h => h) .signal).bind fun fd => ?_
  refine .modify fun s h => ?_
  obtain ⟨noSignal, noListen, unbound⟩ := h.frame
  refine ⟨h.sound.store ?_ rfl rfl ⟨h.sound.file.once, h.sound.file.balance⟩, h.quiet,
    ⟨h.poolless.pool, h.poolless.log⟩, noListen, unbound⟩
  simp [held, noSignal]

/-- Opening a database turns the new handle and the one it replaces around. -/
theorem held_openDatabase (s : Life) (d : Db) {opened : Option Mmdb} {next : Nat}
    {log : List (Event Res)} :
    ((opened.map fun tmp => Res.db tmp.handle).toList ++ s.held).Perm
      ((s.db.openDb d opened).closed.map Res.db
        ++ held { s with db := (s.db.openDb d opened).db, next := next, log := log }) := by
  have turned := (s.db.openDb_handles d opened).map Res.db
  rw [List.perm_iff_count] at turned ⊢
  intro r
  have count := turned r
  have named : (opened.map fun tmp => Res.db tmp.handle).toList
      = (opened.map Mmdb.handle).toList.map Res.db := by cases opened <;> rfl
  simp only [held, named, List.map_append, List.count_append] at count ⊢
  omega

theorem openDatabase_sound {s : Life} (h : Sound [] s) (d : Db) (opened : Option Mmdb) :
    Sound [] (s.openDatabase d opened).2 := by
  have acquired : Owned
      (s.log ++ ((opened.map fun tmp => { tmp with handle := s.next }).map fun tmp =>
        Event.acquire (Res.db tmp.handle)).toList)
      (((opened.map fun tmp => { tmp with handle := s.next }).map fun tmp =>
        Res.db tmp.handle).toList ++ s.held) := by
    cases opened with
    | none => simpa using h.owned
    | some tmp =>
        refine h.owned.acquire ?_
        intro mem
        exact Nat.lt_irrefl _ (h.named _ mem)
  refine ⟨(acquired.perm (held_openDatabase s d)).releases, ?_,
    ⟨h.file.once, h.file.balance⟩⟩
  intro r mem
  have before : .acquire r ∈ s.log ∨ r = .db s.next := by
    cases opened with
    | none => exact .inl (by simpa [openDatabase] using mem)
    | some tmp => simpa [openDatabase] using mem
  rcases before with before | rfl
  · exact (h.named r before).mono (Nat.le_succ _)
  · exact Nat.lt_succ_self _

/-- Neither a listener nor the pool is involved. -/
theorem openDatabase_log (s : Life) (d : Db) (opened : Option Mmdb) :
    ∃ log, (s.openDatabase d opened).2.log = s.log ++ log ∧
      (∀ kind n, .release (.fd kind n) ∉ log) ∧ .acquire .pool ∉ log := by
  refine ⟨_, List.append_assoc _ _ _, ?_, ?_⟩
  · intro kind n
    cases opened <;> simp
  · cases opened <;> simp

theorem openDatabase_quiet {s : Life} (h : Quiet s) (d : Db) (opened : Option Mmdb) :
    Quiet (s.openDatabase d opened).2 := by
  obtain ⟨log, eq, closes, -⟩ := openDatabase_log s d opened
  intro kind n listener mem
  rw [eq] at mem
  rcases List.mem_append.mp mem with before | here
  · exact h kind n listener before
  · exact closes kind n here

theorem openConfigured_starting (cfg : Config) (calls : Calls) (d : Db) :
    Triple (Starting Unbound []) (openConfigured cfg calls d) (fun _ => Starting Unbound []) Broken := by
  refine Triple.bind (Q := fun _ => Starting Unbound []) ?_ fun _ => check_starting
  refine .modifyGet fun s h => ?_
  obtain ⟨log, eq, -, noPool⟩ := openDatabase_log s d (calls.mmdbOpen d)
  refine ⟨openDatabase_sound h.sound d _, openDatabase_quiet h.quiet d _,
    ⟨h.poolless.pool, ?_⟩, h.frame⟩
  rw [eq]
  exact fun mem => (List.mem_append.mp mem).elim h.poolless.log noPool

/-! ### The socket -/

theorem ensureSocketDirectory_starting (path : Bytes) (calls : Calls) :
    Triple (Starting Unbound []) (ensureSocketDirectory path calls)
      (fun _ => Starting Unbound []) Broken := by
  unfold ensureSocketDirectory
  split
  · exact .pure fun _ h => h
  · split
    · exact .pure fun _ h => h
    · exact .throw fun _ h => h.broken
    · refine check_starting.bind fun _ => ?_
      refine check_starting.bind fun _ => ?_
      exact check_starting

theorem pathHasLiveListener_starting (calls : Calls) :
    Triple (Starting Unbound []) (pathHasLiveListener calls) (fun _ => Starting Unbound [])
      Broken := by
  unfold pathHasLiveListener
  split
  · refine (openFd_starting (fun _ _ _ h => h) .probe).bind fun fd => ?_
    refine (closeFd_starting (fun _ _ _ h => h) rfl fd).bind fun _ => ?_
    exact .pure fun _ h => h
  · exact .pure fun _ h => h

theorem checkPath_starting (path : Bytes) (calls : Calls) :
    Triple (Starting Unbound []) (checkPath path calls) (fun _ => Starting Unbound []) Broken := by
  unfold checkPath
  cases calls.lstat with
  | absent => exact .pure fun _ h => h
  | failed => exact .throw fun _ h => h.broken
  | other => exact .throw fun _ h => h.broken
  | socket =>
      refine (pathHasLiveListener_starting calls).bind fun live => ?_
      refine check_starting.bind fun _ => ?_
      exact .pure fun _ h => h

theorem removeStale_starting (path : Bytes) (calls : Calls) :
    Triple (Starting Unbound []) (removeStale path calls) (fun _ => Starting Unbound []) Broken := by
  refine check_starting.bind fun _ => ?_
  refine .modify fun s h => ?_
  obtain ⟨noListen, unbound⟩ := h.frame
  have file : FileAccount { s with pathOps := s.pathOps ++ [.removeStale] } := by
    have once := h.sound.file.once
    have balance := h.sound.file.balance
    exact ⟨by simpa using once, by simpa using balance⟩
  exact ⟨⟨h.sound.owned, h.sound.named, file⟩, h.quiet, ⟨h.poolless.pool, h.poolless.log⟩,
    noListen, by simpa using unbound⟩

theorem bindSocket_starting (cfg : Config) (calls : Calls) :
    Triple (Starting Unbound []) (bindSocket cfg calls) (fun _ => Starting (fun _ => True) [])
      Broken := by
  refine check_starting.bind fun _ => ?_
  refine (openFd_starting (fun _ _ _ h => h) .unix).bind fun fd => ?_
  refine Triple.bind (Q := fun _ => Starting (fun s => .bind ∉ s.pathOps) []) ?_ fun _ => ?_
  · refine .modify fun s h => ?_
    obtain ⟨noListen, unbound⟩ := h.frame
    refine ⟨h.sound.store ?_ rfl rfl ⟨h.sound.file.once, h.sound.file.balance⟩, h.quiet,
      ⟨h.poolless.pool, h.poolless.log⟩, unbound⟩
    rw [List.perm_iff_count]
    intro r
    simp only [held, noListen, Option.toList_none, Option.toList_some, List.map_nil, List.map_cons,
      List.count_append, List.count_nil]
    omega
  refine check_starting.bind fun _ => ?_
  refine check_starting.bind fun _ => ?_
  refine Triple.bind (Q := fun _ => Starting (fun _ => True) []) ?_ fun _ => ?_
  · refine .modify fun s h => ?_
    have never : s.pathOps.count .bind = 0 := List.count_eq_zero.mpr h.frame
    have balance := h.sound.file.balance
    have file : FileAccount { s with socketCreated := true, pathOps := s.pathOps ++ [.bind] } := by
      refine ⟨by simp [never], ?_⟩
      simp only [List.count_append, List.count_singleton, if_true]
      simp
      omega
    exact ⟨⟨h.sound.owned, h.sound.named, file⟩, h.quiet, ⟨h.poolless.pool, h.poolless.log⟩,
      trivial⟩
  refine check_starting.bind fun _ => ?_
  exact check_starting

theorem setupSocket_starting (cfg : Config) (calls : Calls) :
    Triple (Starting Unbound []) (setupSocket cfg calls) (fun _ => Starting (fun _ => True) [])
      Broken := by
  refine (ensureSocketDirectory_starting cfg.socketPath calls).bind fun _ => ?_
  refine (checkPath_starting cfg.socketPath calls).bind fun stale => ?_
  cases stale with
  | true =>
      refine (removeStale_starting cfg.socketPath calls).bind fun _ => ?_
      exact bindSocket_starting cfg calls
  | false => exact bindSocket_starting cfg calls

/-! ### TCP listeners and the pool -/

theorem bindOneTcp_starting (family : Family) (tcp : TcpCalls) (errorText : Bytes) :
    Triple (Starting (fun _ => True) []) (bindOneTcp family tcp errorText)
      (fun _ => Starting (fun _ => True) []) Broken := by
  refine check_starting.bind fun _ => ?_
  refine (openFd_starting (fun _ _ _ h => h) .tcp).bind fun fd => ?_
  refine checkOrClose_starting.bind fun _ => ?_
  refine checkOrClose_starting.bind fun _ => ?_
  refine checkOrClose_starting.bind fun _ => ?_
  refine checkOrClose_starting.bind fun _ => ?_
  refine .modify fun s h => ?_
  refine ⟨h.sound.store ?_ rfl rfl ⟨h.sound.file.once, h.sound.file.balance⟩, h.quiet,
    ⟨h.poolless.pool, h.poolless.log⟩, trivial⟩
  rw [List.perm_iff_count]
  intro r
  simp only [held, List.map_append, List.map_cons, List.map_nil, List.count_append, List.count_nil]
  omega

theorem setupTcpListeners_starting (cfg : Config) (calls : Calls) :
    Triple (Starting (fun _ => True) []) (setupTcpListeners cfg calls)
      (fun _ => Starting (fun _ => True) []) Broken := by
  unfold setupTcpListeners
  split
  · exact .pure fun _ h => h
  · split
    · exact (bindOneTcp_starting .inet _ _).bind fun _ => bindOneTcp_starting .inet6 _ _
    · split
      · exact .throw fun _ h => h.broken
      · exact bindOneTcp_starting .inet _ _
      · exact bindOneTcp_starting .inet6 _ _

/-- `init` has returned true: everything is owned by a member, and no listener
was closed. -/
structure Serving (s : Life) : Prop where
  sound : Sound [] s
  quiet : Quiet s

theorem startPool_serving :
    Triple (Starting (fun _ => True) []) startPool (fun _ => Serving) Broken := by
  refine .modify fun s h => ?_
  have owned : Owned (s.log ++ [.acquire .pool]) (.pool :: s.held) :=
    h.sound.owned.acquire h.poolless.log
  refine ⟨⟨owned.perm ?_, ?_, ⟨h.sound.file.once, h.sound.file.balance⟩⟩, ?_⟩
  · rw [List.perm_iff_count]
    intro r
    have none' := h.poolless.pool
    simp only [held, none', poolRes, List.nil_append, List.append_nil, List.count_append,
      List.count_cons, List.count_nil]
    omega
  · intro r mem
    rcases List.mem_append.mp mem with before | here
    · exact h.sound.named r before
    · cases List.mem_singleton.mp here
      trivial
  · intro kind n listener mem
    rcases List.mem_append.mp mem with before | here
    · exact h.quiet kind n listener before
    · simp at here

theorem init_serving (cfg : Config) (calls : Calls) :
    Triple (fun s => s = {}) (Server.init cfg calls) (fun _ => Serving) Broken := by
  have whole : Triple (Starting Fresh []) (Server.init cfg calls) (fun _ => Serving) Broken := by
    refine (setupSignals_starting calls).bind fun _ => ?_
    refine Triple.bind (.forM fun d _ => openConfigured_starting cfg calls d) fun _ => ?_
    refine Triple.bind (Q := fun _ => Starting Unbound []) ?_ fun _ => ?_
    · exact .ensure (fun _ h _ => h) fun _ h _ => h.broken
    refine (setupSocket_starting cfg calls).bind fun _ => ?_
    refine (setupTcpListeners_starting cfg calls).bind fun _ => ?_
    exact startPool_serving
  refine whole.conseq ?_ (fun _ _ h => h) fun _ h => h
  rintro s rfl
  refine ⟨⟨?_, ?_, ?_⟩, ?_, ⟨rfl, ?_⟩, rfl, rfl, ?_⟩
  · exact owned_nil
  · simp
  · exact ⟨by simp, by simp⟩
  · intro kind n _
    simp
  · simp
  · simp

/-! ### Serving and the end -/

theorem Serving.openDatabase {s : Life} (h : Serving s) (d : Db) (opened : Option Mmdb) :
    Serving (s.openDatabase d opened).2 :=
  ⟨openDatabase_sound h.sound d opened, openDatabase_quiet h.quiet d opened⟩

theorem Serving.reload {s : Life} (h : Serving s) (cfg : Config) (mmdbOpen : Db → Option Mmdb) :
    Serving (s.reloadDatabases cfg mmdbOpen) := by
  unfold Life.reloadDatabases
  induction cfg.dbPaths.configured generalizing s with
  | nil => exact h
  | cons d rest ih => exact ih (h.openDatabase d _)

theorem Serving.reloads {s : Life} (h : Serving s) (cfg : Config)
    (reloads : List (Db → Option Mmdb)) :
    Serving (reloads.foldl (Life.reloadDatabases cfg) s) := by
  induction reloads generalizing s with
  | nil => exact h
  | cons mmdbOpen rest ih => exact ih (h.reload cfg mmdbOpen)

/-- Giving resources of members back. -/
theorem Life.Sound.giveBack {s s' : Life} (h : Sound [] s) (rs : List Res)
    (moved : s.held.Perm (rs ++ s'.held)) (log : s'.log = s.log ++ rs.map .release)
    (next : s'.next = s.next) (file : s'.FileAccount) : Sound [] s' := by
  refine ⟨?_, ?_, file⟩
  · rw [log]
    exact Owned.releases (h.owned.perm moved)
  · intro r mem
    rw [log] at mem
    rw [next]
    refine h.named r ?_
    simpa using mem

/-- The log goes on, without another pool. -/
def GoesOn (s s' : Life) : Prop := ∃ more, s'.log = s.log ++ more ∧ .acquire .pool ∉ more

theorem GoesOn.trans {s t u : Life} (h : GoesOn s t) (h' : GoesOn t u) : GoesOn s u := by
  obtain ⟨more, eq, none'⟩ := h
  obtain ⟨more', eq', none''⟩ := h'
  refine ⟨more ++ more', by rw [eq', eq, List.append_assoc], ?_⟩
  exact fun mem => (List.mem_append.mp mem).elim none' none''

namespace Life

variable {s : Life}

theorem stopPool_sound (h : Sound [] s) : Sound [] s.stopPool := by
  unfold stopPool
  split
  · rename_i running
    refine h.giveBack [.pool] ?_ rfl rfl ⟨h.file.once, h.file.balance⟩
    rw [List.perm_iff_count]
    intro r
    simp only [held, running, poolRes, List.count_append, List.count_nil]
    omega
  · exact h

theorem closeListenFd_sound (h : Sound [] s) : Sound [] s.closeListenFd := by
  refine h.giveBack (s.listenFd.toList.map (.fd .unix)) ?_ (by simp [closeListenFd]) rfl
    ⟨h.file.once, h.file.balance⟩
  rw [List.perm_iff_count]
  intro r
  simp only [held, closeListenFd, Option.toList_none, List.map_nil, List.count_append,
    List.count_nil]
  omega

theorem closeTcpListenFds_sound (h : Sound [] s) : Sound [] s.closeTcpListenFds := by
  refine h.giveBack (s.tcpListenFds.map (.fd .tcp)) ?_ (by simp [closeTcpListenFds]) rfl
    ⟨h.file.once, h.file.balance⟩
  rw [List.perm_iff_count]
  intro r
  simp only [held, closeTcpListenFds, List.map_nil, List.count_append, List.count_nil]
  omega

theorem closeSignalFd_sound (h : Sound [] s) : Sound [] s.closeSignalFd := by
  refine h.giveBack (s.signalFd.toList.map (.fd .signal)) ?_ (by simp [closeSignalFd]) rfl
    ⟨h.file.once, h.file.balance⟩
  rw [List.perm_iff_count]
  intro r
  simp only [held, closeSignalFd, Option.toList_none, List.map_nil, List.count_append,
    List.count_nil]
  omega

theorem closeDatabases_sound (h : Sound [] s) : Sound [] s.closeDatabases := by
  refine h.giveBack (s.db.destroy.map .db) ?_ rfl rfl ⟨h.file.once, h.file.balance⟩
  rw [List.perm_iff_count]
  intro r
  have closed : ({} : GeoIpDatabases).destroy = [] := rfl
  simp only [held, closeDatabases, closed, List.map_nil, List.count_append, List.count_nil]
  omega

theorem unlinkSocket_sound (h : Sound [] s) : Sound [] s.unlinkSocket := by
  unfold unlinkSocket
  split
  · rename_i created
    refine ⟨h.owned, h.named, ?_, ?_⟩
    · simpa using h.file.once
    · have balance := h.file.balance
      simp only [created, if_true] at balance
      simpa using balance
  · exact h

theorem cleanup_sound (h : Sound [] s) : Sound [] s.cleanup :=
  closeSignalFd_sound (unlinkSocket_sound (closeTcpListenFds_sound
    (closeListenFd_sound (stopPool_sound h))))

theorem destroy_sound (h : Sound [] s) : Sound [] s.destroy :=
  closeDatabases_sound (unlinkSocket_sound (closeSignalFd_sound (closeTcpListenFds_sound
    (closeListenFd_sound (stopPool_sound h)))))

theorem stopPool_goesOn (s : Life) : GoesOn s s.stopPool := by
  unfold stopPool
  split
  · exact ⟨_, rfl, by simp⟩
  · exact ⟨[], by simp, by simp⟩

theorem unlinkSocket_goesOn (s : Life) : GoesOn s s.unlinkSocket := by
  refine ⟨[], ?_, by simp⟩
  unfold unlinkSocket
  split <;> simp

theorem cleanup_goesOn (s : Life) : GoesOn s.stopPool s.cleanup := by
  have listen : GoesOn s.stopPool s.stopPool.closeListenFd := ⟨_, rfl, by simp⟩
  have tcp : GoesOn _ s.stopPool.closeListenFd.closeTcpListenFds := ⟨_, rfl, by simp⟩
  have signal (t : Life) : GoesOn t t.closeSignalFd := ⟨_, rfl, by simp⟩
  exact ((listen.trans tcp).trans (unlinkSocket_goesOn _)).trans (signal _)

theorem destroy_goesOn (s : Life) : GoesOn s s.destroy := by
  have listen : GoesOn s.stopPool s.stopPool.closeListenFd := ⟨_, rfl, by simp⟩
  have tcp : GoesOn _ s.stopPool.closeListenFd.closeTcpListenFds := ⟨_, rfl, by simp⟩
  have signal (t : Life) : GoesOn t t.closeSignalFd := ⟨_, rfl, by simp⟩
  have databases (t : Life) : GoesOn t t.closeDatabases := ⟨_, rfl, by simp⟩
  exact (((((stopPool_goesOn s).trans listen).trans tcp).trans (signal _)).trans
    (unlinkSocket_goesOn _)).trans (databases _)

theorem stopPool_pool (s : Life) : s.stopPool.pool = false := by
  unfold stopPool
  split
  · rfl
  · rename_i none'
    simpa using none'

theorem held_destroy (s : Life) : s.destroy.held = [] := by
  have pool := stopPool_pool s
  have closed : ({} : GeoIpDatabases).destroy = [] := rfl
  unfold destroy unlinkSocket
  split <;>
    simp [held, closeDatabases, closeSignalFd, closeTcpListenFds, closeListenFd, closed, pool, poolRes]

theorem socketCreated_destroy (s : Life) : s.destroy.socketCreated = false := by
  unfold destroy unlinkSocket
  split
  · rfl
  · rename_i none'
    simpa [closeDatabases] using none'

end Life

/-! ### The lifecycles -/

/-- No listener is closed in the first part of the log, and a pool that ever ran
was stopped in it. -/
def PoolStopsFirst (log : List (Event Res)) : Prop :=
  ∃ front back, log = front ++ back ∧
    (∀ kind n, FdKind.isListener kind = true → .release (.fd kind n) ∉ front) ∧
    (.acquire .pool ∈ log → .release .pool ∈ front)

theorem Serving.poolStopsFirst {s t : Life} (h : Serving s) (later : GoesOn s.stopPool t) :
    PoolStopsFirst t.log := by
  obtain ⟨more, eq, noPool⟩ := later
  refine ⟨s.stopPool.log, more, eq, ?_, ?_⟩
  · intro kind n listener mem
    unfold Life.stopPool at mem
    split at mem
    · exact h.quiet kind n listener (by simpa using mem)
    · exact h.quiet kind n listener mem
  · intro ran
    rw [eq] at ran
    have ran' := (List.mem_append.mp ran).resolve_right noPool
    have stopped := Life.stopPool_sound h.sound
    by_contra running
    have owned : Res.pool ∈ s.stopPool.held := (stopped.owned.live_iff .pool).mp ⟨ran', running⟩
    simp [Life.held, Life.stopPool_pool, Life.poolRes] at owned

theorem Broken.poolStopsFirst {s t : Life} (h : Broken s) (later : GoesOn s t) :
    PoolStopsFirst t.log := by
  obtain ⟨more, eq, noPool⟩ := later
  refine ⟨[], t.log, rfl, by simp, ?_⟩
  intro ran
  rw [eq] at ran
  rcases List.mem_append.mp ran with before | after
  · exact absurd before h.poolless.log
  · exact absurd after noPool

theorem lifecycle_end (cfg : Config) (calls : Calls) (reloads : List (Db → Option Mmdb)) :
    Sound [] (lifecycle cfg calls reloads) ∧ (lifecycle cfg calls reloads).held = [] ∧
      (lifecycle cfg calls reloads).socketCreated = false ∧
      PoolStopsFirst (lifecycle cfg calls reloads).log := by
  have started := init_serving cfg calls {} rfl
  unfold lifecycle
  split
  · rename_i s eq
    rw [eq] at started
    have serving := Serving.reloads started cfg reloads
    refine ⟨Life.destroy_sound (Life.cleanup_sound serving.sound), Life.held_destroy _,
      Life.socketCreated_destroy _, ?_⟩
    exact serving.poolStopsFirst ((Life.cleanup_goesOn _).trans (Life.destroy_goesOn _))
  · rename_i e s eq
    rw [eq] at started
    exact ⟨Life.destroy_sound started.sound, Life.held_destroy _, Life.socketCreated_destroy _,
      started.poolStopsFirst (Life.destroy_goesOn _)⟩

/-- **No lifecycle leaks a resource or gives one back twice**, whichever calls
fail: every descriptor and database handle and the pool are released exactly
once, the pool before any listener, and the socket file is unlinked exactly once
if it was bound and not at all if it was not. -/
theorem lifecycle_resources (cfg : Config) (calls : Calls) (reloads : List (Db → Option Mmdb)) :
    (∀ r, .acquire r ∈ (lifecycle cfg calls reloads).log →
        (lifecycle cfg calls reloads).log.count (.release r) = 1) ∧
      (∀ r, .acquire r ∉ (lifecycle cfg calls reloads).log →
        .release r ∉ (lifecycle cfg calls reloads).log) ∧
      PoolStopsFirst (lifecycle cfg calls reloads).log ∧
      (.bind ∈ (lifecycle cfg calls reloads).pathOps →
        (lifecycle cfg calls reloads).pathOps.count .unlink = 1) ∧
      (.bind ∉ (lifecycle cfg calls reloads).pathOps →
        .unlink ∉ (lifecycle cfg calls reloads).pathOps) := by
  obtain ⟨sound, nothing, gone, order⟩ := lifecycle_end cfg calls reloads
  have owned : Owned (lifecycle cfg calls reloads).log [] := by
    have := sound.owned
    rwa [nothing] at this
  have balance := sound.file.balance
  have once := sound.file.once
  rw [gone] at balance
  simp only [Bool.false_eq_true, if_false, Nat.add_zero] at balance
  refine ⟨fun r => owned.released_once, ?_, order, ?_, ?_⟩
  · intro r never released
    obtain ⟨pre, post, eq⟩ := List.append_of_mem released
    have live : Live pre r := owned.disciplined pre _ post eq
    exact never (by rw [eq]; exact List.mem_append_left _ live.1)
  · intro bound
    have := List.count_pos_iff.mpr bound
    omega
  · intro unbound
    rw [List.count_eq_zero.mpr unbound] at balance
    exact List.count_eq_zero.mp balance.symm

end Nshgeoip
