import Nshgeoip.Server.Lifecycle
import Mathlib.Logic.Relation

/-!
Who owns the file at the socket path, over any history of daemons and other
processes.

A start and a stop are one step each, with the path operations their run of
`init`, `cleanup` and the destructor made; what they remove is whatever lies at
the path then. `Sees` ties the outcomes of a start to the world it happens in:
`lstat` reports what is there, and `connect` succeeds exactly when the socket
at the path has a listener.
-/

namespace Nshgeoip

open ByteText Lifetime Program

/-! ### What a start does at the path -/

/-- The probe reached a listener. -/
def Calls.reached (calls : Calls) : Bool := calls.probeSocket && calls.connect

/-- A fact about what was done at the path. -/
def OnPath (P : List PathOp → Bool → Prop) (s : Life) : Prop := P s.pathOps s.socketCreated

/-- Nothing was done yet. -/
def Untouched (ops : List PathOp) (created : Bool) : Prop := ops = [] ∧ created = false

/-- The path was found free, or a dead socket was removed from it. -/
def Cleared (calls : Calls) (ops : List PathOp) (created : Bool) : Prop :=
  created = false ∧
    (calls.lstat = .absent ∧ ops = [] ∨
      calls.lstat = .socket ∧ calls.reached = false ∧ ops = [.removeStale])

/-- The socket was bound on a cleared path. -/
def BoundAt (calls : Calls) (ops : List PathOp) (created : Bool) : Prop :=
  created = true ∧
    (calls.lstat = .absent ∧ ops = [.bind] ∨
      calls.lstat = .socket ∧ calls.reached = false ∧ ops = [.removeStale, .bind])

/-- Where a start may have given up. -/
def GaveUp (calls : Calls) (ops : List PathOp) (created : Bool) : Prop :=
  Untouched ops created ∨ Cleared calls ops created ∨ BoundAt calls ops created

section OffPath

variable {P : List PathOp → Bool → Prop} {E : Life → Prop}

theorem check_onPath {ok : Bool} {err : Bytes} (fail : ∀ s, OnPath P s → E s) :
    Triple (OnPath P) (check ok err) (fun _ => OnPath P) E :=
  .check (fun _ _ h => h) fun _ s h => fail s h

theorem openFd_onPath (kind : FdKind) : Triple (OnPath P) (openFd kind) (fun _ => OnPath P) E :=
  .modifyGet fun _ h => h

theorem closeFd_onPath (kind : FdKind) (fd : Nat) :
    Triple (OnPath P) (closeFd kind fd) (fun _ => OnPath P) E :=
  .modify fun _ h => h

theorem checkOrClose_onPath {ok : Bool} {kind : FdKind} {fd : Nat} {err : Bytes}
    (fail : ∀ s, OnPath P s → E s) :
    Triple (OnPath P) (checkOrClose ok kind fd err) (fun _ => OnPath P) E := by
  unfold checkOrClose
  cases ok with
  | true => exact .pure fun _ h => h
  | false => exact (closeFd_onPath kind fd).bind fun _ => .throw fail

theorem setupSignals_onPath (calls : Calls) (fail : ∀ s, OnPath P s → E s) :
    Triple (OnPath P) (setupSignals calls) (fun _ => OnPath P) E := by
  refine (check_onPath fail).bind fun _ => ?_
  refine (check_onPath fail).bind fun _ => ?_
  refine (openFd_onPath .signal).bind fun fd => ?_
  exact .modify fun _ h => h

theorem openConfigured_onPath (cfg : Config) (calls : Calls) (d : Db)
    (fail : ∀ s, OnPath P s → E s) :
    Triple (OnPath P) (openConfigured cfg calls d) (fun _ => OnPath P) E := by
  refine Triple.bind (Q := fun _ => OnPath P) ?_ fun _ => check_onPath fail
  exact .modifyGet fun _ h => h

theorem ensureSocketDirectory_onPath (path : Bytes) (calls : Calls)
    (fail : ∀ s, OnPath P s → E s) :
    Triple (OnPath P) (ensureSocketDirectory path calls) (fun _ => OnPath P) E := by
  unfold ensureSocketDirectory
  split
  · exact .pure fun _ h => h
  · split
    · exact .pure fun _ h => h
    · exact .throw fail
    · refine (check_onPath fail).bind fun _ => ?_
      refine (check_onPath fail).bind fun _ => ?_
      exact check_onPath fail

theorem bindOneTcp_onPath (family : Family) (tcp : TcpCalls) (errorText : Bytes)
    (fail : ∀ s, OnPath P s → E s) :
    Triple (OnPath P) (bindOneTcp family tcp errorText) (fun _ => OnPath P) E := by
  refine (check_onPath fail).bind fun _ => ?_
  refine (openFd_onPath .tcp).bind fun fd => ?_
  refine (checkOrClose_onPath fail).bind fun _ => ?_
  refine (checkOrClose_onPath fail).bind fun _ => ?_
  refine (checkOrClose_onPath fail).bind fun _ => ?_
  refine (checkOrClose_onPath fail).bind fun _ => ?_
  exact .modify fun _ h => h

theorem setupTcpListeners_onPath (cfg : Config) (calls : Calls) (fail : ∀ s, OnPath P s → E s) :
    Triple (OnPath P) (setupTcpListeners cfg calls) (fun _ => OnPath P) E := by
  unfold setupTcpListeners
  split
  · exact .pure fun _ h => h
  · split
    · exact (bindOneTcp_onPath .inet _ _ fail).bind fun _ => bindOneTcp_onPath .inet6 _ _ fail
    · split
      · exact .throw fail
      · exact bindOneTcp_onPath .inet _ _ fail
      · exact bindOneTcp_onPath .inet6 _ _ fail

end OffPath

/-- The probe leaves the path alone and reports what it reached. -/
theorem pathHasLiveListener_onPath {P : List PathOp → Bool → Prop} {E : Life → Prop} (calls : Calls) :
    Triple (OnPath P) (pathHasLiveListener calls)
      (fun live s => OnPath P s ∧ live = calls.reached) E := by
  unfold pathHasLiveListener Calls.reached
  cases calls.probeSocket with
  | true =>
      refine (openFd_onPath .probe).bind fun fd => ?_
      refine (closeFd_onPath .probe fd).bind fun _ => ?_
      exact .pure fun _ h => ⟨h, by simp⟩
  | false => exact .pure fun _ h => ⟨h, by simp⟩

/-- What the path checks let through. -/
theorem checkPath_onPath (path : Bytes) (calls : Calls) :
    Triple (OnPath Untouched) (checkPath path calls)
      (fun stale s => OnPath Untouched s ∧
        if stale then calls.lstat = .socket ∧ calls.reached = false else calls.lstat = .absent)
      (OnPath (GaveUp calls)) := by
  unfold checkPath
  cases seen : calls.lstat with
  | absent => exact .pure fun _ h => ⟨h, by simp⟩
  | failed => exact .throw fun _ h => .inl h
  | other => exact .throw fun _ h => .inl h
  | socket =>
      refine (pathHasLiveListener_onPath calls).bind fun live => ?_
      refine Triple.bind (Q := fun _ s => OnPath Untouched s ∧ calls.reached = false) ?_ fun _ => ?_
      · refine .check ?_ ?_
        · rintro quiet s ⟨h, rfl⟩
          exact ⟨h, by simpa using quiet⟩
        · rintro - s ⟨h, -⟩
          exact .inl h
      · exact .pure fun _ h => ⟨h.1, by simp [h.2]⟩

theorem bindSocket_onPath (cfg : Config) (calls : Calls) :
    Triple (OnPath (Cleared calls)) (bindSocket cfg calls) (fun _ => OnPath (BoundAt calls))
      (OnPath (GaveUp calls)) := by
  have cleared : ∀ s, OnPath (Cleared calls) s → OnPath (GaveUp calls) s := fun _ h => .inr (.inl h)
  have bound : ∀ s, OnPath (BoundAt calls) s → OnPath (GaveUp calls) s := fun _ h => .inr (.inr h)
  refine (check_onPath cleared).bind fun _ => ?_
  refine (openFd_onPath .unix).bind fun fd => ?_
  refine Triple.bind (Q := fun _ => OnPath (Cleared calls)) (.modify fun _ h => h) fun _ => ?_
  refine (check_onPath cleared).bind fun _ => ?_
  refine (check_onPath cleared).bind fun _ => ?_
  refine Triple.bind (Q := fun _ => OnPath (BoundAt calls)) ?_ fun _ => ?_
  · refine .modify fun s h => ?_
    obtain ⟨-, free | dead⟩ := h
    · exact ⟨rfl, .inl ⟨free.1, by rw [free.2]; rfl⟩⟩
    · exact ⟨rfl, .inr ⟨dead.1, dead.2.1, by rw [dead.2.2]; rfl⟩⟩
  refine (check_onPath bound).bind fun _ => ?_
  exact check_onPath bound

theorem setupSocket_onPath (cfg : Config) (calls : Calls) :
    Triple (OnPath Untouched) (setupSocket cfg calls) (fun _ => OnPath (BoundAt calls))
      (OnPath (GaveUp calls)) := by
  refine (ensureSocketDirectory_onPath cfg.socketPath calls fun _ h => .inl h).bind fun _ => ?_
  refine (checkPath_onPath cfg.socketPath calls).bind fun stale => ?_
  cases stale with
  | true =>
      refine Triple.bind (Q := fun _ => OnPath (Cleared calls)) ?_ fun _ => bindSocket_onPath cfg calls
      refine Triple.bind (Q := fun _ s => OnPath Untouched s ∧
          calls.lstat = .socket ∧ calls.reached = false) ?_ fun _ => ?_
      · exact .check (fun _ _ h => ⟨h.1, by simpa using h.2⟩) fun _ _ h => .inl h.1
      · refine .modify fun s h => ?_
        obtain ⟨⟨nothing, created⟩, seen, dead⟩ := h
        exact ⟨created, .inr ⟨seen, dead, by rw [nothing]; rfl⟩⟩
  | false =>
      refine (bindSocket_onPath cfg calls).conseq ?_ (fun _ _ h => h) fun _ h => h
      rintro s ⟨⟨nothing, created⟩, seen⟩
      exact ⟨created, .inl ⟨by simpa using seen, nothing⟩⟩

/-- **What a start does at the path**: it binds on a cleared path, or gives up. -/
theorem init_onPath (cfg : Config) (calls : Calls) :
    Triple (OnPath Untouched) (Server.init cfg calls) (fun _ => OnPath (BoundAt calls))
      (OnPath (GaveUp calls)) := by
  have untouched : ∀ s, OnPath Untouched s → OnPath (GaveUp calls) s := fun _ h => .inl h
  refine (setupSignals_onPath calls untouched).bind fun _ => ?_
  refine Triple.bind (.forM fun d _ => openConfigured_onPath cfg calls d untouched) fun _ => ?_
  refine Triple.bind (Q := fun _ => OnPath Untouched) ?_ fun _ => ?_
  · exact .ensure (fun _ h _ => h) fun s h _ => untouched s h
  refine (setupSocket_onPath cfg calls).bind fun _ => ?_
  refine (setupTcpListeners_onPath cfg calls fun _ h => .inr (.inr h)).bind fun _ => ?_
  exact .modify fun _ h => h

/-! ### What a stop does at the path -/

theorem stopPool_path (s : Life) :
    s.stopPool.pathOps = s.pathOps ∧ s.stopPool.socketCreated = s.socketCreated := by
  unfold Life.stopPool
  split <;> exact ⟨rfl, rfl⟩

theorem pathOps_destroy (s : Life) :
    s.destroy.pathOps = s.pathOps ++ if s.socketCreated then [.unlink] else [] := by
  have same := stopPool_path s
  unfold Life.destroy Life.unlinkSocket
  split
  · rename_i created
    have created' : s.socketCreated = true := same.2.symm.trans created
    rw [if_pos created', ← same.1]
    rfl
  · rename_i none'
    have none'' : ¬ s.socketCreated = true := fun h => none' (same.2.trans h)
    rw [if_neg none'', List.append_nil, ← same.1]
    rfl

theorem pathOps_cleanup (s : Life) :
    s.cleanup.pathOps = s.pathOps ++ (if s.socketCreated then [.unlink] else []) ∧
      s.cleanup.socketCreated = false := by
  have same := stopPool_path s
  unfold Life.cleanup Life.unlinkSocket
  split
  · rename_i created
    have created' : s.socketCreated = true := same.2.symm.trans created
    rw [if_pos created', ← same.1]
    exact ⟨rfl, rfl⟩
  · rename_i none'
    have none'' : ¬ s.socketCreated = true := fun h => none' (same.2.trans h)
    rw [if_neg none'', List.append_nil, ← same.1]
    exact ⟨rfl, by simpa [Life.closeSignalFd] using none'⟩

theorem onPath_reloads {P : List PathOp → Bool → Prop} (cfg : Config)
    (reloads : List (Db → Option Mmdb)) {s : Life} (h : OnPath P s) :
    OnPath P (reloads.foldl (Life.reloadDatabases cfg) s) := by
  induction reloads generalizing s with
  | nil => exact h
  | cons mmdbOpen rest ih =>
      refine ih ?_
      unfold Life.reloadDatabases
      induction cfg.dbPaths.configured generalizing s with
      | nil => exact h
      | cons d more ih' => exact ih' h

/-- A server that owns its socket file unlinks it once on its way out. -/
theorem pathOps_run_destroy (cfg : Config) (reloads : List (Db → Option Mmdb)) {s : Life}
    (created : s.socketCreated = true) :
    (Server.run cfg s reloads).destroy.pathOps = s.pathOps ++ [.unlink] := by
  have before : OnPath (fun ops created => ops = s.pathOps ∧ created = true) s := ⟨rfl, created⟩
  obtain ⟨ops, still⟩ := onPath_reloads cfg reloads before
  obtain ⟨cleaned, gone⟩ := pathOps_cleanup (reloads.foldl (Life.reloadDatabases cfg) s)
  rw [Server.run, pathOps_destroy, gone, cleaned, ops, still]
  simp

/-! ### The world at the path -/

inductive PathFile where
  | other
  | socket (id : Nat)
  deriving DecidableEq

/-- A running daemon: the socket it bound, and its state. -/
structure Daemon where
  id : Nat
  life : Life

structure World where
  file : Option PathFile := none
  daemons : List Daemon := []
  /-- The sockets other processes listen on. -/
  foreign : List Nat := []
  next : Nat := 0

/-- Some process is listening on the socket. -/
def World.Live (w : World) (id : Nat) : Prop := (∃ d ∈ w.daemons, d.id = id) ∨ id ∈ w.foreign

/-- What `lstat` reports. -/
def lstatOf : Option PathFile → LstatResult
  | none => .absent
  | some .other => .other
  | some (.socket _) => .socket

/-- The outcomes of a start are those of the world it happens in. -/
structure Sees (cfg : Config) (w : World) (calls : Calls) : Prop where
  lstat : calls.lstat = .failed ∨ calls.lstat = lstatOf w.file
  probe : calls.probeSocket = true
  connect : cfg.socketPath.length < sunPathSize →
    ∀ id, w.file = some (.socket id) → (calls.connect = true ↔ w.Live id)

/-- The file at the path after an operation of the server that binds `id`. -/
def PathOp.effect (id : Nat) : PathOp → Option PathFile → Option PathFile
  | .removeStale, _ => none
  | .bind, _ => some (.socket id)
  | .unlink, _ => none

def fileAfter (id : Nat) (ops : List PathOp) (file : Option PathFile) : Option PathFile :=
  ops.foldl (fun file op => op.effect id file) file

/-- What the operations remove: whatever lies at the path then. -/
def removedBy (id : Nat) : List PathOp → Option PathFile → List PathFile
  | [], _ => []
  | .bind :: ops, file => removedBy id ops (PathOp.effect id .bind file)
  | op :: ops, file => file.toList ++ removedBy id ops (op.effect id file)

namespace World

/-- One event at the path, with what a start or a stop removed. -/
inductive Step (cfg : Config) : World → List PathFile → World → Prop where
  | start {w : World} {calls : Calls} {s : Life} :
      Sees cfg w calls → exec (Server.init cfg calls) {} = (.ok (), s) →
        Step cfg w (removedBy w.next s.pathOps w.file)
          { w with
            file := fileAfter w.next s.pathOps w.file
            daemons := w.daemons ++ [⟨w.next, s⟩]
            next := w.next + 1 }
  | startFails {w : World} {calls : Calls} {e : Bytes} {s : Life} :
      Sees cfg w calls → exec (Server.init cfg calls) {} = (.error e, s) →
        Step cfg w (removedBy w.next s.destroy.pathOps w.file)
          { w with file := fileAfter w.next s.destroy.pathOps w.file, next := w.next + 1 }
  | shutdown {w : World} {front back : List Daemon} {d : Daemon}
      {reloads : List (Db → Option Mmdb)} {ops : List PathOp} :
      w.daemons = front ++ d :: back →
        (Server.run cfg d.life reloads).destroy.pathOps = d.life.pathOps ++ ops →
          Step cfg w (removedBy d.id ops w.file)
            { w with file := fileAfter d.id ops w.file, daemons := front ++ back }
  | crash {w : World} {front back : List Daemon} {d : Daemon} :
      w.daemons = front ++ d :: back → Step cfg w [] { w with daemons := front ++ back }
  | foreignFile {w : World} : w.file = none → Step cfg w [] { w with file := some .other }
  | foreignFileGone {w : World} : w.file = some .other → Step cfg w [] { w with file := none }
  | foreignBind {w : World} :
      w.file = none →
        Step cfg w []
          { w with
            file := some (.socket w.next)
            foreign := w.next :: w.foreign
            next := w.next + 1 }
  | foreignDies {w : World} {front back : List Nat} {id : Nat} :
      w.foreign = front ++ id :: back → Step cfg w [] { w with foreign := front ++ back }
  | foreignCloses {w : World} {front back : List Nat} {id : Nat} :
      w.foreign = front ++ id :: back → w.file = some (.socket id) →
        Step cfg w [] { w with file := none, foreign := front ++ back }

def Reachable (cfg : Config) (w : World) : Prop :=
  Relation.ReflTransGen (fun w w' => ∃ removed, Step cfg w removed w') {} w

/-! ### Ownership -/

/-- Whoever listens owns the file at the path, so there is at most one. -/
structure Exclusive (w : World) : Prop where
  one : w.daemons.length + w.foreign.length ≤ 1
  daemon : ∀ d ∈ w.daemons, w.file = some (.socket d.id) ∧ d.life.socketCreated = true
  foreign : ∀ id ∈ w.foreign, w.file = some (.socket id)
  named : ∀ id, w.file = some (.socket id) → id < w.next

theorem Exclusive.daemons_nil {w : World} (h : w.Exclusive)
    (dead : ∀ id, w.file = some (.socket id) → ¬ w.Live id) : w.daemons = [] := by
  by_contra running
  obtain ⟨d, mem⟩ := List.exists_mem_of_ne_nil _ running
  exact dead d.id (h.daemon d mem).1 (.inl ⟨d, mem, rfl⟩)

theorem Exclusive.foreign_nil {w : World} (h : w.Exclusive)
    (dead : ∀ id, w.file = some (.socket id) → ¬ w.Live id) : w.foreign = [] := by
  by_contra running
  obtain ⟨id, mem⟩ := List.exists_mem_of_ne_nil _ running
  exact dead id (h.foreign id mem) (.inr mem)

section Start

variable {cfg : Config} {w w' : World} {calls : Calls} {removed : List PathFile}

/-- What a start finds when it goes on to bind: nothing alive at the path. -/
theorem dead_of_cleared (fits : cfg.socketPath.length < sunPathSize) (sees : Sees cfg w calls)
    (cleared : calls.lstat = .absent ∨ calls.lstat = .socket ∧ calls.reached = false) :
    (calls.lstat = .absent → w.file = none) ∧ ∀ id, w.file = some (.socket id) → ¬ w.Live id := by
  constructor
  · intro absent
    rcases sees.lstat with failed | seen
    · rw [absent] at failed
      cases failed
    · rw [absent] at seen
      cases file : w.file with
      | none => rfl
      | some f => cases f <;> simp [file, lstatOf] at seen
  · intro id file live
    have connects := (sees.connect fits id file).mpr live
    have seen : calls.lstat = .failed ∨ calls.lstat = .socket := by
      simpa [file, lstatOf] using sees.lstat
    rcases cleared with absent | ⟨-, unreached⟩
    · rw [absent] at seen
      simp at seen
    · simp [Calls.reached, sees.probe, connects] at unreached

/-- With nobody listening there is nothing a start could take away. -/
theorem Exclusive.nobody (h : w.Exclusive)
    (dead : ∀ id, w.file = some (.socket id) → ¬ w.Live id) (id : Nat) : ¬ w.Live id := by
  rw [Live, h.daemons_nil dead, h.foreign_nil dead]
  simp

/-- A cleared path: what was removed from it, if anything, was a dead socket. -/
theorem removed_of_cleared (h : w.Exclusive) (fits : cfg.socketPath.length < sunPathSize)
    (sees : Sees cfg w calls) (seen : calls.lstat = .socket) (unreached : calls.reached = false) :
    ∃ id, w.file = some (.socket id) ∧ id < w.next ∧ ¬ w.Live id := by
  obtain ⟨-, dead⟩ := dead_of_cleared fits sees (.inr ⟨seen, unreached⟩)
  have socket : lstatOf w.file = .socket := by
    rcases sees.lstat with failed | eq
    · rw [seen] at failed
      cases failed
    · rw [← eq, seen]
  cases file : w.file with
  | none => simp [file, lstatOf] at socket
  | some f =>
      cases f with
      | other => simp [file, lstatOf] at socket
      | socket id => exact ⟨id, rfl, h.named id file, dead id file⟩

/-- A successful start. -/
theorem Exclusive.start (h : w.Exclusive) (fits : cfg.socketPath.length < sunPathSize)
    (sees : Sees cfg w calls) {s : Life} (bound : OnPath (BoundAt calls) s) :
    Exclusive
        { w with
          file := fileAfter w.next s.pathOps w.file
          daemons := w.daemons ++ [⟨w.next, s⟩]
          next := w.next + 1 } ∧
      ∀ f ∈ removedBy w.next s.pathOps w.file, ∃ id, f = .socket id ∧
        ¬ Live { w with
          file := fileAfter w.next s.pathOps w.file
          daemons := w.daemons ++ [⟨w.next, s⟩]
          next := w.next + 1 } id := by
  obtain ⟨created, way⟩ := bound
  have cleared : calls.lstat = .absent ∨ calls.lstat = .socket ∧ calls.reached = false := by
    rcases way with ⟨absent, -⟩ | ⟨seen, unreached, -⟩
    · exact .inl absent
    · exact .inr ⟨seen, unreached⟩
  obtain ⟨-, dead⟩ := dead_of_cleared fits sees cleared
  have none' := h.daemons_nil dead
  have noForeign := h.foreign_nil dead
  have after : fileAfter w.next s.pathOps w.file = some (.socket w.next) := by
    rcases way with ⟨-, ops⟩ | ⟨-, -, ops⟩ <;> rw [ops] <;> rfl
  constructor
  · rw [after, none', noForeign]
    refine ⟨by simp, by simp [created], by simp, ?_⟩
    rintro id ⟨⟩
    exact Nat.lt_succ_self _
  · intro f mem
    rcases way with ⟨-, ops⟩ | ⟨seen, unreached, ops⟩
    · rw [ops] at mem
      cases mem
    · obtain ⟨id, file, old, -⟩ := removed_of_cleared h fits sees seen unreached
      rw [ops, file] at mem
      refine ⟨id, by simpa [removedBy] using mem, ?_⟩
      simp only [Live, none', noForeign, List.nil_append, List.mem_singleton, exists_eq_left,
        List.not_mem_nil, or_false]
      omega

/-- A start that gives up, with what the destructor does. -/
theorem Exclusive.startFails (h : w.Exclusive) (fits : cfg.socketPath.length < sunPathSize)
    (sees : Sees cfg w calls) {s : Life} (gaveUp : OnPath (GaveUp calls) s) :
    Exclusive { w with file := fileAfter w.next s.destroy.pathOps w.file, next := w.next + 1 } ∧
      ∀ f ∈ removedBy w.next s.destroy.pathOps w.file, ∃ id, f = .socket id ∧ ¬ w.Live id := by
  rw [pathOps_destroy]
  have untouched (ops : s.pathOps = []) (kept : s.socketCreated = false) :
      Exclusive { w with
          file := fileAfter w.next (s.pathOps ++ if s.socketCreated then [.unlink] else []) w.file
          next := w.next + 1 } ∧
        ∀ f ∈ removedBy w.next (s.pathOps ++ if s.socketCreated then [.unlink] else []) w.file,
          ∃ id, f = .socket id ∧ ¬ w.Live id := by
    rw [ops, kept]
    refine ⟨⟨h.one, h.daemon, h.foreign, fun id file => ?_⟩, fun f mem => absurd mem List.not_mem_nil⟩
    exact Nat.lt_succ_of_lt (h.named id file)
  have cleared (dead : ∀ id, w.file = some (.socket id) → ¬ w.Live id)
      (gone : fileAfter w.next (s.pathOps ++ if s.socketCreated then [.unlink] else []) w.file = none) :
      Exclusive { w with
          file := fileAfter w.next (s.pathOps ++ if s.socketCreated then [.unlink] else []) w.file
          next := w.next + 1 } := by
    rw [gone]
    refine ⟨h.one, ?_, ?_, fun id file => by cases file⟩
    · rw [h.daemons_nil dead]
      simp
    · rw [h.foreign_nil dead]
      simp
  rcases gaveUp with ⟨ops, kept⟩ | ⟨kept, ⟨absent, ops⟩ | ⟨seen, unreached, ops⟩⟩ |
    ⟨made, ⟨absent, ops⟩ | ⟨seen, unreached, ops⟩⟩
  · exact untouched ops kept
  · exact untouched ops kept
  · obtain ⟨-, dead⟩ := dead_of_cleared fits sees (.inr ⟨seen, unreached⟩)
    obtain ⟨id, file, -, -⟩ := removed_of_cleared h fits sees seen unreached
    refine ⟨cleared dead (by rw [ops, kept]; rfl), fun f mem => ⟨id, ?_, h.nobody dead id⟩⟩
    rw [ops, kept, file] at mem
    simpa [removedBy] using mem
  · obtain ⟨-, dead⟩ := dead_of_cleared fits sees (.inl absent)
    refine ⟨cleared dead (by rw [ops, made]; rfl), fun f mem => ⟨w.next, ?_, h.nobody dead _⟩⟩
    rw [ops, made] at mem
    simpa [removedBy, PathOp.effect] using mem
  · obtain ⟨-, dead⟩ := dead_of_cleared fits sees (.inr ⟨seen, unreached⟩)
    obtain ⟨id, file, -, -⟩ := removed_of_cleared h fits sees seen unreached
    refine ⟨cleared dead (by rw [ops, made]; rfl), fun f mem => ?_⟩
    rw [ops, made, file] at mem
    have which : f = .socket id ∨ f = .socket w.next := by
      simpa [removedBy, PathOp.effect] using mem
    rcases which with rfl | rfl
    · exact ⟨id, rfl, h.nobody dead id⟩
    · exact ⟨w.next, rfl, h.nobody dead _⟩

end Start

/-- Every event keeps the ownership, and what a start or a stop removes has no
listener left. -/
theorem Step.exclusive {cfg : Config} (fits : cfg.socketPath.length < sunPathSize) {w w' : World}
    {removed : List PathFile} (step : Step cfg w removed w') (h : w.Exclusive) :
    w'.Exclusive ∧ ∀ f ∈ removed, ∃ id, f = .socket id ∧ ¬ w'.Live id := by
  cases step with
  | @start calls s sees up =>
      have bound := init_onPath cfg calls {} ⟨rfl, rfl⟩
      rw [up] at bound
      exact h.start fits sees bound
  | @startFails calls e s sees down =>
      have gaveUp := init_onPath cfg calls {} ⟨rfl, rfl⟩
      rw [down] at gaveUp
      exact h.startFails fits sees gaveUp
  | @shutdown front back d reloads ops running stopped =>
      have mem : d ∈ w.daemons := by simp [running]
      obtain ⟨file, created⟩ := h.daemon d mem
      have unlinked : ops = [.unlink] := by
        rw [pathOps_run_destroy cfg reloads created] at stopped
        exact (List.append_cancel_left stopped).symm
      have one := h.one
      rw [running] at one
      simp only [List.length_append, List.length_cons] at one
      obtain rfl : front = [] := List.length_eq_zero_iff.mp (by omega)
      obtain rfl : back = [] := List.length_eq_zero_iff.mp (by omega)
      have alone : w.foreign = [] := List.length_eq_zero_iff.mp (by omega)
      rw [unlinked, file]
      refine ⟨⟨by simp [alone], by simp, by simp [alone], fun id gone => by cases gone⟩, ?_⟩
      intro f removed
      refine ⟨d.id, by simpa [removedBy] using removed, by simp [Live, alone]⟩
  | @crash front back d running =>
      have one := h.one
      rw [running] at one
      simp only [List.length_append, List.length_cons] at one
      refine ⟨⟨?_, ?_, h.foreign, h.named⟩, by simp⟩
      · simp only [List.length_append]
        omega
      · intro d' mem
        refine h.daemon d' ?_
        rw [running]
        rcases List.mem_append.mp mem with before | after
        · exact List.mem_append_left _ before
        · exact List.mem_append_right _ (List.mem_cons_of_mem _ after)
  | foreignFile free =>
      have dead : ∀ id, w.file = some (.socket id) → ¬ w.Live id := by simp [free]
      refine ⟨⟨h.one, ?_, ?_, by simp⟩, by simp⟩
      · simp [h.daemons_nil dead]
      · simp [h.foreign_nil dead]
  | foreignFileGone other =>
      have dead : ∀ id, w.file = some (.socket id) → ¬ w.Live id := by simp [other]
      refine ⟨⟨h.one, ?_, ?_, by simp⟩, by simp⟩
      · simp [h.daemons_nil dead]
      · simp [h.foreign_nil dead]
  | foreignBind free =>
      have dead : ∀ id, w.file = some (.socket id) → ¬ w.Live id := by simp [free]
      have none' := h.daemons_nil dead
      have noForeign := h.foreign_nil dead
      refine ⟨⟨by simp [none', noForeign], by simp [none'], by simp [noForeign], ?_⟩, by simp⟩
      rintro id ⟨⟩
      exact Nat.lt_succ_self _
  | @foreignDies front back id running =>
      have one := h.one
      rw [running] at one
      simp only [List.length_append, List.length_cons] at one
      refine ⟨⟨?_, h.daemon, ?_, h.named⟩, by simp⟩
      · simp only [List.length_append]
        omega
      · intro id' mem
        refine h.foreign id' ?_
        rw [running]
        rcases List.mem_append.mp mem with before | after
        · exact List.mem_append_left _ before
        · exact List.mem_append_right _ (List.mem_cons_of_mem _ after)
  | @foreignCloses front back id running _ =>
      have one := h.one
      rw [running] at one
      simp only [List.length_append, List.length_cons] at one
      have alone : w.daemons = [] := List.length_eq_zero_iff.mp (by omega)
      obtain rfl : front = [] := List.length_eq_zero_iff.mp (by omega)
      obtain rfl : back = [] := List.length_eq_zero_iff.mp (by omega)
      exact ⟨⟨by simp [alone], by simp [alone], by simp, by simp⟩, by simp⟩

theorem Reachable.exclusive {cfg : Config} (fits : cfg.socketPath.length < sunPathSize) {w : World}
    (reach : Reachable cfg w) : w.Exclusive := by
  induction reach with
  | refl => exact ⟨by simp, by simp, by simp, by simp⟩
  | tail _ step ih =>
      obtain ⟨removed, step⟩ := step
      exact (step.exclusive fits ih).1

/-- A path that is free or holds a dead socket passes the checks. -/
theorem checkPath_passes {cfg : Config} (fits : cfg.socketPath.length < sunPathSize) {w : World}
    (dead : ∀ f, w.file = some f → ∃ id, f = .socket id ∧ ¬ w.Live id) {calls : Calls}
    (sees : Sees cfg w calls) (read : calls.lstat ≠ .failed) (s : Life) :
    (exec (checkPath cfg.socketPath calls) s).1 = .ok w.file.isSome := by
  have seen := sees.lstat.resolve_left read
  cases file : w.file with
  | none =>
      rw [file] at seen
      simp only [checkPath, seen, lstatOf]
      rfl
  | some f =>
      obtain ⟨id, rfl, unheard⟩ := dead f file
      have refused : calls.connect = false := by
        simpa using mt (sees.connect fits id file).mp unheard
      rw [file] at seen
      simp only [checkPath, pathHasLiveListener, seen, lstatOf, sees.probe, refused]
      rfl

/-- **One owner at the path, over every history**: at most one daemon runs, the
file at the path is the socket it bound, no start, failed start or shutdown
removes a file with a listener or anything that is no socket, and a path left
free or dead is accepted again. -/
theorem socket_ownership {cfg : Config} (fits : cfg.socketPath.length < sunPathSize) {w : World}
    (reach : Reachable cfg w) :
    w.daemons.length ≤ 1 ∧
      (∀ d ∈ w.daemons, w.file = some (.socket d.id)) ∧
      (∀ removed w', Step cfg w removed w' →
        ∀ f ∈ removed, ∃ id, f = .socket id ∧ ¬ w'.Live id) ∧
      ((∀ f, w.file = some f → ∃ id, f = .socket id ∧ ¬ w.Live id) →
        ∀ calls, Sees cfg w calls → calls.lstat ≠ .failed → ∀ s,
          (exec (checkPath cfg.socketPath calls) s).1 = .ok w.file.isSome) := by
  have h := reach.exclusive fits
  have one := h.one
  refine ⟨by omega, fun d mem => (h.daemon d mem).1, ?_, ?_⟩
  · intro removed w' step
    exact (step.exclusive fits h).2
  · intro dead calls sees read s
    exact checkPath_passes fits dead sees read s

/-- A country database and the default socket. -/
def plainConfig : Config := { Config.default 4 with countryDb := ascii "/var/lib/GeoIP/c.mmdb" }

/-- Every call succeeds, on a free path. -/
def smoothCalls : Calls :=
  { sigprocmask := true, signalfd := true, mmdbOpen := fun _ => some .zeroed, mkdir := .created
    lstat := .absent, probeSocket := true, connect := false, unlinkStale := true, socket := true
    bind := true, chmod := true, listen := true, tcp4 := ⟨true, true, true, true, true⟩
    tcp6 := ⟨true, true, true, true, true⟩, errorText := [] }

/-- A daemon that came up on a free path and crashed, and a second one that
found its dead socket. -/
theorem socket_ownership_restarted :
    ∃ w, Reachable plainConfig w ∧ w.daemons.length = 1 ∧ w.next = 2 ∧
      ∀ d ∈ w.daemons, w.file = some (.socket d.id) := by
  have fits : plainConfig.socketPath.length < sunPathSize := by decide
  obtain ⟨s, up⟩ : ∃ s, exec (Server.init plainConfig smoothCalls) {} = (.ok (), s) := ⟨_, rfl⟩
  obtain ⟨s', up'⟩ : ∃ s, exec (Server.init plainConfig { smoothCalls with lstat := .socket }) {}
      = (.ok (), s) := ⟨_, rfl⟩
  have first : Sees plainConfig {} smoothCalls := ⟨.inr rfl, rfl, fun _ id file => by cases file⟩
  have bound := init_onPath plainConfig smoothCalls {} ⟨rfl, rfl⟩
  rw [up] at bound
  have ops : s.pathOps = [.bind] := by
    obtain ⟨-, ⟨-, ops⟩ | ⟨seen, -⟩⟩ := bound
    · exact ops
    · cases seen
  have crashed : Reachable plainConfig
      { file := some (.socket 0), daemons := [], foreign := [], next := 1 } := by
    have started : Step plainConfig {} _ _ := .start first up
    rw [ops] at started
    have down := @Step.crash plainConfig ⟨some (.socket 0), [⟨0, s⟩], [], 1⟩ [] [] ⟨0, s⟩ rfl
    exact (Relation.ReflTransGen.single ⟨_, started⟩).tail ⟨_, down⟩
  have second : Sees plainConfig { file := some (.socket 0), daemons := [], foreign := [], next := 1 }
      { smoothCalls with lstat := .socket } :=
    ⟨.inr rfl, rfl, fun _ id _ => by simp [Live, smoothCalls]⟩
  have again := crashed.tail ⟨_, .start second up'⟩
  exact ⟨_, again, rfl, rfl, (socket_ownership fits again).2.1⟩

end World

end Nshgeoip
