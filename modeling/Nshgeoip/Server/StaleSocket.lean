import Nshgeoip.Server.SocketPath

/-!
The three calls of `setup_socket` at the socket path: `lstat`, the probe of
`path_has_live_listener`, and `unlink`.

`lstat` and `unlink` are given the whole path; the probe goes through the
`sun_path` of a `sockaddr_un`, which holds 107 bytes of it (`sunPath`), and the
length is checked only after the removal. `Surroundings` is what a start can
find: every path with its entry, and the listeners of all processes.
-/

namespace Nshgeoip

open ByteText Lifetime Program

/-! ### What a start finds -/

structure Surroundings where
  /-- What `lstat` finds at a path. -/
  entry : Bytes → LstatResult
  /-- `connect` to a path reaches the listener of the socket there. -/
  listening : Bytes → Bool
  /-- `unlink` of a path succeeds. -/
  removable : Bytes → Bool
  socket_of_listening : ∀ path, listening path = true → entry path = .socket

/-- The path in an address: what `strncpy` copies into the zeroed `sun_path`. -/
def sunPath (path : Bytes) : Bytes := (cString path).take (sunPathSize - 1)

/-- The outcomes of the calls at the path, with a probe socket at hand; the others
are arbitrary. -/
def Surroundings.calls (w : Surroundings) (cfg : Config) (others : Calls) : Calls :=
  { others with
    lstat := w.entry (cString cfg.socketPath)
    probeSocket := true
    connect := w.listening (sunPath cfg.socketPath)
    unlinkStale := w.removable (cString cfg.socketPath) }

/-- `setup_socket` unlinks the entry at the socket path. -/
def Surroundings.Unlinks (w : Surroundings) (cfg : Config) (others : Calls) : Prop :=
  .removeStale ∈ (exec (setupSocket cfg (w.calls cfg others)) {}).2.pathOps

/-- **What the stale-socket test is for**: what is unlinked is a socket nobody listens
on. So a live listener's socket stays in place, also when the start must fail. -/
def Surroundings.TestsWhatItRemoves (w : Surroundings) (cfg : Config) (others : Calls) : Prop :=
  w.Unlinks cfg others →
    w.entry (cString cfg.socketPath) = .socket ∧ w.listening (cString cfg.socketPath) = false

/-! ### When the entry is removed -/

/-- `ensure_socket_directory` finds or makes the directory. -/
def directoryReady (path : Bytes) (mkdir : MkdirResult) : Bool :=
  match socketDirectory path with
  | none => true
  | some _ =>
      match mkdir with
      | .created => true
      | .failed => false
      | .exists lstat isDirectory writable => lstat && isDirectory && writable

/-- The four conditions of a removal. -/
def Removes (cfg : Config) (calls : Calls) : Prop :=
  directoryReady cfg.socketPath calls.mkdir = true ∧ calls.lstat = .socket ∧
    calls.reached = false ∧ calls.unlinkStale = true

/-- The removal is in the history exactly if `b`. -/
def Recorded (b : Prop) (ops : List PathOp) (_ : Bool) : Prop := .removeStale ∈ ops ↔ b

theorem recorded_of_untouched {b : Prop} (never : ¬ b) (s : Life) (h : OnPath Untouched s) :
    OnPath (Recorded b) s := by
  obtain ⟨nothing, -⟩ := h
  have absent : PathOp.removeStale ∉ s.pathOps := by simp [nothing]
  exact iff_of_false absent never

theorem ensureSocketDirectory_ready (path : Bytes) (calls : Calls) :
    Triple (OnPath Untouched) (ensureSocketDirectory path calls)
      (fun _ s => OnPath Untouched s ∧ directoryReady path calls.mkdir = true)
      (fun s => OnPath Untouched s ∧ directoryReady path calls.mkdir = false) := by
  unfold ensureSocketDirectory directoryReady
  cases socketDirectory path with
  | none => exact .pure fun _ h => ⟨h, rfl⟩
  | some dir =>
      cases calls.mkdir with
      | created => exact .pure fun _ h => ⟨h, rfl⟩
      | failed => exact .throw fun _ h => ⟨h, rfl⟩
      | «exists» lstat isDirectory writable =>
          -- the three checks in the order of the source; each failure ends the function
          refine Triple.bind (Q := fun _ s => OnPath Untouched s ∧ lstat = true) ?_ fun _ => ?_
          · exact .check (fun ok _ h => ⟨h, ok⟩) fun bad _ h => ⟨h, by simp [bad]⟩
          refine Triple.bind (Q := fun _ s => OnPath Untouched s ∧ (lstat && isDirectory) = true)
            ?_ fun _ => ?_
          · exact .check (fun ok _ h => ⟨h.1, by simp [h.2, ok]⟩) fun bad _ h => ⟨h.1, by simp [bad]⟩
          · exact .check (fun ok _ h => ⟨h.1, by simp [h.2, ok]⟩) fun bad _ h => ⟨h.1, by simp [bad]⟩

theorem checkPath_exact (path : Bytes) (calls : Calls) :
    Triple (OnPath Untouched) (checkPath path calls)
      (fun stale s => OnPath Untouched s ∧
        (stale = true ↔ calls.lstat = .socket ∧ calls.reached = false))
      (fun s => OnPath Untouched s ∧ ¬ (calls.lstat = .socket ∧ calls.reached = false)) := by
  unfold checkPath
  cases seen : calls.lstat with
  | absent => exact .pure fun _ h => ⟨h, by simp⟩
  | failed => exact .throw fun _ h => ⟨h, by simp⟩
  | other => exact .throw fun _ h => ⟨h, by simp⟩
  | socket =>
      refine (pathHasLiveListener_onPath calls).bind fun live => ?_
      refine Triple.bind (Q := fun _ s => OnPath Untouched s ∧ calls.reached = false) ?_ fun _ => ?_
      · refine .check ?_ ?_
        · rintro quiet s ⟨h, rfl⟩
          exact ⟨h, by simpa using quiet⟩
        · rintro heard s ⟨h, rfl⟩
          exact ⟨h, by simpa using heard⟩
      · exact .pure fun _ h => ⟨h.1, by simp [h.2]⟩

/-- The rest of `setup_socket` neither removes the entry nor forgets it. -/
theorem bindSocket_recorded (cfg : Config) (calls : Calls) (b : Prop) :
    Triple (OnPath (Recorded b)) (bindSocket cfg calls) (fun _ => OnPath (Recorded b))
      (OnPath (Recorded b)) := by
  have same : ∀ s, OnPath (Recorded b) s → OnPath (Recorded b) s := fun _ h => h
  refine (check_onPath same).bind fun _ => ?_
  refine (openFd_onPath .unix).bind fun fd => ?_
  refine Triple.bind (Q := fun _ => OnPath (Recorded b)) (.modify fun _ h => h) fun _ => ?_
  refine (check_onPath same).bind fun _ => ?_
  refine (check_onPath same).bind fun _ => ?_
  refine Triple.bind (Q := fun _ => OnPath (Recorded b)) ?_ fun _ => ?_
  · refine .modify fun s h => ?_
    have kept : PathOp.removeStale ∈ s.pathOps ++ [.bind] ↔ PathOp.removeStale ∈ s.pathOps := by simp
    exact kept.trans h
  refine (check_onPath same).bind fun _ => ?_
  exact check_onPath same

theorem removeStale_recorded {cfg : Config} {calls : Calls}
    (ready : directoryReady cfg.socketPath calls.mkdir = true)
    (stale : calls.lstat = .socket ∧ calls.reached = false) :
    Triple (OnPath Untouched) (removeStale cfg.socketPath calls)
      (fun _ => OnPath (Recorded (Removes cfg calls))) (OnPath (Recorded (Removes cfg calls))) := by
  refine Triple.bind (Q := fun _ s => OnPath Untouched s ∧ calls.unlinkStale = true) ?_ fun _ => ?_
  · refine .check (fun ok _ h => ⟨h, ok⟩) fun bad s h => ?_
    refine recorded_of_untouched ?_ s h
    rintro ⟨-, -, -, ok⟩
    exact absurd (bad.symm.trans ok) Bool.false_ne_true
  · refine .modify fun s h => ?_
    exact iff_of_true (by simp) ⟨ready, stale.1, stale.2, h.2⟩

/-- The entry is unlinked exactly under the four conditions, whether the start then
succeeds or not. -/
theorem setupSocket_recorded (cfg : Config) (calls : Calls) :
    Triple (OnPath Untouched) (setupSocket cfg calls)
      (fun _ => OnPath (Recorded (Removes cfg calls))) (OnPath (Recorded (Removes cfg calls))) := by
  refine Triple.bind ((ensureSocketDirectory_ready cfg.socketPath calls).conseq (fun _ h => h)
    (fun _ _ h => h) ?_) fun _ => ?_
  · rintro s ⟨h, unready⟩
    refine recorded_of_untouched ?_ s h
    rintro ⟨ready, -⟩
    exact absurd (unready.symm.trans ready) Bool.false_ne_true
  refine .fact fun ready => ?_
  refine Triple.bind ((checkPath_exact cfg.socketPath calls).conseq (fun _ h => h)
    (fun _ _ h => h) ?_) fun stale => .fact fun exactly => ?_
  · rintro s ⟨h, inTheWay⟩
    refine recorded_of_untouched ?_ s h
    rintro ⟨-, socket, unheard, -⟩
    exact inTheWay ⟨socket, unheard⟩
  cases stale with
  | true =>
      refine (removeStale_recorded ready (exactly.mp rfl)).bind fun _ => ?_
      exact bindSocket_recorded cfg calls _
  | false =>
      refine (bindSocket_recorded cfg calls _).conseq (recorded_of_untouched ?_) (fun _ _ h => h)
        fun _ h => h
      rintro ⟨-, socket, unheard, -⟩
      exact absurd (exactly.mpr ⟨socket, unheard⟩) Bool.false_ne_true

theorem Surroundings.unlinks_iff (w : Surroundings) (cfg : Config) (others : Calls) :
    w.Unlinks cfg others ↔
      directoryReady cfg.socketPath others.mkdir = true ∧
        w.entry (cString cfg.socketPath) = .socket ∧
        w.listening (sunPath cfg.socketPath) = false ∧
        w.removable (cString cfg.socketPath) = true := by
  have recorded := setupSocket_recorded cfg (w.calls cfg others) {} ⟨rfl, rfl⟩
  have removal : w.Unlinks cfg others ↔ Removes cfg (w.calls cfg others) := by
    unfold Surroundings.Unlinks
    split at recorded <;> rename_i eq <;> rw [eq] <;> exact recorded
  rw [removal]
  simp [Removes, Surroundings.calls, Calls.reached]

/-! ### When the test is about the entry -/

theorem sunPath_of_fits {path : Bytes} (fits : (cString path).length < sunPathSize) :
    sunPath path = cString path := by
  refine List.take_of_length_le ?_
  simp only [sunPathSize] at fits ⊢
  omega

/-- **Exactly when the stale-socket test is about the file it removes**: the path fits
into an address; or nobody listens on the socket at the path; or somebody does on
the one at its first 107 bytes; or the start does not come to the removal, or may
not remove the entry. -/
theorem Surroundings.testsWhatItRemoves_iff (w : Surroundings) (cfg : Config) (others : Calls) :
    w.TestsWhatItRemoves cfg others ↔
      (cString cfg.socketPath).length < sunPathSize ∨
        w.listening (cString cfg.socketPath) = false ∨
        w.listening (sunPath cfg.socketPath) = true ∨
        directoryReady cfg.socketPath others.mkdir = false ∨
        w.removable (cString cfg.socketPath) = false := by
  unfold Surroundings.TestsWhatItRemoves
  rw [w.unlinks_iff cfg others]
  constructor
  · intro sound
    by_contra failing
    simp only [not_or, Bool.not_eq_false, Bool.not_eq_true] at failing
    obtain ⟨-, live, unheard, ready, removable⟩ := failing
    have entry := w.socket_of_listening _ live
    have dead := (sound ⟨ready, entry, unheard, removable⟩).2
    exact absurd (dead.symm.trans live) Bool.false_ne_true
  · rintro condition ⟨ready, entry, unheard, removable⟩
    refine ⟨entry, ?_⟩
    rcases condition with fits | dead | heard | unready | kept
    · rw [← sunPath_of_fits fits]
      exact unheard
    · exact dead
    · exact absurd (unheard.symm.trans heard) Bool.false_ne_true
    · exact absurd (unready.symm.trans ready) Bool.false_ne_true
    · exact absurd (kept.symm.trans removable) Bool.false_ne_true

/-! ### A path that does not fit -/

/-- One live listener, at one path. -/
def oneListener (path : Bytes) : Surroundings where
  entry q := if q = path then .socket else .absent
  listening q := q == path
  removable _ := true
  socket_of_listening _ live := if_pos (beq_iff_eq.mp live)

/-- A start on a host where every call succeeds. -/
def smoothCalls : Calls where
  sigprocmask := true
  signalfd := true
  mmdbOpen _ := none
  mkdir := .created
  lstat := .absent
  probeSocket := true
  connect := false
  unlinkStale := true
  socket := true
  bind := true
  chmod := true
  listen := true
  tcp4 := ⟨true, true, true, true, true⟩
  tcp6 := ⟨true, true, true, true, true⟩
  errorText := []

/-- The paths for which the test is right whatever the start finds are the ones that
fit into an address. -/
theorem testsWhatItRemoves_always_iff (cfg : Config) :
    (∀ (w : Surroundings) (others : Calls), w.TestsWhatItRemoves cfg others) ↔
      (cString cfg.socketPath).length < sunPathSize := by
  constructor
  · intro always
    by_contra long
    have here := always (oneListener (cString cfg.socketPath)) smoothCalls
    have cutShort : sunPath cfg.socketPath ≠ cString cfg.socketPath := by
      intro same
      have length := congrArg List.length same
      rw [sunPath, List.length_take] at length
      simp only [sunPathSize] at length long
      omega
    rw [Surroundings.testsWhatItRemoves_iff] at here
    simp only [long, oneListener, smoothCalls, beq_self_eq_true, beq_eq_false_iff_ne.mpr cutShort,
      Bool.true_eq_false, Bool.false_eq_true, false_or, or_false, directoryReady] at here
    split at here <;> exact absurd here.symm Bool.false_ne_true
  · intro fits w others
    exact (w.testsWhatItRemoves_iff cfg others).mpr (.inl fits)

/-- A path of 120 bytes. -/
def longPathConfig : Config :=
  { Config.default 4 with socketPath := ascii "/run/nshgeoip/" ++ List.replicate 106 97 }

/-- The listener at the path is live, the start fails because the path is too long, and
the listener's socket is gone. -/
theorem longPath_counterexample :
    (oneListener longPathConfig.socketPath).listening (cString longPathConfig.socketPath) = true ∧
      (oneListener longPathConfig.socketPath).Unlinks longPathConfig smoothCalls ∧
      (exec (setupSocket longPathConfig
          ((oneListener longPathConfig.socketPath).calls longPathConfig smoothCalls)) {}).1 =
        .error (ascii "socket path too long: " ++ longPathConfig.socketPath) := by
  unfold Surroundings.Unlinks
  decide +kernel

end Nshgeoip
