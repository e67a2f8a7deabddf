import Nshgeoip.Server.Handler
import Nshgeoip.Server.Lifetime

/-!
Handlers beside each other, database reloads and the clock.

Other handlers, a reload and time go on between any two sections of a handler.
`answers_concurrent` says what is left of the undivided handler in every interleaving: an
answer that takes at most one section is that of `Server.handleConnection` at a moment
between the handler's own increments, and `/metrics` and the JSON of `/health` show each
database and each counter as it was at such a moment. The open databases at the start are
the configured ones, as they are from the end of `init` on (`DbRun.Staged.ready`).

Increments and loads of one counter are totally ordered. The model orders those of different
counters as well, which the relaxed operations of the source do not promise; no statement
here compares two counters.
-/

namespace Nshgeoip

open ByteText Machine Atomic

/-! ### The process -/

/-- What else changes the state: `reload_databases`, one database at a time, and time. -/
inductive Outside where
  | reload (d : Db) (opened : Option Mmdb)
  | clock (now uptimeNanoseconds : Int64)

/-- Only a configured database is reloaded. -/
def Server.outside (cfg : DbPaths) (srv : Server) : Outside → Server
  | .reload d opened =>
      if cfg.path d = [] then srv else { srv with db := (srv.db.reloadDb d opened).db }
  | .clock now uptimeNanoseconds =>
      { srv with host := { srv.host with now := now, uptimeNanoseconds := uptimeNanoseconds } }

/-- Any number of connections, none of them read yet. -/
def Server.accepted {ι : Type} (srv : Server) (uptimeFirst : Bool) (conns : ι → Connection) :
    System Server (List Action) ι where
  shared := srv
  threads i :=
    Handler.handleConnection uptimeFirst srv.host.mmdbLibVersion srv.maxRequestBytes (conns i)

/-! ### The handlers together -/

namespace Handler

/-- A section changes nothing but counters. -/
def Counts (effect : Server → Server) : Prop :=
  effect = id ∨ ∃ a : Action, effect = fun srv => { srv with metrics := a.apply srv.metrics }

theorem all_read {α : Type} {value : Server → α} {rest : α → Handler}
    (h : ∀ a, (rest a).All Counts) : Thread.All Counts (read value rest : Handler) :=
  ⟨.inl rfl, fun srv => h (value srv)⟩

theorem all_count {a : Action} {rest : Handler} (h : rest.All Counts) : (count a rest).All Counts :=
  ⟨.inr ⟨a, rfl⟩, fun _ => h⟩

theorem all_collectDbInfos {rest : List MetricsDbInfo → Handler}
    (h : ∀ infos, (rest infos).All Counts) : (collectDbInfos rest).All Counts := by
  have one : ∀ {name d} {rest : MetricsDbInfo → Handler}, (∀ info, (rest info).All Counts) →
      (collectDbInfo name d rest).All Counts :=
    fun h => all_read fun _ => all_read fun _ => h _
  exact one fun _ => one fun _ => one fun _ => h _

theorem all_arguments {uptimeFirst : Bool} {rest : List MetricsDbInfo → Binary64 → Handler}
    (h : ∀ infos uptime, (rest infos uptime).All Counts) :
    (arguments uptimeFirst rest).All Counts := by
  unfold arguments
  split_ifs
  · exact all_read fun _ => all_collectDbInfos fun _ => h _ _
  · exact all_collectDbInfos fun _ => all_read fun _ => h _ _

theorem all_loadMetrics {rest : Metrics → Handler} (h : ∀ m, (rest m).All Counts) :
    (loadMetrics rest).All Counts := by
  have one : ∀ {k} {rest : UInt64 → Handler}, (∀ n, (rest n).All Counts) →
      (load k rest).All Counts := fun h => all_read h
  unfold loadMetrics
  iterate 11 refine one fun _ => ?_
  exact h _

theorem all_lookupReply {req : HttpRequest} {fmt : ResponseFormat} {rest : Reply → Handler}
    (h : ∀ reply, (rest reply).All Counts) : (lookupReply req fmt rest).All Counts := by
  unfold lookupReply
  split
  · exact h _
  · split
    · exact h _
    · split
      · exact h _
      · refine all_read fun answer => ?_
        dsimp only
        split
        · exact h _
        · split
          · exact all_count (h _)
          · exact all_count (h _)

theorem all_reply {uptimeFirst : Bool} {libVersion : Bytes} {req : HttpRequest}
    {rest : Reply → Handler} (h : ∀ reply, (rest reply).All Counts) :
    (reply uptimeFirst libVersion req rest).All Counts := by
  unfold reply
  dsimp only
  split_ifs
  · exact h _
  · exact all_lookupReply h
  · exact all_arguments fun _ _ => h _
  · exact h _
  · exact all_arguments fun _ _ => all_loadMetrics fun _ => h _
  · exact h _

theorem all_handleConnection (uptimeFirst : Bool) (libVersion : Bytes) (maxRequestBytes : Nat)
    (conn : Connection) :
    (handleConnection uptimeFirst libVersion maxRequestBytes conn).All Counts := by
  have responds : ∀ {a sends}, (respond a sends).All Counts := all_count trivial
  unfold handleConnection
  split
  · exact all_count responds
  · exact trivial
  · exact trivial
  · exact trivial
  · split
    · exact all_count responds
    · exact all_count (all_reply fun _ => responds)

end Handler

/-- What does not change while the daemon serves. -/
structure Server.Same (cfg : DbPaths) (srv srv' : Server) : Prop where
  maxRequestBytes : srv'.maxRequestBytes = srv.maxRequestBytes
  ready : DbRun.Ready cfg srv.db → DbRun.Ready cfg srv'.db

namespace Server.Same

variable {cfg : DbPaths}

theorem refl (srv : Server) : Same cfg srv srv := ⟨rfl, id⟩

theorem trans {s t u : Server} (first : Same cfg s t) (second : Same cfg t u) : Same cfg s u :=
  ⟨second.maxRequestBytes.trans first.maxRequestBytes, second.ready ∘ first.ready⟩

theorem counts {effect : Server → Server} (h : Handler.Counts effect) (srv : Server) :
    Same cfg srv (effect srv) := by
  rcases h with rfl | ⟨a, rfl⟩
  · exact refl srv
  · exact ⟨rfl, id⟩

/-- A reload opens no slot that is not open. -/
theorem outside (srv : Server) (e : Outside) : Same cfg srv (srv.outside cfg e) := by
  cases e with
  | clock now uptimeNanoseconds => exact ⟨rfl, id⟩
  | reload d opened =>
      unfold Server.outside
      dsimp only
      split_ifs with unset
      · exact refl srv
      · refine ⟨rfl, fun ready => ?_⟩
        rw [GeoIpDatabases.reloadDb_eq]
        exact ready.openDb (DbPaths.mem_configured.mpr unset) opened

end Server.Same

section Run

variable {ι : Type} [DecidableEq ι] {cfg : DbPaths} {srv : Server} {uptimeFirst : Bool}
  {conns : ι → Connection}

/-- The process after these events. -/
def Server.after (srv : Server) (cfg : DbPaths) (uptimeFirst : Bool) (conns : ι → Connection)
    (m : List (Event ι Outside)) : System Server (List Action) ι :=
  Machine.run (next (Server.outside cfg)) (srv.accepted uptimeFirst conns) m

theorem Server.same_after (m : List (Event ι Outside)) :
    Same cfg srv (srv.after cfg uptimeFirst conns m).shared :=
  moments_related (fun m => (srv.after cfg uptimeFirst conns m).shared) Same.refl Same.trans
    (fun m e _ => event_related (fun i => Handler.all_handleConnection _ _ _ (conns i)) Same.refl
      (fun _ => Same.counts) Same.outside m e)
    List.nil_prefix (List.prefix_refl m)

theorem Server.steady_after (ready : DbRun.Ready cfg srv.db) :
    Handler.Steady fun m => (srv.after cfg uptimeFirst conns m).shared := by
  intro m m' d
  rw [Bool.eq_iff_iff, (same_after m).ready ready d, (same_after m').ready ready d]

/-- The counter never stands at its maximum. -/
def Unwrapped (state : List (Event ι Outside) → Server) (events : List (Event ι Outside))
    (k : Counter) : Prop :=
  ∀ m, m <+: events → ((state m).metrics.get k).toNat + 1 < 2 ^ 64

/-- An event moves a counter by one at most. -/
theorem Server.get_event (srv : Server) (cfg : DbPaths) (uptimeFirst : Bool)
    (conns : ι → Connection) (k : Counter) (m : List (Event ι Outside)) (e : Event ι Outside) :
    ((srv.after cfg uptimeFirst conns (m ++ [e])).shared.metrics.get k).toNat =
        ((srv.after cfg uptimeFirst conns m).shared.metrics.get k).toNat ∨
      ((srv.after cfg uptimeFirst conns (m ++ [e])).shared.metrics.get k).toNat =
        (((srv.after cfg uptimeFirst conns m).shared.metrics.get k).toNat + 1) % 2 ^ 64 := by
  refine event_related (R := fun s t : Server => (t.metrics.get k).toNat = (s.metrics.get k).toNat ∨
      (t.metrics.get k).toNat = ((s.metrics.get k).toNat + 1) % 2 ^ 64)
    (fun i => Handler.all_handleConnection _ _ _ (conns i)) (fun s => .inl rfl) ?_ ?_ m e
  · rintro effect (rfl | ⟨a, rfl⟩) s
    · exact .inl rfl
    · have moved := get_apply a s.metrics k
      unfold weight at moved
      split_ifs at moved
      · exact .inr moved
      · rw [Nat.add_zero, Nat.mod_eq_of_lt (UInt64.toNat_lt _)] at moved
        exact .inl moved
  · intro s e
    cases e with
    | clock now uptimeNanoseconds => exact .inl rfl
    | reload d opened =>
        unfold Server.outside
        dsimp only
        split_ifs <;> exact .inl rfl

/-- Counters that do not wrap never go back. -/
theorem Unwrapped.mono {events m later : List (Event ι Outside)} {k : Counter}
    (h : Unwrapped (fun m => (srv.after cfg uptimeFirst conns m).shared) events k)
    (before : m <+: later) (within : later <+: events) :
    (srv.after cfg uptimeFirst conns m).shared.metrics.get k ≤
      (srv.after cfg uptimeFirst conns later).shared.metrics.get k := by
  refine moments_related (R := fun s t => s.metrics.get k ≤ t.metrics.get k)
    (fun m => (srv.after cfg uptimeFirst conns m).shared) (fun s => UInt64.le_refl _)
    UInt64.le_trans (fun m e here => ?_) before within
  have below := h m ((List.prefix_append m [e]).trans here)
  rw [UInt64.le_iff_toNat_le]
  rcases srv.get_event cfg uptimeFirst conns k m e with stays | moves
  · exact stays.ge
  · rw [moves, Nat.mod_eq_of_lt below]
    exact Nat.le_succ _

/-- The moment lies behind the turn of `i` at `first` and not behind `last`. -/
structure Within (i : ι) (first last m : List (Event ι Outside)) : Prop where
  after : first ++ [.turn i] <+: m
  before : m <+: last

/-- How an answer came about from what its handler saw at these moments. -/
inductive Server.Answered (srv : Server) (state : List (Event ι Outside) → Server)
    (within : List (Event ι Outside) → Prop) (conn : Connection) : Answer → Prop where
  | atomically {m : List (Event ι Outside)} {a : Answer} :
      within m → (state m).answer conn.events = some a → Answered srv state within conn a
  | health {raw : Bytes} {req : HttpRequest} {m : Db → List (Event ι Outside)}
      {u : List (Event ι Outside)} :
      readHttpHead srv.maxRequestBytes conn.events [] = (.ok, raw) →
        parseHttpRequest raw = some req → Routed req (ascii "/health") →
        acceptWantsJson req.accept = true → (∀ d, within (m d)) → within u →
          Answered srv state within conn
            ⟨req.path, ([], Handler.healthJson srv.host.mmdbLibVersion (dbInfosAt state m)
              (state u).uptimeSeconds), !isHead req⟩
  | metrics {raw : Bytes} {req : HttpRequest} {m : Db → List (Event ι Outside)}
      {u : List (Event ι Outside)} {shown : Metrics} :
      readHttpHead srv.maxRequestBytes conn.events [] = (.ok, raw) →
        parseHttpRequest raw = some req → Routed req (ascii "/metrics") → (∀ d, within (m d)) →
        within u → (∀ k, ∃ m, within m ∧ shown.get k = (state m).metrics.get k) →
          Answered srv state within conn
            ⟨req.path, ([], Handler.metricsPage srv.host.mmdbLibVersion shown (dbInfosAt state m)
              (state u).uptimeSeconds), !isHead req⟩

/-- What a handler sees is seen within. -/
theorem Server.answered_of_settled {conn : Connection} {a : Answer}
    {seen : List (List (Event ι Outside))}
    {within : List (Event ι Outside) → Prop} {last : List (Event ι Outside)}
    (settled : Handler.Settled (fun m => (srv.after cfg uptimeFirst conns m).shared)
      srv.host.mmdbLibVersion srv.maxRequestBytes conn.events seen a)
    (inside : ∀ m ∈ seen, within m) (ended : within last) :
    srv.Answered (fun m => (srv.after cfg uptimeFirst conns m).shared) within conn a := by
  cases settled with
  | fixed always => exact .atomically ended (always _ (same_after last).maxRequestBytes)
  | @parsed raw req reply read parsed explained =>
      have atomically : ∀ m, (srv.after cfg uptimeFirst conns m).shared.answer conn.events =
          some ⟨req.path, (srv.after cfg uptimeFirst conns m).shared.reply req, !isHead req⟩ := by
        intro m
        refine Server.answer_of_parsed ?_ parsed
        rw [(same_after m).maxRequestBytes]
        exact read
      cases explained with
      | fixed always =>
          have here := atomically last
          rw [always] at here
          exact .atomically ended here
      | looked mem => exact .atomically (inside _ mem) (atomically _)
      | health routed json infos uptime =>
          exact .health read parsed routed json (fun d => inside _ (infos d)) (inside _ uptime)
      | metrics routed infos uptime counters =>
          refine .metrics read parsed routed (fun d => inside _ (infos d)) (inside _ uptime)
            fun k => ?_
          obtain ⟨m, mem, value⟩ := counters k
          exact ⟨m, inside m mem, value⟩

/-- The life of a handler from its `record_request` at `first` to its `record_response` at
`last`, and the answer in between. -/
structure Server.Handled (srv : Server) (cfg : DbPaths) (uptimeFirst : Bool)
    (conns : ι → Connection) (events : List (Event ι Outside)) (i : ι)
    (first last : List (Event ι Outside)) (a : Answer) : Prop where
  begun : first ++ [.turn i] <+: last
  ended : last ++ [.turn i] <+: events
  requested : (srv.after cfg uptimeFirst conns (first ++ [.turn i])).shared.metrics =
    (srv.after cfg uptimeFirst conns first).shared.metrics.recordRequest a.path
  responded : (srv.after cfg uptimeFirst conns (last ++ [.turn i])).shared.metrics =
    (srv.after cfg uptimeFirst conns last).shared.metrics.recordResponse a.reply.2.status
  answered : srv.Answered (fun m => (srv.after cfg uptimeFirst conns m).shared)
    (Within i first last) (conns i) a
  bounded : ∀ k, Unwrapped (fun m => (srv.after cfg uptimeFirst conns m).shared) events k →
    ∀ m, Within i first last m →
      (srv.after cfg uptimeFirst conns (first ++ [.turn i])).shared.metrics.get k ≤
          (srv.after cfg uptimeFirst conns m).shared.metrics.get k ∧
        (srv.after cfg uptimeFirst conns m).shared.metrics.get k ≤
          (srv.after cfg uptimeFirst conns last).shared.metrics.get k

/-- **Answers under concurrency.** In every interleaving of any number of handlers with
reloads and the clock, a handler that has finished closed its connection at once, as it does
in every state, or counted its request, answered and counted the response. Its answer is
that of the undivided handler at a moment between these two increments; for `/metrics` and
the JSON of `/health` every database, with its flag, every counter and the uptime are shown
as they were at such a moment. As long as a counter does not wrap, what is shown of it
counts the handler's own request and is no more than its value when the answer is given. -/
theorem answers_concurrent (cfg : DbPaths) (srv : Server) (ready : DbRun.Ready cfg srv.db)
    (uptimeFirst : Bool) (conns : ι → Connection) (events : List (Event ι Outside)) (i : ι)
    (actions : List Action)
    (finished : (srv.after cfg uptimeFirst conns events).threads i = .done actions) :
    (actions = [.close] ∧
        ∀ m, (srv.after cfg uptimeFirst conns m).shared.handleConnection (conns i) = [.close]) ∨
      ∃ first last a, actions = a.actions (conns i).sends ∧
        srv.Handled cfg uptimeFirst conns events i first last a := by
  obtain ⟨ms, turns, follows⟩ :=
    follows_run (Server.outside cfg) (srv.accepted uptimeFirst conns) i events
  have met := finished ▸ follows
  rcases Handler.handleConnection_done (srv.steady_after ready) met with
    ⟨closed, silent⟩ | ⟨first, seen, last, a, rfl, done, requested, responded, settled⟩
  · refine .inl ⟨closed, fun m => ?_⟩
    rw [handleConnection_eq, silent _ (Server.same_after m).maxRequestBytes]
  · obtain ⟨behind, later⟩ := List.pairwise_cons.mp turns.ordered
    have ended := turns.taken last (by simp)
    have begun := behind last (by simp)
    have inside : ∀ m ∈ seen, Within i first last m := by
      intro m mem
      have before := (List.pairwise_append.mp later).2.2 m mem last List.mem_cons_self
      exact ⟨behind m (List.mem_append_left _ mem), (List.prefix_append _ _).trans before⟩
    have lastWithin : last <+: events := (List.prefix_append _ _).trans ended
    exact .inr ⟨first, last, a, done,
      { begun := begun
        ended := ended
        requested := requested
        responded := responded
        answered := Server.answered_of_settled settled inside ⟨begun, List.prefix_refl _⟩
        bounded := fun k unwrapped m within =>
          ⟨unwrapped.mono within.after (within.before.trans lastWithin),
            unwrapped.mono within.before lastWithin⟩ }⟩

/-- Two lookups with a reload between them. -/
def aroundReload : List (Event Bool Outside) :=
  [.turn true, .turn false, .turn true, .act (.reload .city (some (DbRun.emptyDatabase 2))),
    .turn false, .turn false, .turn true, .turn true, .turn false]

/-- The handler of the sample lookup, with what it does in each case. -/
theorem handleConnection_sample :
    ∃ (failed missing : List Action) (found : GeoIpResult → List Action), missing ≠ [.close] ∧
    Handler.handleConnection false sampleServer.host.mmdbLibVersion sampleServer.maxRequestBytes
        sampleConnection =
      Handler.count (.recordRequest (ascii "/lookup"))
        (Atomic.read (fun srv => srv.db.lookup (.inet [1, 2, 3, 4])) fun answer =>
          if answer.2 then Handler.count (.recordResponse 500) (.done failed)
          else if answer.1.found = false then
            Handler.count .lookupNotFound (Handler.count (.recordResponse 404) (.done missing))
          else Handler.count .lookupFound
            (Handler.count (.recordResponse 200) (.done (found answer.1)))) := by
  have read : readHttpHead sampleServer.maxRequestBytes sampleConnection.events [] =
      (.ok, sampleRaw) := by decide +kernel
  have parsed : parseHttpRequest sampleRaw = some sampleRequest := by decide +kernel
  have param : findQueryParam sampleRequest (ascii "ip") = some (ascii "1.2.3.4") := by
    decide +kernel
  have addr : parseIpAddress (ascii "1.2.3.4") = some (.inet [1, 2, 3, 4]) := by decide +kernel
  have path : sampleRequest.path = ascii "/lookup" := rfl
  let fmt := negotiateFormat sampleRequest.accept
  let answer (reply : Reply) : List Action :=
    Answer.actions ⟨sampleRequest.path, reply, !isHead sampleRequest⟩ sampleConnection.sends
  refine ⟨answer ([], makeErrorResponse 500 (ascii "internal database error") fmt),
    answer ([.lookupNotFound], makeErrorResponse 404 (ascii "no geoip information found") fmt),
    fun result => answer ([.lookupFound], buildSuccessResponse (ascii "1.2.3.4") result fmt), ?_, ?_⟩
  · simp [answer, Answer.actions]
  · rw [Handler.handleConnection, read]
    dsimp only
    rw [parsed]
    dsimp only
    rw [Handler.reply, if_neg (by decide), if_pos path, Handler.lookupReply, param]
    dsimp only
    rw [if_neg (by decide), addr]
    rfl

theorem answers_concurrent_aroundReload :
    ∃ actions first last a,
      (sampleServer.after DbRun.cityOnly false (fun _ => sampleConnection) aroundReload).threads
          false = .done actions ∧
        actions = a.actions sampleConnection.sends ∧
        sampleServer.Handled DbRun.cityOnly false (fun _ => sampleConnection) aroundReload false
          first last a := by
  obtain ⟨failed, missing, found, answered, thread⟩ := handleConnection_sample
  have finished : (sampleServer.after DbRun.cityOnly false (fun _ => sampleConnection)
      aroundReload).threads false = .done missing := by
    rw [Server.after, Server.accepted, thread]
    rfl
  have ready : DbRun.Ready DbRun.cityOnly sampleServer.db := by
    intro d
    cases d <;> decide
  rcases answers_concurrent _ _ ready _ _ _ _ _ finished with
    ⟨closed, -⟩ | ⟨first, last, a, done, handled⟩
  · exact absurd closed answered
  · exact ⟨missing, first, last, a, finished, done, handled⟩

end Run

end Nshgeoip
