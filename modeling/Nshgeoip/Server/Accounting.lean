import Nshgeoip.Lib.Interleave
import Nshgeoip.Server.Lookup

/-!
What the counters add up to.

Any number of handlers run at once and interleave their increments. Each of
them bills one request, at most one lookup outcome and one response, in this
order and always in one of a few combinations (`Billed`), so every relation
between the counters that a dashboard relies on is a sum of per-connection
facts. `counters_account` states them for every reachable state.
-/

namespace Nshgeoip

open ByteText Interleave

/-! ### Counters and the actions that move them -/

inductive Counter where
  | lookupRequests
  | healthRequests
  | metricsRequests
  | otherRequests
  | responses200
  | responses400
  | responses404
  | responses405
  | responses500
  | lookupFound
  | lookupNotFound
  deriving DecidableEq

def Metrics.get (m : Metrics) : Counter → UInt64
  | .lookupRequests => m.lookupRequestsTotal
  | .healthRequests => m.healthRequestsTotal
  | .metricsRequests => m.metricsRequestsTotal
  | .otherRequests => m.otherRequestsTotal
  | .responses200 => m.responses200
  | .responses400 => m.responses400
  | .responses404 => m.responses404
  | .responses405 => m.responses405
  | .responses500 => m.responses500
  | .lookupFound => m.lookupFoundTotal
  | .lookupNotFound => m.lookupNotFoundTotal

/-- The effect of an action on the counters. -/
def Action.apply (a : Action) (m : Metrics) : Metrics :=
  match a with
  | .recordRequest path => m.recordRequest path
  | .lookupFound => { m with lookupFoundTotal := m.lookupFoundTotal + 1 }
  | .lookupNotFound => { m with lookupNotFoundTotal := m.lookupNotFoundTotal + 1 }
  | .recordResponse status => m.recordResponse status
  | .write _ _ => m
  | .close => m

/-- The bucket of a request path. -/
def requestCounter (path : Bytes) : Counter :=
  if path = ascii "/lookup" then .lookupRequests
  else if path = ascii "/health" then .healthRequests
  else if path = ascii "/metrics" then .metricsRequests
  else .otherRequests

/-- The bucket of a status, if it has one. -/
def responseCounter (status : Nat) : Option Counter :=
  match status with
  | 200 => some .responses200
  | 400 => some .responses400
  | 404 => some .responses404
  | 405 => some .responses405
  | 500 => some .responses500
  | _ => none

def Action.counter : Action → Option Counter
  | .recordRequest path => some (requestCounter path)
  | .lookupFound => some .lookupFound
  | .lookupNotFound => some .lookupNotFound
  | .recordResponse status => responseCounter status
  | .write _ _ => none
  | .close => none

/-- What an action weighs for a counter. -/
def weight (k : Counter) (a : Action) : Nat := if a.counter = some k then 1 else 0

theorem get_recordRequest (m : Metrics) (path : Bytes) (k : Counter) :
    (m.recordRequest path).get k = m.get k + if requestCounter path = k then 1 else 0 := by
  unfold Metrics.recordRequest requestCounter
  split_ifs <;> first | (subst_vars; rfl) | (cases k <;> simp_all [Metrics.get])

theorem get_recordResponse (m : Metrics) (status : Nat) (k : Counter) :
    (m.recordResponse status).get k =
      m.get k + if responseCounter status = some k then 1 else 0 := by
  unfold Metrics.recordResponse responseCounter
  split <;> cases k <;> simp [Metrics.get]

/-- **Each action moves its counter by one and no other.** -/
theorem get_apply (a : Action) (m : Metrics) (k : Counter) :
    ((a.apply m).get k).toNat = ((m.get k).toNat + weight k a) % 2 ^ 64 := by
  have moved : (a.apply m).get k = m.get k + if a.counter = some k then 1 else 0 := by
    cases a with
    | recordRequest path =>
        simpa [Action.apply, Action.counter] using get_recordRequest m path k
    | recordResponse status => exact get_recordResponse m status k
    | lookupFound => cases k <;> simp [Action.apply, Action.counter, Metrics.get]
    | lookupNotFound => cases k <;> simp [Action.apply, Action.counter, Metrics.get]
    | write sent complete => simp [Action.apply, Action.counter]
    | close => simp [Action.apply, Action.counter]
  rw [moved, UInt64.toNat_add, weight]
  split <;> rfl

/-! ### What one connection bills -/

/-- The combinations a handler bills: the path of the request, the lookup
outcome on the way, and the status of the response. -/
inductive Billed : Bytes → List Action → Nat → Prop where
  | badRequest (path : Bytes) : Billed path [] 400
  | notAllowed (path : Bytes) : Billed path [] 405
  | databaseError : Billed (ascii "/lookup") [] 500
  | lookupNotFound : Billed (ascii "/lookup") [.lookupNotFound] 404
  | lookupFound : Billed (ascii "/lookup") [.lookupFound] 200
  | health : Billed (ascii "/health") [] 200
  | metrics : Billed (ascii "/metrics") [] 200
  | unknown {path : Bytes} : requestCounter path = .otherRequests → Billed path [] 404

theorem Replies.billed {srv : Server} {req : HttpRequest} {reply : Reply}
    (h : Replies srv req reply) : Billed req.path reply.1 reply.2.status := by
  cases h with
  | notAllowed => exact .notAllowed _
  | missingIp => exact .badRequest _
  | invalidIp => exact .badRequest _
  | databaseError routed =>
      rw [routed.2]
      exact .databaseError
  | lookupNotFound routed =>
      rw [routed.2]
      exact .lookupNotFound
  | lookupFound routed =>
      rw [routed.2]
      exact .lookupFound
  | health routed =>
      rw [routed.2]
      exact .health
  | metrics routed =>
      rw [routed.2]
      exact .metrics
  | unknown _ notLookup notHealth notMetrics =>
      exact .unknown (by rw [requestCounter, if_neg notLookup, if_neg notHealth, if_neg notMetrics])

theorem Server.answer_billed {srv : Server} {events : List RecvEvent} {a : Answer}
    (h : srv.answer events = some a) : Billed a.path a.reply.1 a.reply.2.status := by
  rcases Server.answer_cases h with rfl | rfl | ⟨raw, req, -, -, replies, rfl⟩
  · exact .badRequest _
  · exact .badRequest _
  · exact replies.billed

/-- Every status billed has a bucket. -/
theorem Billed.bucket {path : Bytes} {counted : List Action} {status : Nat}
    (h : Billed path counted status) : ∃ k, responseCounter status = some k := by
  cases h <;> exact ⟨_, rfl⟩

/-- What a handler has done at some point of its run. -/
inductive Stage : List Action → Prop where
  | idle : Stage []
  | dropped : Stage [.close]
  | received (path : Bytes) : Stage [.recordRequest path]
  | looked {path : Bytes} {counted : List Action} {status : Nat} :
      Billed path counted status → Stage (.recordRequest path :: counted)
  | answered {path sent : Bytes} {counted rest : List Action} {status : Nat} {complete : Bool} :
      Billed path counted status → rest <+: [.write sent complete, .close] →
        Stage (.recordRequest path :: (counted ++ .recordResponse status :: rest))

theorem prefix_append_cases {α : Type} {p l₁ l₂ : List α} (h : p <+: l₁ ++ l₂) :
    p <+: l₁ ∨ ∃ q, q <+: l₂ ∧ p = l₁ ++ q := by
  rcases List.prefix_or_prefix_of_prefix h (List.prefix_append l₁ l₂) with shorter | ⟨q, rfl⟩
  · exact .inl shorter
  · exact .inr ⟨q, (List.prefix_append_right_inj l₁).mp h, rfl⟩

theorem Billed.stage_of_counted {path : Bytes} {counted past : List Action} {status : Nat}
    (h : Billed path counted status) (part : past <+: counted) :
    Stage (.recordRequest path :: past) := by
  have whole : past = [] ∨ past = counted := by
    cases h with
    | lookupFound | lookupNotFound =>
        rcases List.prefix_cons_iff.mp part with rfl | ⟨rest, rfl, rest'⟩
        · exact .inl rfl
        · exact .inr (by rw [List.prefix_nil.mp rest'])
    | _ => exact .inl (List.prefix_nil.mp part)
  rcases whole with rfl | rfl
  · exact .received path
  · exact .looked h

/-- **A handler is always in one of these stages.** -/
theorem handleConnection_stage {srv : Server} {conn : Connection} {past : List Action}
    (h : past <+: srv.handleConnection conn) : Stage past := by
  rw [handleConnection_eq] at h
  cases found : srv.answer conn.events with
  | none =>
      rw [found] at h
      rcases List.prefix_cons_iff.mp h with rfl | ⟨rest, rfl, rest'⟩
      · exact .idle
      · rw [List.prefix_nil.mp rest']
        exact .dropped
  | some a =>
      rw [found] at h
      have billed := Server.answer_billed found
      rcases List.prefix_cons_iff.mp h with rfl | ⟨rest, rfl, rest'⟩
      · exact .idle
      rcases prefix_append_cases rest' with part | ⟨tail, tail', rfl⟩
      · exact billed.stage_of_counted part
      rcases List.prefix_cons_iff.mp tail' with rfl | ⟨last, rfl, last'⟩
      · rw [List.append_nil]
        exact .looked billed
      · exact .answered billed last'

/-! ### The books -/

def Action.isRequest : Action → Bool
  | .recordRequest _ => true
  | _ => false

def Action.isResponse : Action → Bool
  | .recordResponse _ => true
  | _ => false

/-- Between `record_request` and `record_response`. -/
def inFlight (t : Thread Action) : Bool := t.past.any Action.isRequest && !t.past.any Action.isResponse

/-- The lines of the books: each counter, and the requests in flight. -/
inductive Entry where
  | counter (k : Counter)
  | inFlight

/-- What a connection contributes to a line. -/
def Entry.measure (e : Entry) (t : Thread Action) : Nat :=
  match e with
  | .counter k => t.weighed (weight k)
  | .inFlight => (Nshgeoip.inFlight t).toNat

def requestsOf (n : Counter → Nat) : Nat :=
  n .lookupRequests + n .healthRequests + n .metricsRequests + n .otherRequests

def responsesOf (n : Counter → Nat) : Nat :=
  n .responses200 + n .responses400 + n .responses404 + n .responses405 + n .responses500

/-- The relations between the lines that hold at any moment. -/
structure Balanced (n : Entry → Nat) : Prop where
  requests : requestsOf (fun k => n (.counter k)) =
    responsesOf (fun k => n (.counter k)) + n .inFlight
  outcomes : n (.counter .lookupFound) + n (.counter .lookupNotFound) + n (.counter .responses500) ≤
    n (.counter .lookupRequests)
  ok_le : n (.counter .responses200) ≤
    n (.counter .lookupFound) + n (.counter .healthRequests) + n (.counter .metricsRequests)
  missing_le : n (.counter .responses404) ≤
    n (.counter .lookupNotFound) + n (.counter .otherRequests)
  found_le : n (.counter .lookupFound) ≤ n (.counter .responses200) + n .inFlight
  notFound_le : n (.counter .lookupNotFound) ≤ n (.counter .responses404) + n .inFlight

theorem Balanced.zero : Balanced fun _ => 0 := by
  constructor <;> simp [requestsOf, responsesOf]

theorem Balanced.add {f g : Entry → Nat} (hf : Balanced f) (hg : Balanced g) :
    Balanced fun e => f e + g e := by
  obtain ⟨f₁, f₂, f₃, f₄, f₅, f₆⟩ := hf
  obtain ⟨g₁, g₂, g₃, g₄, g₅, g₆⟩ := hg
  dsimp only [requestsOf, responsesOf] at f₁ g₁
  refine ⟨?_, ?_, ?_, ?_, ?_, ?_⟩
  · dsimp only [requestsOf, responsesOf]
    omega
  all_goals omega

/-- The books of a connection that has moved these counters. -/
def ledger (moved : List Counter) (pending : Bool) : Entry → Nat
  | .counter k => moved.count k
  | .inFlight => pending.toNat

theorem weighed_eq_count (k : Counter) (past todo : List Action) :
    Thread.weighed (weight k) ⟨past, todo⟩ = (past.filterMap Action.counter).count k := by
  induction past with
  | nil => rfl
  | cons a past ih =>
      have head : weight k a = (a.counter.toList).count k := by
        unfold weight
        cases a.counter with
        | none => rfl
        | some k' => by_cases same : k' = k <;> simp [same]
      rw [Thread.weighed, List.map_cons, List.sum_cons, head]
      rw [Thread.weighed] at ih
      rw [ih]
      cases found : a.counter with
      | none => simp [found]
      | some k' => simp [found, List.count_cons, Nat.add_comm]

theorem measure_eq_ledger (t : Thread Action) :
    (fun e => Entry.measure e t) = ledger (t.past.filterMap Action.counter) (inFlight t) := by
  funext e
  cases e with
  | counter k => exact weighed_eq_count k t.past t.todo
  | inFlight => rfl

theorem balanced_received (path : Bytes) : Balanced (ledger [requestCounter path] true) := by
  unfold requestCounter
  split_ifs <;> constructor <;> decide

theorem Billed.balanced_looked {path : Bytes} {counted : List Action} {status : Nat}
    (h : Billed path counted status) :
    Balanced (ledger (requestCounter path :: counted.filterMap Action.counter) true) := by
  cases h with
  | lookupFound => constructor <;> decide
  | lookupNotFound => constructor <;> decide
  | _ => exact balanced_received _

theorem Billed.balanced_answered {path : Bytes} {counted : List Action} {status : Nat}
    {k : Counter} (h : Billed path counted status) (bucket : responseCounter status = some k) :
    Balanced (ledger (requestCounter path :: (counted.filterMap Action.counter ++ [k])) false) := by
  cases h with
  | badRequest path | notAllowed path =>
      cases bucket
      unfold requestCounter
      split_ifs <;> constructor <;> decide
  | unknown other =>
      cases bucket
      rw [other]
      constructor <;> decide
  | _ =>
      cases bucket
      constructor <;> decide

theorem Billed.quiet {path : Bytes} {counted : List Action} {status : Nat}
    (h : Billed path counted status) (status' : Nat) : .recordResponse status' ∉ counted := by
  cases h <;> simp

/-- Writing and closing are not billed. -/
theorem filterMap_counter_rest {sent : Bytes} {complete : Bool} {rest : List Action}
    (h : rest <+: [.write sent complete, .close]) : rest.filterMap Action.counter = [] := by
  rw [List.filterMap_eq_nil_iff]
  intro a mem
  rcases List.mem_cons.mp (h.subset mem) with rfl | last
  · rfl
  · rw [List.mem_singleton.mp last]
    rfl

theorem Stage.balanced {past todo : List Action} (h : Stage past) :
    Balanced fun e => Entry.measure e ⟨past, todo⟩ := by
  have nothing : Balanced (ledger [] false) := by constructor <;> decide
  rw [measure_eq_ledger]
  cases h with
  | idle => exact nothing
  | dropped => exact nothing
  | received path => exact balanced_received path
  | @looked path counted status billed =>
      have pending : inFlight ⟨.recordRequest path :: counted, todo⟩ = true := by
        have quiet : counted.any Action.isResponse = false := by cases billed <;> rfl
        simp [inFlight, Action.isRequest, Action.isResponse, quiet]
      rw [pending]
      exact billed.balanced_looked
  | @answered path sent counted rest status complete billed written =>
      have settled :
          inFlight ⟨.recordRequest path :: (counted ++ .recordResponse status :: rest), todo⟩ =
            false := by
        simp [inFlight, Action.isRequest, Action.isResponse]
      obtain ⟨k, bucket⟩ := billed.bucket
      have moved :
          (Action.recordRequest path :: (counted ++ .recordResponse status :: rest)).filterMap
              Action.counter =
            requestCounter path :: (counted.filterMap Action.counter ++ [k]) := by
        simp [Action.counter, bucket, filterMap_counter_rest written]
      rw [settled, moved]
      exact billed.balanced_answered bucket

/-- A response recorded at any stage has a bucket. -/
theorem Stage.bucket {past : List Action} {status : Nat} (h : Stage past)
    (mem : .recordResponse status ∈ past) : ∃ k, responseCounter status = some k := by
  cases h with
  | idle | dropped | received => simp at mem
  | looked billed =>
      rcases List.mem_cons.mp mem with same | mem'
      · cases same
      · exact absurd mem' (billed.quiet status)
  | answered billed written =>
      rcases List.mem_cons.mp mem with same | mem'
      · cases same
      rcases List.mem_append.mp mem' with counted | last
      · exact absurd counted (billed.quiet status)
      rcases List.mem_cons.mp last with same | rest
      · cases same
        exact billed.bucket
      · have none := written.subset rest
        simp at none

/-! ### Every reachable state -/

def Metrics.count (m : Metrics) (k : Counter) : Nat := (m.get k).toNat

theorem total_inFlight (threads : List (Thread Action)) :
    total Entry.inFlight.measure threads = threads.countP inFlight := by
  induction threads with
  | nil => rfl
  | cons t threads ih =>
      rw [List.countP_cons, ← ih, Nat.add_comm]
      cases flag : inFlight t <;> simp [total, Entry.measure, flag]

theorem run_stage {conns : List (Server × Connection)} {c : Interleave.Config Action Metrics}
    (run : Run Action.apply (conns.map fun p => p.1.handleConnection p.2) {} c) :
    ∀ t ∈ c.threads, Stage t.past := by
  intro t mem
  obtain ⟨⟨srv, conn⟩, -, program⟩ := List.mem_map.mp (run_program run t mem)
  exact handleConnection_stage ⟨t.todo, program.symm⟩

/-- **The counters account for every connection**, in whatever order the
handlers increment them, as long as none of them has wrapped around: requests
counted are responses counted and requests in flight, every response recorded
has a bucket, and with nothing in flight the lookup outcomes agree with the
status buckets. -/
theorem counters_account (conns : List (Server × Connection)) (c : Interleave.Config Action Metrics)
    (run : Run Action.apply (conns.map fun p => p.1.handleConnection p.2) {} c)
    (unwrapped : ∀ k, tally (weight k) c.threads < 2 ^ 64) :
    requestsOf c.shared.count = responsesOf c.shared.count + c.threads.countP inFlight ∧
      (∀ t ∈ c.threads, ∀ status, .recordResponse status ∈ t.past →
        ∃ k ∈ [Counter.responses200, .responses400, .responses404, .responses405, .responses500],
          ∀ m : Metrics, (m.recordResponse status).get k = m.get k + 1) ∧
      (c.threads.countP inFlight = 0 →
        requestsOf c.shared.count = responsesOf c.shared.count ∧
        c.shared.count .lookupFound + c.shared.count .lookupNotFound +
            c.shared.count .responses500 ≤ c.shared.count .lookupRequests ∧
        c.shared.count .lookupFound ≤ c.shared.count .responses200 ∧
        c.shared.count .responses200 ≤
          c.shared.count .lookupFound + c.shared.count .healthRequests +
            c.shared.count .metricsRequests ∧
        c.shared.count .lookupNotFound ≤ c.shared.count .responses404 ∧
        c.shared.count .responses404 ≤
          c.shared.count .lookupNotFound + c.shared.count .otherRequests) := by
  have stages := run_stage run
  have books : Balanced fun e => total e.measure c.threads :=
    total_induction Balanced.zero (fun _ _ => Balanced.add) fun t mem => (stages t mem).balanced
  have counts : c.shared.count = fun k => total (Entry.counter k).measure c.threads := by
    funext k
    have counted : c.shared.count k = tally (weight k) c.threads % 2 ^ 64 :=
      run_counter (fun m => m.count k) (by cases k <;> rfl) (fun a m => get_apply a m k) run
    rw [counted, Nat.mod_eq_of_lt (unwrapped k)]
    rfl
  obtain ⟨requests, outcomes, ok_le, missing_le, found_le, notFound_le⟩ := books
  rw [total_inFlight] at requests found_le notFound_le
  rw [counts]
  refine ⟨requests, ?_, ?_⟩
  · intro t mem status recorded
    obtain ⟨k, bucket⟩ := (stages t mem).bucket recorded
    refine ⟨k, ?_, fun m => by rw [get_recordResponse, if_pos bucket]⟩
    unfold responseCounter at bucket
    split at bucket <;> cases bucket <;> simp
  · intro quiet
    rw [quiet] at requests found_le notFound_le
    exact ⟨requests, outcomes, found_le, ok_le, notFound_le, missing_le⟩

/-- What the handler does for the sample connection. -/
theorem handleConnection_sampleTrace : ∃ sent complete,
    sampleServer.handleConnection sampleConnection =
      [.recordRequest (ascii "/lookup"), .lookupFound, .recordResponse 200, .write sent complete,
        .close] := by
  have read : readHttpHead sampleServer.maxRequestBytes sampleConnection.events [] =
      (.ok, sampleRaw) := by
    decide +kernel
  have parsed : parseHttpRequest sampleRaw = some sampleRequest := by decide +kernel
  have path : sampleRequest.path = ascii "/lookup" := rfl
  have param : findQueryParam sampleRequest (ascii "ip") = some (ascii "1.2.3.4") := by
    decide +kernel
  have addr : parseIpAddress (ascii "1.2.3.4") = some (.inet [1, 2, 3, 4]) := by decide +kernel
  rw [handleConnection_eq, Server.answer_of_parsed read parsed]
  dsimp only
  rw [Answer.actions, Server.reply, if_neg (by decide), if_pos path, Server.lookupReply, param]
  dsimp only
  rw [if_neg (by decide), addr]
  exact ⟨_, _, rfl⟩

/-- Two lookups, the second counted while the first is under way, and the first answered. -/
theorem counters_account_one_in_flight :
    ∃ c, Run Action.apply [sampleServer.handleConnection sampleConnection,
          sampleServer.handleConnection sampleConnection] {} c ∧
      c.threads.map (·.todo.length) = [0, 4] ∧ c.threads.countP inFlight = 1 ∧
        requestsOf c.shared.count = 2 ∧
        requestsOf c.shared.count = responsesOf c.shared.count + 1 := by
  obtain ⟨sent, complete, trace⟩ := handleConnection_sampleTrace
  -- The first handler counts its request, then the second; then the first goes on to its end.
  let later := [Action.lookupFound, .recordResponse 200, .write sent complete, .close]
  let counted := Action.recordRequest (ascii "/lookup")
  have first : Step Action.apply ⟨[⟨[], counted :: later⟩, ⟨[], counted :: later⟩], {}⟩
      ⟨[⟨[counted], later⟩, ⟨[], counted :: later⟩], counted.apply {}⟩ :=
    @Step.mk _ _ Action.apply [] [⟨[], counted :: later⟩] [] later counted {}
  have second : Step Action.apply
      ⟨[⟨[counted], later⟩, ⟨[], counted :: later⟩], counted.apply {}⟩
      ⟨[⟨[counted], later⟩, ⟨[counted], later⟩], counted.apply (counted.apply {})⟩ :=
    @Step.mk _ _ Action.apply [⟨[counted], later⟩] [] [] later counted (counted.apply {})
  let c : Interleave.Config Action Metrics :=
    ⟨[⟨counted :: later, []⟩, ⟨[counted], later⟩],
      later.foldl (fun m a => a.apply m) (counted.apply (counted.apply {}))⟩
  have alone : Relation.ReflTransGen (Step Action.apply) _ c :=
    run_alone Action.apply [] [⟨[counted], later⟩] [counted] later (counted.apply (counted.apply {}))
  have run : Run Action.apply
      ([(sampleServer, sampleConnection), (sampleServer, sampleConnection)].map fun p =>
        p.1.handleConnection p.2) {} c := by
    rw [List.map_cons, List.map_singleton, trace]
    exact .head first (.head second alone)
  have account := counters_account _ _ run fun k => by cases k <;> exact of_decide_eq_true rfl
  exact ⟨c, run, rfl, rfl, rfl, account.1⟩

end Nshgeoip
