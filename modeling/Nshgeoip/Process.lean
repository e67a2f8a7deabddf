import Nshgeoip.Server.Lifecycle
import Nshgeoip.Server.MetricsFile
import Nshgeoip.Server.Pool

/-!
`Server::run` beside its worker pool.

The main thread polls its listeners and the signal descriptor, drains every listener that
is readable into the pool, reads one signal, writes the metrics when they are due, and
starts over; a stop signal or a failure of `poll` takes it to `cleanup`. Its commands
interleave with the steps of the pool: the workers, their handlers, the condition
variable. Only the main thread calls `submit` and `shutdown`.

`accepted`, `reloads`, `ticks` and `calls` are history: the connections `accept4` returned,
the reloads, the rounds with the clock readings they made, and what the metrics writes did
to the file system.
-/

namespace Nshgeoip

open ByteText Filing

/-! ### What the main thread meets -/

/-- What `poll` reports. -/
inductive PollResult where
  | interrupted
  | failed
  /-- Which of the listeners has `POLLIN`, and whether the signal descriptor has. -/
  | returned (pollIn : Nat → Bool) (signal : Bool)

/-- What `accept4` reports. Every failure ends the draining of the listener. -/
inductive AcceptResult where
  | connection
  | interrupted
  | again
  | failed

inductive Signal where
  | term
  | int
  | hup
  | other

/-- How the world answers the next command of the main thread. -/
inductive MainInput where
  | step
  | polled (now : Int) (result : PollResult)
  | accept4 (result : AcceptResult)
  /-- A whole `signalfd_siginfo`, or anything else `read` may return. -/
  | read (info : Option Signal)
  | mmdbOpen (opened : Db → Option Mmdb)
  /-- The clock at the check of the deadline and behind a write, and the write if there
  is one: the state it renders and how it goes. -/
  | checked (now written : Int) (server : Server) (outcome : WriteOutcome)

/-! ### The main thread -/

/-- One round of the loop behind `poll`: the reading its timeout came from, the readable
listeners still to be drained, and the signal descriptor. -/
structure Round where
  now : Int
  readable : List Nat
  signal : Bool

/-- The next command of `run`. -/
inductive RunPc where
  | polling
  | draining (round : Round)
  /-- `accept4` has returned a descriptor that nobody else knows yet. -/
  | submitting (round : Round)
  | reading (round : Round)
  | reloading (round : Round)
  | checking (round : Round) (running : Bool)
  /-- In `cleanup`, before `shutdown`. -/
  | stopping
  /-- In `shutdown`, behind the flag. -/
  | joining
  | closing
  | returned

/-- The commands behind the stop flag. -/
def RunPc.isStopped : RunPc → Bool
  | joining => true
  | closing => true
  | returned => true
  | _ => false

structure Process where
  main : RunPc
  life : Life
  pool : ThreadPool Action
  /-- `next_metrics_write`. -/
  next : Int
  accepted : Nat := 0
  reloads : List (Db → Option Mmdb) := []
  ticks : List Tick := []
  calls : List (Call Bytes UInt8) := []

namespace Process

/-- `run` is entered with what `init` has left. -/
def start (cfg : Config) (life : Life) (clock : Int) : Process :=
  { main := .polling, life := life, pool := .start (toSize cfg.threads), next := clock }

/-- `signal_idx`: the UNIX listener and the TCP listeners come first. -/
def signalIdx (d : Process) : Nat := 1 + d.life.tcpListenFds.length

/-- The end of a round: the next one, or `cleanup`. -/
def endRound (cfg : Config) (d : Process) (tick : Tick) : Process :=
  { d with
    main := if tick.continues then .polling else .stopping
    next := nextMetricsWrite cfg d.next tick
    ticks := d.ticks ++ [tick] }

/-- `poll` and its three outcomes. -/
def polled (cfg : Config) (d : Process) (now : Int) : PollResult → Process
  | .interrupted => d.endRound cfg (.interrupted now)
  | .failed => d.endRound cfg (.failed now)
  | .returned pollIn signal =>
      { d with main := .draining ⟨now, (List.range d.signalIdx).filter pollIn, signal⟩ }

/-- One call of `accept4` on the first listener of the round. -/
def accept4 (d : Process) (round : Round) : AcceptResult → Process
  | .connection => { d with main := .submitting round, accepted := d.accepted + 1 }
  | _ => { d with main := .draining { round with readable := round.readable.tail } }

/-- The signals that are read one at a time. -/
def handleSignal (d : Process) (round : Round) : Option Signal → Process
  | some .term => { d with main := .checking round false }
  | some .int => { d with main := .checking round false }
  | some .hup => { d with main := .reloading round }
  | _ => { d with main := .checking round true }

/-- The check of the deadline, and the write if it is due. -/
def writeMetrics (cfg : Config) (d : Process) (tick : Tick) (server : Server)
    (outcome : WriteOutcome) : Process :=
  if metricsDue cfg d.next tick then
    { d with calls := d.calls ++ writeMetricsFile cfg.metricsFile server.metricsText outcome }
  else d

/-- One command of the main thread; `none` where the input is no answer to it. -/
def command (cfg : Config) (d : Process) (input : MainInput) : Option Process :=
  match d.main, input with
  | .polling, .polled now result => some (d.polled cfg now result)
  | .draining round, .accept4 result => if round.readable = [] then none else some (d.accept4 round result)
  | .draining round, .step =>
      if round.readable = [] then some { d with main := .reading round } else none
  | .submitting round, .step => some { d with main := .draining round, pool := d.pool.submit }
  | .reading round, .step =>
      if round.signal then none else some { d with main := .checking round true }
  | .reading round, .read info => if round.signal then some (d.handleSignal round info) else none
  | .reloading round, .mmdbOpen opened =>
      some { d with
        main := .checking round true
        life := d.life.reloadDatabases cfg opened
        reloads := d.reloads ++ [opened] }
  | .checking round running, .checked now written server outcome =>
      let tick := .served round.now now written running
      some ((d.writeMetrics cfg tick server outcome).endRound cfg tick)
  | .stopping, .step => some { d with main := .joining, pool := d.pool.shutdown }
  | .joining, .step =>
      if d.pool.phase = .joined then some { d with main := .closing, life := d.life.stopPool } else none
  | .closing, .step =>
      some { d with
        main := .returned
        life := d.life.closeListenFd.closeTcpListenFds.unlinkSocket.closeSignalFd }
  | _, _ => none

/-- A command of the main thread, or a step of the pool that is neither `submit` nor
`shutdown`. -/
inductive Step (cfg : Config) : Process → Process → Prop where
  | main {d d' : Process} (input : MainInput) : d.command cfg input = some d' → Step cfg d d'
  | pool {d : Process} {p : ThreadPool Action} :
      ThreadPool.Step Handles Action.isClose d.pool p → p.submissions = d.pool.submissions →
        p.stop = d.pool.stop → Step cfg d { d with pool := p }

/-- The states of a run. -/
def Reachable (cfg : Config) (life : Life) (clock : Int) (d : Process) : Prop :=
  Relation.ReflTransGen (Step cfg) (start cfg life clock) d

end Process

end Nshgeoip
