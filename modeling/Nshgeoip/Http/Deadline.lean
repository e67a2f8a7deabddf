import Nshgeoip.Config.Law
import Nshgeoip.Http.ReadLoop

/-!
The clock of `read_http_head`.

`readHttpHead` takes what happens before the deadline as a list of events. Here each turn of
the loop reads the clock and computes the timeout it gives to `poll`, and `poll` and `recv`
answer. What is assumed of the system is in `Turn.Timely`: `poll` is back when its timeout is
over, no earlier if it reports that, and `recv` does not wait behind it; all that takes longer
than it should is in one `slack`. Times are in nanoseconds.
-/

namespace Nshgeoip

open ByteText

/-! ### The loop -/

inductive HeadPoll where
  | ready
  | expired
  | interrupted
  | error
  deriving DecidableEq

inductive HeadRecv where
  | data (chunk : Chunk)
  | closed
  | interrupted
  | error

/-- A turn of the loop: the clock at its top, what the two calls return, and the clock after
them. -/
structure Turn where
  now : Int
  poll : HeadPoll
  recv : HeadRecv
  back : Int

/-- `remaining_ms`. -/
def remainingPollMs (deadline now : Int) : Int := toInt ((deadline - now).tdiv 1000000)

/-- `timeout_seconds` as `handle_connection` passes it, added to the clock. -/
def readDeadline (start : Int) : Int := start + 5 * 1000000000

/-- A value of `read_http_head`, with the time it is returned at. -/
structure Read where
  result : ReadResult
  out : Bytes
  time : Int

/-- The loop of `read_http_head`, and `none` when the turns are over and it is not. -/
def readHttpHeadTimed (maxBytes : Nat) (deadline : Int) : List Turn → Bytes → Option Read
  | [], _ => none
  | turn :: turns, out =>
      if deadline ≤ turn.now then some ⟨.timeout, out, turn.now⟩
      else
        match turn.poll with
        | .expired => some ⟨.timeout, out, turn.back⟩
        | .interrupted => readHttpHeadTimed maxBytes deadline turns out
        | .error => some ⟨.ioError, out, turn.back⟩
        | .ready =>
            match turn.recv with
            | .closed => some ⟨.connectionClosed, out, turn.back⟩
            | .interrupted => readHttpHeadTimed maxBytes deadline turns out
            | .error => some ⟨.ioError, out, turn.back⟩
            | .data chunk =>
                let out := out ++ chunk.bytes
                if maxBytes < out.length then some ⟨.tooLarge, out, turn.back⟩
                else if (cut terminator out).isSome then some ⟨.ok, out, turn.back⟩
                else readHttpHeadTimed maxBytes deadline turns out

/-! ### What the system promises -/

structure Turn.Timely (slack deadline : Int) (turn : Turn) : Prop where
  forward : turn.now ≤ turn.back
  bounded : turn.back ≤ turn.now + remainingPollMs deadline turn.now * 1000000 + slack
  expired : turn.poll = .expired →
    turn.now + remainingPollMs deadline turn.now * 1000000 ≤ turn.back

/-- Turns that follow one another from a moment on; those the loop makes before the deadline
are timely. -/
def Follow (slack deadline : Int) : Int → List Turn → Prop
  | _, [] => True
  | now, turn :: turns =>
      turn.now = now ∧ (now < deadline → turn.Timely slack deadline) ∧
        Follow slack deadline turn.back turns

/-- A turn as an event of the loop. -/
def Turn.event (deadline : Int) (turn : Turn) : RecvEvent :=
  if deadline ≤ turn.now then .timeout
  else
    match turn.poll, turn.recv with
    | .expired, _ => .timeout
    | .interrupted, _ => .interrupted
    | .error, _ => .error
    | .ready, .closed => .closed
    | .ready, .interrupted => .interrupted
    | .ready, .error => .error
    | .ready, .data chunk => .data chunk

/-- The turn puts bytes into the buffer. -/
def Turn.receives (turn : Turn) : Bool :=
  match turn.poll, turn.recv with
  | .ready, .data _ => true
  | _, _ => false

/-! ### The timeout given to `poll` -/

theorem remainingPollMs_bounds {start now : Int} (begun : start ≤ now)
    (early : now < readDeadline start) :
    (0 ≤ remainingPollMs (readDeadline start) now ∧ remainingPollMs (readDeadline start) now ≤ 5000) ∧
      remainingPollMs (readDeadline start) now * 1000000 ≤ readDeadline start - now ∧
      readDeadline start - now < (remainingPollMs (readDeadline start) now + 1) * 1000000 := by
  unfold readDeadline at early ⊢
  have cut : (start + 5 * 1000000000 - now).tdiv 1000000 = (start + 5 * 1000000000 - now) / 1000000 :=
    Int.tdiv_eq_ediv_of_nonneg (by omega)
  have small : remainingPollMs (start + 5 * 1000000000) now =
      (start + 5 * 1000000000 - now) / 1000000 := by
    rw [remainingPollMs, cut]
    exact toInt_eq_self (by omega) (by omega)
  rw [small]
  omega

/-! ### The loop and its events -/

section Loop

variable {maxBytes : Nat} {deadline : Int}

/-- When a turn that returns does so. -/
def Turn.leave (deadline : Int) (turn : Turn) : Int :=
  if deadline ≤ turn.now then turn.now else turn.back

/-- A turn is a step of the machine over events. -/
theorem readHttpHeadTimed_cons (turn : Turn) (turns : List Turn) (out : Bytes) :
    readHttpHeadTimed maxBytes deadline (turn :: turns) out =
      match readStep maxBytes (.reading out) (turn.event deadline) with
      | .returned result out => some ⟨result, out, turn.leave deadline⟩
      | .reading out => readHttpHeadTimed maxBytes deadline turns out := by
  rw [readHttpHeadTimed, Turn.event, Turn.leave]
  split_ifs with late
  · rfl
  · cases poll : turn.poll with
    | ready =>
        cases recv : turn.recv with
        | data chunk =>
            simp only [readStep]
            split_ifs <;> rfl
        | _ => rfl
    | _ => rfl

/-- Without the clock the loop is `readHttpHead`. -/
theorem readHttpHead_of_timed {turns : List Turn} {out : Bytes} {r : Read}
    (h : readHttpHeadTimed maxBytes deadline turns out = some r) :
    readHttpHead maxBytes (turns.map (Turn.event deadline)) out = (r.result, r.out) := by
  rw [readHttpHead_eq_run]
  induction turns generalizing out with
  | nil => cases h
  | cons turn turns ih =>
      have stepped : Machine.run (readStep maxBytes) (.reading out)
          ((turn :: turns).map (Turn.event deadline)) =
        Machine.run (readStep maxBytes) (readStep maxBytes (.reading out) (turn.event deadline))
          (turns.map (Turn.event deadline)) := rfl
      rw [stepped]
      rw [readHttpHeadTimed_cons] at h
      cases step : readStep maxBytes (.reading out) (turn.event deadline) with
      | returned result out =>
          rw [step] at h
          cases h
          rw [run_returned]
          rfl
      | reading out =>
          rw [step] at h
          exact ih h

/-- A turn after which the loop goes on. -/
theorem turn_of_reading {turn : Turn} {out out' : Bytes}
    (h : readStep maxBytes (.reading out) (turn.event deadline) = .reading out') :
    turn.now < deadline ∧ (turn.receives = false ∧ out' = out ∨
      turn.receives = true ∧ out.length < out'.length ∧ out'.length ≤ maxBytes) := by
  unfold Turn.event at h
  split_ifs at h with late
  · cases h
  · refine ⟨not_le.mp late, ?_⟩
    unfold Turn.receives
    cases poll : turn.poll with
    | interrupted =>
        simp only [poll] at h
        cases h
        exact Or.inl ⟨rfl, rfl⟩
    | ready =>
        cases recv : turn.recv with
        | interrupted =>
            simp only [poll, recv] at h
            cases h
            exact Or.inl ⟨rfl, rfl⟩
        | data chunk =>
            simp only [poll, recv, readStep] at h
            split_ifs at h with large found
            cases h
            have grown := chunk.nonempty
            rw [List.length_append] at large ⊢
            exact Or.inr ⟨rfl, by omega, by omega⟩
        | closed =>
            simp only [poll, recv] at h
            cases h
        | error =>
            simp only [poll, recv] at h
            cases h
    | expired =>
        simp only [poll] at h
        cases h
    | error =>
        simp only [poll] at h
        cases h

/-- A turn that gives up on the client has seen the deadline or waited for it. -/
theorem turn_of_timeout {turn : Turn} {out out' : Bytes}
    (h : readStep maxBytes (.reading out) (turn.event deadline) = .returned .timeout out') :
    deadline ≤ turn.now ∨ turn.poll = .expired := by
  unfold Turn.event at h
  split_ifs at h with late
  · exact Or.inl late
  · refine Or.inr ?_
    cases poll : turn.poll with
    | expired => rfl
    | ready =>
        cases recv : turn.recv with
        | data chunk =>
            simp only [poll, recv, readStep] at h
            split_ifs at h <;> cases h
        | _ =>
            simp only [poll, recv] at h
            cases h
    | _ =>
        simp only [poll] at h
        cases h

/-- A loop that is not over has made no turn after the deadline, and every turn that received
something has left a byte in a buffer within the limit. -/
theorem turns_of_timed_eq_none {turns : List Turn} {out : Bytes} (fits : out.length ≤ maxBytes)
    (h : readHttpHeadTimed maxBytes deadline turns out = none) :
    (∀ turn ∈ turns, turn.now < deadline) ∧
      out.length + (turns.filter Turn.receives).length ≤ maxBytes := by
  induction turns generalizing out with
  | nil => exact ⟨fun _ no => absurd no List.not_mem_nil, by simpa using fits⟩
  | cons turn turns ih =>
      rw [readHttpHeadTimed_cons] at h
      cases step : readStep maxBytes (.reading out) (turn.event deadline) with
      | returned result out' =>
          rw [step] at h
          cases h
      | reading out' =>
          rw [step] at h
          obtain ⟨early, ⟨silent, rfl⟩ | ⟨heard, grown, fits'⟩⟩ := turn_of_reading step
          · obtain ⟨later, count⟩ := ih fits h
            rw [List.filter_cons_of_neg (by rw [silent]; exact Bool.false_ne_true)]
            exact ⟨List.forall_mem_cons.mpr ⟨early, later⟩, count⟩
          · obtain ⟨later, count⟩ := ih fits' h
            rw [List.filter_cons_of_pos heard, List.length_cons]
            exact ⟨List.forall_mem_cons.mpr ⟨early, later⟩, by omega⟩

end Loop

/-! ### How long a client can hold a worker -/

section Clock

variable {maxBytes : Nat} {start slack : Int}

theorem time_of_timed {turns : List Turn} {now : Int} {out : Bytes} {r : Read}
    (begun : start ≤ now) (late : now ≤ readDeadline start + slack)
    (follow : Follow slack (readDeadline start) now turns)
    (h : readHttpHeadTimed maxBytes (readDeadline start) turns out = some r) :
    r.time ≤ readDeadline start + slack ∧
      (r.result = .timeout → readDeadline start - 1000000 < r.time) := by
  induction turns generalizing now out with
  | nil => cases h
  | cons turn turns ih =>
      obtain ⟨rfl, timely, follow⟩ := follow
      have left : turn.leave (readDeadline start) ≤ readDeadline start + slack := by
        unfold Turn.leave
        split_ifs with reached
        · exact late
        · have bounds := remainingPollMs_bounds begun (not_le.mp reached)
          have bounded := (timely (not_le.mp reached)).bounded
          omega
      rw [readHttpHeadTimed_cons] at h
      cases step : readStep maxBytes (.reading out) (turn.event (readDeadline start)) with
      | returned result out' =>
          rw [step] at h
          cases h
          refine ⟨left, ?_⟩
          rintro rfl
          have gaveUp := turn_of_timeout step
          dsimp only
          unfold Turn.leave
          split_ifs with reached
          · omega
          · have early := not_le.mp reached
            have bounds := remainingPollMs_bounds begun early
            have waited := (timely early).expired (gaveUp.resolve_left reached)
            omega
      | reading out' =>
          rw [step] at h
          have early := (turn_of_reading step).1
          have forward := (timely early).forward
          rw [Turn.leave, if_neg (not_le.mpr early)] at left
          exact ih (begun.trans forward) left follow h

/-- **No client holds a worker.** Whatever a client sends and whenever, with a system that keeps
its promises up to `slack`: every timeout given to `poll` is between 0 and 5000 ms and ends in the
last millisecond before the deadline; when the loop returns it returns what `readHttpHead` says,
five seconds and `slack` after its start at the latest, and `Timeout` no more than a
millisecond before they are over; and while it goes on, no turn has begun after the deadline and no more
turns have received something than the limit has bytes. -/
theorem readHttpHead_deadline (maxBytes : Nat) {start slack now : Int} (begun : start ≤ now)
    (prompt : now ≤ start + slack) {turns : List Turn}
    (follow : Follow slack (readDeadline start) now turns) :
    (∀ moment, start ≤ moment → moment < readDeadline start →
      let ms := remainingPollMs (readDeadline start) moment
      (0 ≤ ms ∧ ms ≤ 5000) ∧ ms * 1000000 ≤ readDeadline start - moment ∧
        readDeadline start - moment < (ms + 1) * 1000000) ∧
    (∀ r, readHttpHeadTimed maxBytes (readDeadline start) turns [] = some r →
      readHttpHead maxBytes (turns.map (Turn.event (readDeadline start))) [] = (r.result, r.out) ∧
        r.time ≤ start + 5 * 1000000000 + slack ∧
        (r.result = .timeout → start + 5 * 1000000000 - 1000000 < r.time)) ∧
    (readHttpHeadTimed maxBytes (readDeadline start) turns [] = none →
      (∀ turn ∈ turns, turn.now < start + 5 * 1000000000) ∧
        (turns.filter Turn.receives).length ≤ maxBytes) := by
  refine ⟨fun moment => remainingPollMs_bounds, ?_, ?_⟩
  · intro r returned
    have late : now ≤ readDeadline start + slack := by
      unfold readDeadline
      omega
    exact ⟨readHttpHead_of_timed returned, time_of_timed begun late follow returned⟩
  · intro running
    obtain ⟨early, count⟩ := turns_of_timed_eq_none (Nat.zero_le _) running
    refine ⟨early, ?_⟩
    simpa using count

end Clock

/-- A client that sends a byte and is silent then. The last timeout is less than a millisecond
away, and `poll` gets no time at all. -/
def slowTurns : List Turn :=
  [⟨0, .ready, .data ⟨ascii "G", by decide, by decide⟩, 2500000000⟩,
    ⟨2500000000, .interrupted, .error, 4999500000⟩, ⟨4999500000, .expired, .error, 4999500010⟩]

theorem readHttpHead_deadline_slow :
    readHttpHeadTimed 256 (readDeadline 0) slowTurns [] = some ⟨.timeout, ascii "G", 4999500010⟩ ∧
      readHttpHead 256 (slowTurns.map (Turn.event (readDeadline 0))) [] = (.timeout, ascii "G") := by
  have returned : readHttpHeadTimed 256 (readDeadline 0) slowTurns [] =
      some ⟨.timeout, ascii "G", 4999500010⟩ := rfl
  have follow : Follow 1000 (readDeadline 0) 0 slowTurns := by
    refine ⟨rfl, fun _ => ⟨by decide, by decide, by decide⟩, rfl, fun _ => ⟨by decide, by decide, by decide⟩,
      rfl, fun _ => ⟨by decide, by decide, by decide⟩, trivial⟩
  have law := readHttpHead_deadline 256 (le_refl (0 : Int)) (by decide : (0 : Int) ≤ 0 + 1000) follow
  exact ⟨returned, (law.2.1 _ returned).1⟩

end Nshgeoip
