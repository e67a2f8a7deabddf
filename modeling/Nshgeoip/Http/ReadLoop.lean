import Nshgeoip.Http.ReadHead
import Nshgeoip.Lib.Machine

/-!
The read loop of `read_http_head` as a machine, one step for each turn of the
loop.

`readHttpHead` gives the outcome of a whole run; here every moment of the run is
a state, so that something can be said about the buffer while it grows
(`Reached`). Nothing depends on how the stream is cut into chunks: what matters
of the events before a moment is the bytes they delivered and whether one of
them ended the loop.
-/

namespace Nshgeoip

open ByteText Machine

/-! ### The machine -/

inductive ReadState where
  | reading (out : Bytes)
  | returned (result : ReadResult) (out : Bytes)

namespace ReadState

/-- The buffer. -/
def out : ReadState → Bytes
  | reading out => out
  | returned _ out => out

/-- The outcome if nothing else happens before the deadline. -/
def outcome : ReadState → ReadResult × Bytes
  | reading out => (.timeout, out)
  | returned result out => (result, out)

end ReadState

/-- One turn of the loop. -/
def readStep (maxBytes : Nat) : ReadState → RecvEvent → ReadState
  | .returned result out, _ => .returned result out
  | .reading out, .timeout => .returned .timeout out
  | .reading out, .interrupted => .reading out
  | .reading out, .error => .returned .ioError out
  | .reading out, .closed => .returned .connectionClosed out
  | .reading out, .data chunk =>
      if maxBytes < (out ++ chunk.bytes).length then .returned .tooLarge (out ++ chunk.bytes)
      else if (cut terminator (out ++ chunk.bytes)).isSome then .returned .ok (out ++ chunk.bytes)
      else .reading (out ++ chunk.bytes)

/-- The loop after a list of events, from an empty buffer. -/
def readLoop (maxBytes : Nat) (events : List RecvEvent) : ReadState :=
  run (readStep maxBytes) (.reading []) events

theorem run_returned (maxBytes : Nat) (events : List RecvEvent) (result : ReadResult) (out : Bytes) :
    run (readStep maxBytes) (.returned result out) events = .returned result out := by
  induction events with
  | nil => rfl
  | cons event events ih => exact ih

/-- The machine computes what `readHttpHead` returns. -/
theorem readHttpHead_eq_run (maxBytes : Nat) (events : List RecvEvent) (out : Bytes) :
    readHttpHead maxBytes events out = (run (readStep maxBytes) (.reading out) events).outcome := by
  have stopped : ∀ events result out,
      (run (readStep maxBytes) (.returned result out) events).outcome = (result, out) := by
    intro events result out
    rw [run_returned]
    rfl
  induction events generalizing out with
  | nil => rfl
  | cons event events ih =>
      cases event with
      | timeout => exact (stopped events _ _).symm
      | interrupted => exact ih out
      | error => exact (stopped events _ _).symm
      | closed => exact (stopped events _ _).symm
      | data chunk =>
          change _ = (run (readStep maxBytes)
            (readStep maxBytes (.reading out) (.data chunk)) events).outcome
          rw [readHttpHead, readStep]
          split
          · exact (stopped events _ _).symm
          · change (if (cut terminator (out ++ chunk.bytes)).isSome then _ else _) = _
            split
            · exact (stopped events _ _).symm
            · exact ih _

theorem readLoop_concat (maxBytes : Nat) (events : List RecvEvent) (event : RecvEvent) :
    readLoop maxBytes (events ++ [event]) = readStep maxBytes (readLoop maxBytes events) event := by
  simp [readLoop, run]

/-- A loop that has returned stays where it is. -/
theorem readLoop_append {maxBytes : Nat} {before : List RecvEvent} {result : ReadResult}
    {out : Bytes} (stopped : readLoop maxBytes before = .returned result out)
    (after : List RecvEvent) : readLoop maxBytes (before ++ after) = .returned result out := by
  have split : readLoop maxBytes (before ++ after) =
      run (readStep maxBytes) (readLoop maxBytes before) after := by
    simp [readLoop, run]
  rw [split, stopped, run_returned]

/-! ### The invariant -/

/-- The buffer with which `Ok` is returned, and the chunk that completed it: it
is the first one after which the terminator is there. -/
def CompletedAt (maxBytes : Nat) (events : List RecvEvent) (out : Bytes) : Prop :=
  out.length ≤ maxBytes ∧ terminator <:+: out ∧
    ∃ before chunk after, events = before ++ .data chunk :: after ∧
      out = received before ++ chunk.bytes ∧ ¬ terminator <:+: received before

/-- What holds of the loop after the events so far. -/
def Reached (maxBytes : Nat) (events : List RecvEvent) : ReadState → Prop
  | .reading out => out = received events ∧ out.length ≤ maxBytes ∧ ¬ terminator <:+: out
  | .returned result out =>
      out <+: received events ∧ out.length ≤ maxBytes + 4096 ∧
        (result = .ok → CompletedAt maxBytes events out)

theorem received_concat (events : List RecvEvent) (event : RecvEvent) :
    received (events ++ [event]) = received events ++ event.bytes := by
  simp [received]

theorem received_append (before after : List RecvEvent) :
    received (before ++ after) = received before ++ received after := by
  simp [received]

theorem CompletedAt.concat {maxBytes : Nat} {events : List RecvEvent} {out : Bytes}
    (completed : CompletedAt maxBytes events out) (event : RecvEvent) :
    CompletedAt maxBytes (events ++ [event]) out := by
  obtain ⟨within, found, before, chunk, after, rfl, buffer, first⟩ := completed
  refine ⟨within, found, before, chunk, after ++ [event], ?_, buffer, first⟩
  rw [List.append_assoc, List.cons_append]

/-- A loop stopped by something other than a chunk keeps its buffer. -/
theorem Reached.stop {maxBytes : Nat} {events : List RecvEvent} {out : Bytes}
    (h : Reached maxBytes events (.reading out)) (event : RecvEvent) {result : ReadResult}
    (failed : result ≠ .ok) : Reached maxBytes (events ++ [event]) (.returned result out) := by
  obtain ⟨rfl, within, -⟩ := h
  refine ⟨?_, by omega, fun ok => absurd ok failed⟩
  rw [received_concat]
  exact List.prefix_append _ _

theorem Reached.chunk {maxBytes : Nat} {events : List RecvEvent} {out : Bytes}
    (h : Reached maxBytes events (.reading out)) (chunk : Chunk) :
    Reached maxBytes (events ++ [.data chunk]) (readStep maxBytes (.reading out) (.data chunk)) := by
  obtain ⟨rfl, within, fresh⟩ := h
  have stream : received (events ++ [.data chunk]) = received events ++ chunk.bytes :=
    received_concat events _
  have grown : (received events ++ chunk.bytes).length ≤ maxBytes + 4096 := by
    rw [List.length_append]
    exact Nat.add_le_add within chunk.fits
  rw [readStep]
  split
  · refine ⟨?_, grown, fun ok => absurd ok (by decide)⟩
    rw [stream]
  · rename_i small
    split
    · rename_i found
      refine ⟨?_, grown, fun _ => ⟨not_lt.mp small, cut_isSome_iff.mp found, ?_⟩⟩
      · rw [stream]
      · exact ⟨events, chunk, [], rfl, rfl, fresh⟩
    · rename_i missing
      exact ⟨stream.symm, not_lt.mp small, fun found => missing (cut_isSome_iff.mpr found)⟩

theorem Reached.step {maxBytes : Nat} {events : List RecvEvent} {state : ReadState}
    (h : Reached maxBytes events state) (event : RecvEvent) :
    Reached maxBytes (events ++ [event]) (readStep maxBytes state event) := by
  cases state with
  | returned result out =>
      obtain ⟨stream, size, ok⟩ := h
      refine ⟨?_, size, fun returned => (ok returned).concat event⟩
      rw [received_concat]
      exact stream.trans (List.prefix_append _ _)
  | reading out =>
      cases event with
      | timeout => exact h.stop _ (by decide)
      | error => exact h.stop _ (by decide)
      | closed => exact h.stop _ (by decide)
      | data chunk => exact h.chunk chunk
      | interrupted =>
          obtain ⟨buffer, within, fresh⟩ := h
          refine ⟨?_, within, fresh⟩
          rw [received_concat]
          simpa [RecvEvent.bytes] using buffer

/-- **The invariant of the loop**, at every moment of every run. -/
theorem reached_readLoop (maxBytes : Nat) (events : List RecvEvent) :
    Reached maxBytes events (readLoop maxBytes events) := by
  induction events using List.reverseRecOn with
  | nil =>
      refine ⟨rfl, Nat.zero_le _, ?_⟩
      rintro ⟨pre, post, empty⟩
      simp [terminator, crlf] at empty
  | append_singleton events event ih =>
      rw [readLoop_concat]
      exact ih.step event

/-! ### What follows from it -/

theorem Reached.buffer {maxBytes : Nat} {events : List RecvEvent} {state : ReadState}
    (h : Reached maxBytes events state) :
    state.out <+: received events ∧ state.out.length ≤ maxBytes + 4096 := by
  cases state with
  | reading out =>
      obtain ⟨rfl, within, -⟩ := h
      exact ⟨List.prefix_rfl, by simp only [ReadState.out]; omega⟩
  | returned result out => exact ⟨h.1, h.2.1⟩

theorem completedAt_of_ok {maxBytes : Nat} {events : List RecvEvent} {raw : Bytes}
    (h : readHttpHead maxBytes events [] = (.ok, raw)) : CompletedAt maxBytes events raw := by
  have reached := reached_readLoop maxBytes events
  rw [readHttpHead_eq_run] at h
  change (readLoop maxBytes events).outcome = _ at h
  cases state : readLoop maxBytes events with
  | reading out =>
      rw [state] at h
      cases h
  | returned result out =>
      rw [state] at h reached
      cases h
      exact reached.2.2 rfl

theorem received_take (events : List RecvEvent) (n : Nat) :
    received (events.take n) <+: received events := by
  refine ⟨received (events.drop n), ?_⟩
  rw [← received_append, List.take_append_drop]

/-- What is read before the first trouble decides: the rest cannot undo an `Ok`. -/
theorem ok_of_complete {maxBytes : Nat} {before : List RecvEvent}
    (quiet : ∀ event ∈ before, event.quiet = true) (head : terminator <:+: received before)
    (within : (received before).length ≤ maxBytes) (after : List RecvEvent) :
    (readHttpHead maxBytes (before ++ after) []).1 = .ok := by
  have early := readHttpHead_ok_of_within quiet head within
  rw [readHttpHead_eq_run] at early ⊢
  change (readLoop maxBytes before).outcome.1 = .ok at early
  change (readLoop maxBytes (before ++ after)).outcome.1 = .ok
  cases state : readLoop maxBytes before with
  | reading out =>
      rw [state] at early
      cases early
  | returned result out =>
      rw [state] at early
      rw [readLoop_append state]
      exact early

/-- **Soundness of the read loop.** Whatever `poll` and `recv` report while they
deliver a part of the stream: after every number of turns the buffer is a prefix
of the stream and at most one chunk over the limit; `Ok` comes with a buffer
within the limit, at the first chunk after which the terminator is there; a
stream without a terminator in its first `max_bytes` bytes is never accepted; and
a stream within the limit is, once the terminator is complete before a timeout,
an error or the end of the stream. -/
theorem readHttpHead_sound (maxBytes : Nat) (stream : Bytes) (events : List RecvEvent)
    (delivered : received events <+: stream) :
    (∀ n, (readLoop maxBytes (events.take n)).out <+: stream ∧
      (readLoop maxBytes (events.take n)).out.length ≤ maxBytes + 4096) ∧
    readHttpHead maxBytes events [] = (readLoop maxBytes events).outcome ∧
    (∀ raw, readHttpHead maxBytes events [] = (.ok, raw) →
      raw <+: stream ∧ CompletedAt maxBytes events raw) ∧
    (¬ terminator <:+: stream.take maxBytes → (readHttpHead maxBytes events []).1 ≠ .ok) ∧
    (stream.length ≤ maxBytes → ∀ before after, events = before ++ after →
      (∀ event ∈ before, event.quiet = true) → terminator <:+: received before →
        (readHttpHead maxBytes events []).1 = .ok) := by
  have accepted : ∀ raw, readHttpHead maxBytes events [] = (.ok, raw) →
      raw <+: stream ∧ CompletedAt maxBytes events raw := by
    intro raw ok
    have buffer : raw <+: received events := by
      simpa using (readHttpHead_ok_buffer ok).2
    exact ⟨buffer.trans delivered, completedAt_of_ok ok⟩
  refine ⟨?_, readHttpHead_eq_run maxBytes events [], accepted, ?_, ?_⟩
  · intro n
    obtain ⟨buffer, size⟩ := (reached_readLoop maxBytes (events.take n)).buffer
    exact ⟨(buffer.trans (received_take events n)).trans delivered, size⟩
  · intro missing ok
    obtain ⟨part, within, found, -⟩ :=
      accepted (readHttpHead maxBytes events []).2 (Prod.ext ok rfl)
    have early : (readHttpHead maxBytes events []).2 <+: stream.take maxBytes :=
      List.prefix_take_iff.mpr ⟨part, within⟩
    exact missing (found.trans early.isInfix)
  · rintro small before after rfl quiet head
    have part : received before <+: stream := by
      rw [received_append] at delivered
      exact (List.prefix_append _ _).trans delivered
    exact ok_of_complete quiet head (part.length_le.trans small) after

/-- A head whose terminator straddles two chunks with an interrupted call between
them, and the peer gone afterwards. -/
def straddled : List RecvEvent :=
  [.data ⟨ascii "GET / HTTP/1.1\r\n\r", by decide, by decide⟩, .interrupted,
    .data ⟨[10], by decide, by decide⟩, .closed]

theorem readHttpHead_sound_straddled :
    received straddled <+: ascii "GET / HTTP/1.1\r\n\r\n" ∧
      (readHttpHead 18 straddled []).1 = .ok := by
  have delivered : received straddled <+: ascii "GET / HTTP/1.1\r\n\r\n" := by decide +kernel
  obtain ⟨-, -, -, -, accepted⟩ := readHttpHead_sound 18 _ straddled delivered
  exact ⟨delivered, accepted (by decide) (straddled.take 3) [.closed] rfl (by decide) (by decide +kernel)⟩

end Nshgeoip
