import Nshgeoip.Http

/-!
What the read loop of `read_http_head` decides.

The size test comes before the terminator test and looks at the whole buffer,
so the verdict on a head depends on the bytes that arrived in the same chunk
behind it: `readHttpHead_ok_iff_arrived` gives the exact condition on the
segmentation, and `segmentation_counterexample` a short head refused because
the client's body shared its segment. `readHttpHead_ok_buffer` is what a caller
may rely on after `Ok`: the buffer is a prefix of the stream and holds the
terminator.
-/

namespace Nshgeoip

open ByteText

/-- The blank line that ends a head. -/
def terminator : Bytes := crlf ++ crlf

def RecvEvent.bytes : RecvEvent → Bytes
  | .data chunk => chunk.bytes
  | _ => []

/-- The stream a list of events delivers. -/
def received (events : List RecvEvent) : Bytes := events.flatMap RecvEvent.bytes

/-- Neither a timeout, nor an error, nor the end of the stream. -/
def RecvEvent.quiet : RecvEvent → Bool
  | .data _ => true
  | .interrupted => true
  | _ => false

/-- How many bytes are on hand once the chunk with byte number `n` is in. -/
def arrived : List RecvEvent → Nat → Nat
  | [], _ => 0
  | .data chunk :: events, n =>
      if n ≤ chunk.bytes.length then chunk.bytes.length
      else chunk.bytes.length + arrived events (n - chunk.bytes.length)
  | _ :: events, n => arrived events n

theorem received_cons (event : RecvEvent) (events : List RecvEvent) :
    received (event :: events) = event.bytes ++ received events := rfl

theorem arrived_le (events : List RecvEvent) (n : Nat) :
    arrived events n ≤ (received events).length := by
  induction events generalizing n with
  | nil => simp [arrived]
  | cons event events ih =>
      rw [received_cons, List.length_append]
      cases event with
      | data chunk =>
          have tail := ih (n - chunk.bytes.length)
          simp only [arrived, RecvEvent.bytes]
          split <;> omega
      | _ => exact (ih n).trans (Nat.le_add_left _ _)

/-- The loop from a buffer that does not hold the terminator yet: it accepts
exactly when the buffer that completes the head is within the limit. -/
theorem readHttpHead_ok_iff {maxBytes : Nat} {events : List RecvEvent} {out pre post : Bytes}
    (quiet : ∀ event ∈ events, event.quiet = true)
    (first : cut terminator (out ++ received events) = some (pre, post))
    (short : out.length < pre.length + 4) :
    (readHttpHead maxBytes events out).1 = .ok ↔
      out.length + arrived events (pre.length + 4 - out.length) ≤ maxBytes := by
  induction events generalizing out with
  | nil =>
      -- The whole stream is in the buffer, yet the buffer is too short for the head.
      have len := congrArg List.length (cut_eq_append first)
      simp only [received, List.flatMap_nil, List.append_nil, List.length_append, terminator,
        crlf, List.length_cons, List.length_nil] at len
      omega
  | cons event events ih =>
      have quietTail := fun e h => quiet e (List.mem_cons_of_mem event h)
      cases event with
      | timeout => exact absurd (quiet .timeout List.mem_cons_self) (by simp [RecvEvent.quiet])
      | error => exact absurd (quiet .error List.mem_cons_self) (by simp [RecvEvent.quiet])
      | closed => exact absurd (quiet .closed List.mem_cons_self) (by simp [RecvEvent.quiet])
      | interrupted => exact ih quietTail first short
      | data chunk =>
          rw [received_cons, ← List.append_assoc] at first
          change cut terminator ((out ++ chunk.bytes) ++ received events) = _ at first
          have complete : (cut terminator (out ++ chunk.bytes)).isSome = true ↔
              pre.length + 4 ≤ out.length + chunk.bytes.length := by
            simpa [terminator, crlf] using cut_prefix_isSome_iff first
          have stepped : readHttpHead maxBytes (.data chunk :: events) out =
              if maxBytes < out.length + chunk.bytes.length then (.tooLarge, out ++ chunk.bytes)
              else if (cut terminator (out ++ chunk.bytes)).isSome then (.ok, out ++ chunk.bytes)
              else readHttpHead maxBytes events (out ++ chunk.bytes) := by
            rw [readHttpHead, List.length_append]
            rfl
          rw [stepped, arrived]
          by_cases reach : pre.length + 4 ≤ out.length + chunk.bytes.length
          · have here : pre.length + 4 - out.length ≤ chunk.bytes.length := by omega
            rw [if_pos (complete.mpr reach), if_pos here]
            by_cases large : maxBytes < out.length + chunk.bytes.length
            · simp [large]
            · simp [large, not_lt.mp large]
          · have later : ¬ pre.length + 4 - out.length ≤ chunk.bytes.length := by omega
            rw [if_neg (fun found => reach (complete.mp found)), if_neg later]
            by_cases large : maxBytes < out.length + chunk.bytes.length
            · simp only [large, if_true, reduceCtorEq, false_iff]
              omega
            · have step := ih quietTail first (by rw [List.length_append]; omega)
              rw [List.length_append] at step
              rw [if_neg large, step, Nat.sub_add_eq, Nat.add_assoc]

/-- **The verdict on a head, exactly.** On a stream with a head, whatever
follows it and however it is cut, the loop returns `Ok` if and only if the
bytes on hand when the head is complete are within the limit. -/
theorem readHttpHead_ok_iff_arrived (maxBytes : Nat) (events : List RecvEvent) (pre post : Bytes)
    (quiet : ∀ event ∈ events, event.quiet = true)
    (first : cut terminator (received events) = some (pre, post)) :
    (readHttpHead maxBytes events []).1 = .ok ↔
      arrived events (pre.length + 4) ≤ maxBytes := by
  have whole : cut terminator ([] ++ received events) = some (pre, post) := first
  have verdict := @readHttpHead_ok_iff maxBytes events [] pre post quiet whole (by simp)
  simpa using verdict

/-- A request whose head of 18 bytes came with 300 bytes of body. -/
def bodyInSegment : Chunk :=
  ⟨ascii "GET / HTTP/1.1\r\n\r\n" ++ List.replicate 300 120, by decide +kernel, by decide +kernel⟩

/-- The same bytes in two segments, the head alone in the first. -/
def headAlone : List RecvEvent :=
  [.data ⟨ascii "GET / HTTP/1.1\r\n\r\n", by decide, by decide⟩,
    .data ⟨List.replicate 300 120, by decide +kernel, by decide +kernel⟩]

theorem headAlone_ok :
    cut terminator (received headAlone) =
        some (ascii "GET / HTTP/1.1", List.replicate 300 120) ∧
      ((readHttpHead 256 headAlone []).1 = .ok ↔ arrived headAlone 18 ≤ 256) :=
  ⟨by decide +kernel,
    readHttpHead_ok_iff_arrived 256 headAlone (ascii "GET / HTTP/1.1") (List.replicate 300 120)
      (by decide +kernel) (by decide +kernel)⟩

/-- A head far below the limit is refused because of the body bytes that
shared its segment; the same stream with the head alone in its segment is not. -/
theorem segmentation_counterexample :
    (ascii "GET / HTTP/1.1\r\n\r\n").length ≤ 256 ∧
      cut terminator (received [.data bodyInSegment]) =
        some (ascii "GET / HTTP/1.1", List.replicate 300 120) ∧
      received [.data bodyInSegment] = received headAlone ∧
      (readHttpHead 256 [.data bodyInSegment] []).1 = .tooLarge ∧
      (readHttpHead 256 headAlone []).1 = .ok := by
  decide +kernel

/-! ### What a caller may rely on -/

/-- After `Ok` the buffer holds the terminator and extends what was there by
bytes of the stream, in order. -/
theorem readHttpHead_ok_buffer {maxBytes : Nat} {events : List RecvEvent} {out raw : Bytes}
    (h : readHttpHead maxBytes events out = (.ok, raw)) :
    terminator <:+: raw ∧ raw <+: out ++ received events := by
  induction events generalizing out with
  | nil => cases h
  | cons event events ih =>
      cases event with
      | timeout => cases h
      | error => cases h
      | closed => cases h
      | interrupted => exact ih h
      | data chunk =>
          have assoc : out ++ received (.data chunk :: events) =
              (out ++ chunk.bytes) ++ received events := by
            rw [received_cons, List.append_assoc]
            rfl
          rw [assoc]
          rw [readHttpHead] at h
          split at h
          · cases h
          · split at h
            · rename_i found
              cases h
              exact ⟨cut_isSome_iff.mp found, List.prefix_append _ _⟩
            · exact ih h

/-- A stream that is within the limit as a whole, body included, is read. -/
theorem readHttpHead_ok_of_within {maxBytes : Nat} {events : List RecvEvent}
    (quiet : ∀ event ∈ events, event.quiet = true) (head : terminator <:+: received events)
    (within : (received events).length ≤ maxBytes) :
    (readHttpHead maxBytes events []).1 = .ok := by
  obtain ⟨⟨pre, post⟩, first⟩ := Option.isSome_iff_exists.mp (cut_isSome_iff.mpr head)
  have whole : cut terminator ([] ++ received events) = some (pre, post) := first
  have bound : arrived events (pre.length + 4) ≤ (received events).length := arrived_le _ _
  refine (readHttpHead_ok_iff quiet whole (by simp)).mpr ?_
  simpa using bound.trans within

end Nshgeoip
