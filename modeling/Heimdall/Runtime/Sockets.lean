import Heimdall.Runtime.LogStream

/-!
# Messages on a socket

A message ends with a line feed. What arrives on a socket comes in pieces of any size, of which
`recv` takes at most what it is asked for. A connection with one answer is read up to its line feed,
which has to be the end (`receiveLine`). A connection with a stream of messages keeps what it has
read beyond a line feed in a buffer for the next message (`FramedSocket.receive`). Neither result
depends on the pieces.
-/

namespace Heimdall

/-- `recv`: up to `n` bytes of what arrives next, and what is left; nothing at the end. -/
def recv (n : ℕ) : List (List UInt8) → List UInt8 × List (List UInt8)
  | [] => ([], [])
  | [] :: chunks => recv n chunks
  | (b :: chunk) :: chunks => ((b :: chunk).take n, (b :: chunk).drop n :: chunks)

section Recv

variable {n : ℕ} {chunks : List (List UInt8)}

theorem recv_append (n : ℕ) (chunks : List (List UInt8)) :
    (recv n chunks).1 ++ (recv n chunks).2.flatten = chunks.flatten := by
  induction chunks with
  | nil => rfl
  | cons chunk chunks ih =>
    cases chunk with
    | nil => exact ih
    | cons b chunk => rw [recv, List.flatten_cons, ← List.append_assoc, List.take_append_drop]; rfl

/-- The end is seen only when nothing is left. -/
theorem flatten_eq_nil_of_recv (hn : 0 < n) (h : (recv n chunks).1 = []) : chunks.flatten = [] := by
  induction chunks with
  | nil => rfl
  | cons chunk chunks ih =>
    cases chunk with
    | nil => exact ih h
    | cons b chunk =>
      rw [recv, List.take_eq_nil_iff] at h
      rcases h with h | h
      · omega
      · cases h

theorem length_recv (n : ℕ) (chunks : List (List UInt8)) : (recv n chunks).1.length ≤ n := by
  induction chunks with
  | nil => exact Nat.zero_le n
  | cons chunk chunks ih =>
    cases chunk with
    | nil => exact ih
    | cons b chunk => exact List.length_take_le _ _

theorem length_flatten_recv (h : (recv n chunks).1 ≠ []) :
    (recv n chunks).2.flatten.length < chunks.flatten.length := by
  have hlength := congrArg List.length (recv_append n chunks)
  have hpos := List.length_pos_iff.mpr h
  rw [List.length_append] at hlength
  omega

end Recv

def receiveChunkBytes : ℕ := 8192

/-! ## A stream of messages -/

/-- `_FramedSocket`, with what will arrive on its connection. -/
structure FramedSocket where
  buffer : List UInt8
  chunks : List (List UInt8)

namespace FramedSocket

/-- What has been read and not taken, and what will arrive. -/
def bytes (socket : FramedSocket) : List UInt8 := socket.buffer ++ socket.chunks.flatten

/-- The buffer up to its first line feed. -/
def line (socket : FramedSocket) : List UInt8 := socket.buffer.takeWhile (· != lineFeed)

/-- What `receive` asks the connection for. -/
def more (limit : ℕ) (socket : FramedSocket) : List UInt8 × List (List UInt8) :=
  recv (min receiveChunkBytes (limit + 1 - socket.buffer.length)) socket.chunks

def receive (limit : ℕ) (socket : FramedSocket) : Except Exc (List UInt8) × FramedSocket :=
  if lineFeed ∈ socket.buffer then
    if limit < socket.line.length then (.error .value, socket)
    else (.ok socket.line, { socket with buffer := socket.buffer.drop (socket.line.length + 1) })
  else if limit < socket.buffer.length then (.error .value, socket)
  else if (socket.more limit).1 = [] then
    (.error .value, { socket with chunks := (socket.more limit).2 })
  else receive limit
    { buffer := socket.buffer ++ (socket.more limit).1, chunks := (socket.more limit).2 }
termination_by socket.chunks.flatten.length
decreasing_by exact length_flatten_recv ‹_›

/-- The next message is received whichever way it arrives, and nothing is lost of what follows. -/
theorem receive_message {limit : ℕ} {socket : FramedSocket} {content rest : List UInt8}
    (hcontent : lineFeed ∉ content) (hlimit : content.length ≤ limit)
    (hbytes : socket.bytes = content ++ lineFeed :: rest) :
    ∃ socket' : FramedSocket, socket.receive limit = (.ok content, socket')
      ∧ socket'.bytes = rest := by
  induction hlen : socket.chunks.flatten.length using Nat.strong_induction_on
    generalizing socket with
  | _ k ih =>
    subst hlen
    obtain ⟨buffer, chunks⟩ := socket
    by_cases hfeed : lineFeed ∈ buffer
    · obtain ⟨before, after, rfl, hbefore⟩ := List.eq_append_cons_of_mem hfeed
      rw [bytes, List.append_assoc, List.cons_append] at hbytes
      have hline := congrArg (List.takeWhile (· != lineFeed)) hbytes
      rw [takeWhile_lineFeed hbefore, takeWhile_lineFeed hcontent] at hline
      subst hline
      have hrest := (List.cons.inj (List.append_cancel_left hbytes)).2
      have htake : FramedSocket.line ⟨before ++ lineFeed :: after, chunks⟩ = before :=
        takeWhile_lineFeed hbefore after
      refine ⟨⟨after, chunks⟩, ?_, hrest⟩
      rw [receive, if_pos hfeed, htake, if_neg (not_lt.mpr hlimit)]
      simp
    · -- the line feed is still to come, so the buffer is a part of the message
      change buffer ++ chunks.flatten = content ++ lineFeed :: rest at hbytes
      have hprefix : buffer <+: content := by
        rcases List.append_eq_append_iff.mp hbytes with ⟨tail, rfl, -⟩ | ⟨tail, rfl, htail⟩
        · exact List.prefix_append buffer tail
        · cases tail with
          | nil => simp
          | cons b tail => exact absurd (by simp [(List.cons.inj htail).1]) hfeed
      have hbuffer : buffer.length ≤ limit := hprefix.length_le.trans hlimit
      have hpos : 0 < min receiveChunkBytes (limit + 1 - buffer.length) :=
        Nat.lt_min.mpr ⟨by decide, by omega⟩
      have hmore : (more limit ⟨buffer, chunks⟩).1 ≠ [] := by
        intro hnil
        rw [flatten_eq_nil_of_recv hpos hnil, List.append_nil] at hbytes
        exact hfeed (by rw [hbytes]; simp)
      rw [receive, if_neg hfeed, if_neg (not_lt.mpr hbuffer), if_neg hmore]
      refine ih _ (length_flatten_recv hmore) ?_ rfl
      rw [← hbytes, bytes, List.append_assoc, more, recv_append]

end FramedSocket

/-! ## A single message -/

/-- `_receive_line`, after some of the message has been received. -/
def receiveLine (limit : ℕ) (received : List UInt8) (chunks : List (List UInt8)) :
    Except Exc (List UInt8) :=
  let part := recv (min receiveChunkBytes (limit + 1 - received.length)) chunks
  if part.1 = [] then .error .value
  else if limit < (received ++ part.1).length then .error .value
  else if lineFeed ∈ part.1 then
    let line := (received ++ part.1).takeWhile (· != lineFeed)
    if (received ++ part.1).drop (line.length + 1) ≠ [] then .error .value else .ok line
  else receiveLine limit (received ++ part.1) part.2
termination_by chunks.flatten.length
decreasing_by exact length_flatten_recv ‹_›

/-- A message that ends the connection is received whichever way it arrives. -/
theorem receiveLine_message {limit : ℕ} {received content : List UInt8}
    {chunks : List (List UInt8)} (hcontent : lineFeed ∉ content) (hlimit : content.length < limit)
    (hreceived : lineFeed ∉ received)
    (hbytes : received ++ chunks.flatten = content ++ [lineFeed]) :
    receiveLine limit received chunks = .ok content := by
  induction hlen : chunks.flatten.length using Nat.strong_induction_on
    generalizing received chunks with
  | _ k ih =>
    subst hlen
    have hlength := congrArg List.length hbytes
    simp only [List.length_append, List.length_singleton] at hlength
    have hne : chunks.flatten ≠ [] := by
      intro hnil
      rw [hnil, List.append_nil] at hbytes
      exact hreceived (by rw [hbytes]; simp)
    have hpos : 0 < min receiveChunkBytes (limit + 1 - received.length) := by
      have := List.length_pos_iff.mpr hne
      exact Nat.lt_min.mpr ⟨by decide, by omega⟩
    have hpart : (recv (min receiveChunkBytes (limit + 1 - received.length)) chunks).1 ≠ [] :=
      fun hnil ↦ hne (flatten_eq_nil_of_recv hpos hnil)
    have happend := recv_append (min receiveChunkBytes (limit + 1 - received.length)) chunks
    have hlater := length_flatten_recv hpart
    rw [receiveLine]
    simp only [if_neg hpart]
    generalize recv (min receiveChunkBytes (limit + 1 - received.length)) chunks = part
      at hpart happend hlater ⊢
    obtain ⟨chunk, later⟩ := part
    simp only at hpart happend hlater ⊢
    rw [← happend, ← List.append_assoc] at hbytes
    have hsize : ¬ limit < (received ++ chunk).length := by
      have := congrArg List.length hbytes
      simp only [List.length_append, List.length_singleton] at this ⊢
      omega
    rw [if_neg hsize]
    by_cases hfeed : lineFeed ∈ chunk
    · -- the only line feed is the last byte, so nothing follows what has been received
      obtain ⟨before, after, rfl, hbefore⟩ := List.eq_append_cons_of_mem hfeed
      have hnotin : lineFeed ∉ received ++ before := by simp [hreceived, hbefore]
      have hline := congrArg (List.takeWhile (· != lineFeed)) hbytes
      rw [← List.append_assoc, List.append_assoc, List.cons_append, takeWhile_lineFeed hnotin,
        takeWhile_lineFeed hcontent] at hline
      have hafter : after = [] := by
        rw [← hline] at hbytes
        have := congrArg List.length hbytes
        simp only [List.length_append, List.length_cons, List.length_nil] at this
        exact List.length_eq_zero_iff.mp (by omega)
      subst hafter
      rw [if_pos hfeed, ← List.append_assoc, takeWhile_lineFeed hnotin, hline]
      rw [if_neg]
      rw [not_not, List.drop_eq_nil_iff, ← hline]
      simp only [List.length_append, List.length_singleton]
      omega
    · rw [if_neg hfeed]
      exact ih _ hlater (by simp [hreceived, hfeed]) hbytes rfl

end Heimdall
