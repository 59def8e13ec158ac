import Heimdall.Runtime.LogReader
import Heimdall.Runtime.Sockets
import Heimdall.Text.Wire

/-!
# The stream of a service log over a socket

The runtime worker sends the events of a subscription as JSON frames, one to a line, with heartbeats
between them (`encodeEvent`); the other side reads the frames from its socket and the events from the
frames (`decodeEvent`). A frame has a limit on both sides. The limit is eight times the bound of a
message, and a message is escaped to at most six times its bytes, so that no event is too large.
-/

namespace Heimdall

open Json (Value)

def serviceLogStreamMaxFrameBytes : ℕ := 128 * 1024

/-- The value of a stream. -/
def ServiceLogStream.value : ServiceLogStream → String
  | .stdout => "STDOUT"
  | .stderr => "STDERR"

/-- `ServiceLogStream(value)` -/
def ServiceLogStream.ofValue : Option Value → Option ServiceLogStream
  | some (.str "STDOUT") => some .stdout
  | some (.str "STDERR") => some .stderr
  | _ => none

theorem ServiceLogStream.ofValue_value (stream : ServiceLogStream) :
    ofValue (some (.str stream.value)) = some stream := by
  cases stream <;> rfl

/-! ## Frames -/

/-- `_encode` -/
def encodeFrame (value : Value) : Except Exc (List UInt8) :=
  if serviceLogStreamMaxFrameBytes < (Json.dumpsBytes value).length then .error logsUnavailable
  else .ok (Json.dumpsBytes value ++ [lineFeed])

/-- The object a frame holds; no event stands for a heartbeat. -/
def frameValue : Option ServiceLogStreamEvent → Value
  | none => .obj [("type", .str "heartbeat")]
  | some .ended => .obj [("type", .str "end"), ("reason", .str "CONTAINER_LOG_ENDED")]
  | some (.line line truncated) => .obj [("type", .str "log"), ("timestamp", .str line.timestamp),
      ("stream", .str line.stream.value), ("message", .str line.message),
      ("truncated", .bool truncated)]

/-- `_encode_event` and `_encode_heartbeat` -/
def encodeEvent (event : Option ServiceLogStreamEvent) : Except Exc (List UInt8) :=
  encodeFrame (frameValue event)

/-- The keys of an object are these. -/
def hasKeys (fields : List (String × Value)) (names : List String) : Bool :=
  (fields.all fun field ↦ names.contains field.1) && names.all fun name ↦ (fields.lookup name).isSome

def streamErrorCodes : List String :=
  ["SERVICE_LOG_SERVICE_NOT_FOUND", "SERVICE_LOGS_UNAVAILABLE", "SERVICE_LOG_REDACTION_UNAVAILABLE",
    "RUNTIME_LOG_STREAM_BUSY"]

/-- The exception a frame with an error stands for: a code that is a list or an object is in no set. -/
def streamError : Option Value → Exc
  | some (.str code) =>
    if code ∈ streamErrorCodes ∨ code = "RUNTIME_LOG_STREAM_UNAVAILABLE" then .serviceLog code
    else .serviceLog "RUNTIME_LOG_STREAM_UNAVAILABLE"
  | some (.arr _) | some (.obj _) => .other
  | _ => .serviceLog "RUNTIME_LOG_STREAM_UNAVAILABLE"

/-- The line of a frame with the fields of a line. -/
def decodeLogFields (fields : List (String × Value)) : Except Exc (Option ServiceLogStreamEvent) :=
  match fields.lookup "timestamp", fields.lookup "message", fields.lookup "truncated" with
  | some (.str timestamp), some (.str message), some (.bool truncated) =>
    if timestamp = "" ∨ serviceLogMaxLineBytes < message.utf8ByteSize then .error .value
    else match ServiceLogStream.ofValue (fields.lookup "stream") with
      | none => .error .value
      | some stream => .ok (some (.line ⟨timestamp, stream, message⟩ truncated))
  | _, _, _ => .error .value

/-- `_decode_event` -/
def decodeEvent (payload : List UInt8) : Except Exc (Option ServiceLogStreamEvent) :=
  match Json.loadsBytes payload with
  | some (.obj fields) =>
    match fields.lookup "type" with
    | some (.str "heartbeat") => if hasKeys fields ["type"] then .ok none else .error .value
    | some (.str "stream-error") =>
      if hasKeys fields ["type", "code"] then .error (streamError (fields.lookup "code"))
      else .error .value
    | some (.str "end") =>
      if hasKeys fields ["type", "reason"] then
        match fields.lookup "reason" with
        | some (.str "CONTAINER_LOG_ENDED") => .ok (some .ended)
        | _ => .error .value
      else .error .value
    | some (.str "log") =>
      if hasKeys fields ["type", "timestamp", "stream", "message", "truncated"] then
        decodeLogFields fields
      else .error .value
    | _ => .error .value
  | _ => .error .value

/-! ## What a subscription sends -/

/-- An event a subscription returns. -/
def Sent (event : ServiceLogStreamEvent) : Prop :=
  ∃ redactions items rest, receive redactions items = (.ok (some event), rest)

/-- The bounds of an event that is sent. -/
def Bounded : ServiceLogStreamEvent → Prop
  | .ended => True
  | .line line _ => line.timestamp ≠ "" ∧ line.timestamp.length ≤ 35
      ∧ line.message.utf8ByteSize ≤ serviceLogMaxLineBytes

theorem length_encode_le (cs : List Char) : (Utf8.encode cs).length ≤ 4 * cs.length := by
  induction cs with
  | nil => exact Nat.le_refl 0
  | cons c cs ih =>
    have hc := Utf8.length_encodeChar_le c
    rw [Json.length_encode_cons, List.length_cons]
    omega

theorem bounded_of_logLine {redactions : List (List UInt8)} {output : CommandOutputLine}
    {event : ServiceLogStreamEvent} (h : logLine redactions output = some event) :
    Bounded event := by
  unfold logLine at h
  cases hsplit : splitTimestamp output.payload with
  | none => rw [hsplit] at h; cases h
  | some timed =>
    obtain ⟨timestamp, message⟩ := timed
    rw [hsplit] at h
    obtain rfl := (Option.some.inj h).symm
    rw [splitTimestamp_eq] at hsplit
    split at hsplit
    next hstamp =>
      obtain ⟨rfl, -⟩ := Prod.mk.inj (Option.some.inj hsplit)
      have hvalid := (Bool.and_eq_true_iff.mp hstamp).2
      have hshort := length_of_isDockerTimestamp hvalid
      refine ⟨fun hempty ↦ ?_, by rwa [String.length_ofList], ?_⟩
      · rw [String.ofList_eq_empty_iff] at hempty
        rw [hempty] at hvalid
        exact absurd hvalid (by decide)
      · rw [Utf8.utf8ByteSize_ofList]
        have hbounded := length_boundedUtf8 (Utf8.decode id (fun c _ ↦ c) (fun _ ↦ ['\uFFFD'])
          ((Text.redact id (Utf8.encode redactionMark.toList) redactions message).take
            serviceLogMaxLineBytes)) serviceLogMaxLineBytes
        rwa [show List.map Text.Symbol.char = (id : List Char → List Char) from
          funext List.map_id] at hbounded
    next => cases hsplit

/-- What a subscription returns is bounded, whatever it reads. -/
theorem bounded_of_sent {event : ServiceLogStreamEvent} (h : Sent event) : Bounded event := by
  obtain ⟨redactions, items, rest, hreceive⟩ := h
  induction items with
  | nil => cases hreceive
  | cons item items ih =>
    cases item with
    | idle => cases hreceive
    | ended returncode =>
      rw [receive] at hreceive
      split at hreceive
      · cases hreceive
      · obtain rfl := Option.some.inj (Except.ok.inj (Prod.mk.inj hreceive).1)
        trivial
    | line output =>
      rw [receive] at hreceive
      split at hreceive
      next event' hline =>
        obtain rfl := Option.some.inj (Except.ok.inj (Prod.mk.inj hreceive).1)
        exact bounded_of_logLine hline
      next => exact ih hreceive

/-! ## Sizes -/

theorem printable_frameValue (event : Option ServiceLogStreamEvent) :
    (frameValue event).Printable := by
  obtain _ | ⟨line, truncated⟩ | _ := event <;>
    simp [frameValue, Value.Printable, Value.PrintableFields]

theorem length_dumpsBytes_line (line : ServiceLogLine) (truncated : Bool) :
    (Json.dumpsBytes (frameValue (some (.line line truncated)))).length
      ≤ 6 * (Utf8.encode line.timestamp.toList).length + 6 * line.message.utf8ByteSize + 128 := by
  have htimestamp := Json.length_encode_printString line.timestamp
  have hmessage := Json.length_encode_printString line.message
  have hstream : (Utf8.encode (Json.printString false line.stream.value)).length ≤ 8 := by
    cases line.stream <;> decide
  have hflag : (Utf8.encode (Json.print false (.bool truncated))).length ≤ 5 := by
    cases truncated <;> decide
  have hkeys : (Utf8.encode (Json.printString false "type")).length
      + (Utf8.encode (Json.printString false "timestamp")).length
      + (Utf8.encode (Json.printString false "stream")).length
      + (Utf8.encode (Json.printString false "message")).length
      + (Utf8.encode (Json.printString false "truncated")).length
      + (Utf8.encode (Json.printString false "log")).length = 50 := by decide
  have hbyte : ∀ c ∈ ['{', ':', ',', '}'], (String.utf8EncodeChar c).length = 1 := by
    simp only [List.forall_mem_cons, List.not_mem_nil, false_implies, implies_true, and_true]
    decide
  simp only [List.forall_mem_cons, List.not_mem_nil, false_implies, implies_true, and_true] at hbyte
  obtain ⟨hopen, hcolon, hcomma, hclose⟩ := hbyte
  have hsize : line.message.utf8ByteSize = (Utf8.encode line.message.toList).length := by
    rw [← Utf8.utf8ByteSize_ofList, String.ofList_toList]
  simp only [Json.dumpsBytes, frameValue, Json.print, Json.printFields, Utf8.encode_append,
    Json.length_encode_cons, List.length_append, hopen, hcolon, hcomma, hclose,
    show Utf8.encode [] = [] from rfl, List.length_nil]
  omega

/-- No event that is sent exceeds the limit of a frame. -/
theorem encodeEvent_ok {event : Option ServiceLogStreamEvent} (h : ∀ e ∈ event, Bounded e) :
    encodeEvent event = .ok (Json.dumpsBytes (frameValue event) ++ [lineFeed])
      ∧ (Json.dumpsBytes (frameValue event)).length ≤ serviceLogStreamMaxFrameBytes := by
  have hle : (Json.dumpsBytes (frameValue event)).length ≤ serviceLogStreamMaxFrameBytes := by
    obtain _ | ⟨line, truncated⟩ | _ := event
    · decide
    · obtain ⟨-, htimestamp, hmessage⟩ : Bounded (.line line truncated) := h _ rfl
      have hframe := length_dumpsBytes_line line truncated
      have hbytes := length_encode_le line.timestamp.toList
      rw [String.length_toList] at hbytes
      rw [serviceLogMaxLineBytes] at hmessage
      rw [serviceLogStreamMaxFrameBytes]
      omega
    · decide
  exact ⟨if_neg (not_lt.mpr hle), hle⟩

/-! ## The way back -/

/-- The frame of an event is decoded to the event. -/
theorem decodeEvent_frame {event : Option ServiceLogStreamEvent} (h : ∀ e ∈ event, Bounded e) :
    decodeEvent (Json.dumpsBytes (frameValue event)) = .ok event := by
  rw [decodeEvent, Json.loadsBytes_dumpsBytes (printable_frameValue event)]
  obtain _ | ⟨line, truncated⟩ | _ := event
  · rfl
  · obtain ⟨htimestamp, -, hmessage⟩ : Bounded (.line line truncated) := h _ rfl
    have hfields : decodeLogFields [("type", .str "log"), ("timestamp", .str line.timestamp),
        ("stream", .str line.stream.value), ("message", .str line.message),
        ("truncated", .bool truncated)] = .ok (some (.line line truncated)) := by
      rw [decodeLogFields]
      simp [List.lookup, htimestamp, hmessage, ServiceLogStream.ofValue_value]
    exact hfields
  · rfl

/-! ## The stream -/

/-- The next event from a socket. -/
def FramedSocket.receiveEvent (socket : FramedSocket) :
    Except Exc (Option ServiceLogStreamEvent) × FramedSocket :=
  match socket.receive serviceLogStreamMaxFrameBytes with
  | (.error x, socket) => (.error x, socket)
  | (.ok payload, socket) => (decodeEvent payload, socket)

/-- The next `n` events from a socket. -/
def FramedSocket.receiveEvents : ℕ → FramedSocket →
    Except Exc (List (Option ServiceLogStreamEvent)) × FramedSocket
  | 0, socket => (.ok [], socket)
  | n + 1, socket =>
    match socket.receiveEvent with
    | (.error x, socket) => (.error x, socket)
    | (.ok event, socket) =>
      let (events, socket) := socket.receiveEvents n
      (events.map (event :: ·), socket)

/-- One event is received as it was sent, and what follows is left. -/
theorem receiveEvent_frame {event : Option ServiceLogStreamEvent} (h : ∀ e ∈ event, Bounded e)
    {socket : FramedSocket} {rest : List UInt8}
    (hbytes : socket.bytes = Json.dumpsBytes (frameValue event) ++ lineFeed :: rest) :
    ∃ socket' : FramedSocket, socket.receiveEvent = (.ok event, socket')
      ∧ socket'.bytes = rest := by
  obtain ⟨socket', hreceive, hrest⟩ := FramedSocket.receive_message
    (Json.notMem_dumpsBytes (by decide) _) (encodeEvent_ok h).2 hbytes
  refine ⟨socket', ?_, hrest⟩
  rw [FramedSocket.receiveEvent, hreceive]
  simp only [decodeEvent_frame h]

/-- Every event a subscription returns fits a frame, and whichever way the frames arrive, with
heartbeats between them, the other side receives the same events in the same order. -/
theorem events_received (events : List (Option ServiceLogStreamEvent))
    (hsent : ∀ event, some event ∈ events → Sent event) :
    ∃ frames, events.mapM encodeEvent = .ok frames
      ∧ ∀ socket : FramedSocket, socket.bytes = frames.flatten →
        ∃ socket' : FramedSocket, socket.receiveEvents events.length = (.ok events, socket')
          ∧ socket'.bytes = [] := by
  induction events with
  | nil => exact ⟨[], rfl, fun socket hbytes ↦ ⟨socket, rfl, hbytes⟩⟩
  | cons event events ih =>
    have hbounded : ∀ e ∈ event, Bounded e := by
      rintro e rfl
      exact bounded_of_sent (hsent e List.mem_cons_self)
    obtain ⟨frames, hframes, hreceived⟩ := ih fun e he ↦ hsent e (List.mem_cons_of_mem _ he)
    refine ⟨(Json.dumpsBytes (frameValue event) ++ [lineFeed]) :: frames, ?_, ?_⟩
    · rw [List.mapM_cons, (encodeEvent_ok hbounded).1, hframes]
      rfl
    · intro socket hbytes
      rw [List.flatten_cons, List.append_assoc, List.singleton_append] at hbytes
      obtain ⟨socket₁, hevent, hrest⟩ := receiveEvent_frame hbounded hbytes
      obtain ⟨socket₂, hevents, hend⟩ := hreceived socket₁ hrest
      refine ⟨socket₂, ?_, hend⟩
      rw [List.length_cons, FramedSocket.receiveEvents, hevent]
      simp only [hevents]
      rfl

def sampleEvent : ServiceLogStreamEvent :=
  .line ⟨"2026-08-07T01:00:00Z", .stdout, "ready\x1b"⟩ false

theorem sent_sampleEvent : Sent sampleEvent :=
  ⟨[], [.line ⟨.stdout, Utf8.encode "2026-08-07T01:00:00Z ready\x1b".toList, false⟩], [], rfl⟩

theorem sent_ended : Sent .ended := ⟨[], [.ended 0], [], rfl⟩

theorem events_received_sample : ∃ frames,
    [some sampleEvent, none, some .ended].mapM encodeEvent = .ok frames
      ∧ ∀ socket : FramedSocket, socket.bytes = frames.flatten →
        ∃ socket' : FramedSocket,
          socket.receiveEvents 3 = (.ok [some sampleEvent, none, some .ended], socket')
            ∧ socket'.bytes = [] :=
  events_received [some sampleEvent, none, some .ended] (by
    intro event hevent
    simp only [List.mem_cons, Option.some.injEq, reduceCtorEq, List.not_mem_nil, or_false,
      false_or] at hevent
    obtain rfl | rfl := hevent
    · exact sent_sampleEvent
    · exact sent_ended)

end Heimdall
