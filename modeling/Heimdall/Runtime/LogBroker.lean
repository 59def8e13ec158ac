import Heimdall.Effect.Fallible
import Heimdall.Projects.Configuration
import Heimdall.Runtime.LogStreamBroker
import Heimdall.Text.Datetime
import Heimdall.Text.Redaction

/-!
# A snapshot of a service log over a socket

The runtime worker answers a request for the log of a service with one JSON message. A message has a
limit; while the snapshot does not fit, its oldest line is left out and the rest marked as truncated
(`encodeSnapshot`). The other side reads the message from its socket and checks what it holds
(`decodeSnapshot`).
-/

namespace Heimdall

open Json (Value)

def serviceLogMaxResponseBytes : ℕ := 256 * 1024

/-! ## Sending -/

def lineValue (line : ServiceLogLine) : Value :=
  .obj [("timestamp", .str line.timestamp), ("stream", .str line.stream.value),
    ("message", .str line.message)]

/-- `retrieved_at.isoformat().replace("+00:00", "Z")` -/
def timeText (t : Time) : String :=
  String.ofList (Text.replace id "+00:00".toList ['Z'] (Datetime.isoformat t))

/-- What a message says of a snapshot of which some lines are left. -/
def snapshotValue (snapshot : ServiceLogSnapshot) (lines : List ServiceLogLine) (truncated : Bool) :
    Value :=
  .obj [("ok", .bool true), ("deploymentId", .str snapshot.deploymentId.str),
    ("services", .arr (snapshot.services.map .str)), ("serviceName", .str snapshot.serviceName),
    ("retrievedAt", .str (timeText snapshot.retrievedAt)), ("lines", .arr (lines.map lineValue)),
    ("truncated", .bool truncated)]

/-- The message, with its line feed. -/
def snapshotFrame (snapshot : ServiceLogSnapshot) (lines : List ServiceLogLine) (truncated : Bool) :
    List UInt8 :=
  Json.dumpsBytes (snapshotValue snapshot lines truncated) ++ [lineFeed]

/-- The loop of `_encode_snapshot`, with the lines that are left. -/
def encodeLines (snapshot : ServiceLogSnapshot) : List ServiceLogLine → Bool →
    Except Exc (List UInt8)
  | [], truncated =>
    if (snapshotFrame snapshot [] truncated).length ≤ serviceLogMaxResponseBytes then
      .ok (snapshotFrame snapshot [] truncated)
    else .error logsUnavailable
  | line :: lines, truncated =>
    if (snapshotFrame snapshot (line :: lines) truncated).length ≤ serviceLogMaxResponseBytes then
      .ok (snapshotFrame snapshot (line :: lines) truncated)
    else encodeLines snapshot lines true

/-- `_encode_snapshot` -/
def encodeSnapshot (snapshot : ServiceLogSnapshot) : Except Exc (List UInt8) :=
  encodeLines snapshot snapshot.lines snapshot.truncated

/-! ## Receiving -/

def publicErrorCodes : List String :=
  ["SERVICE_LOG_SERVICE_NOT_FOUND", "SERVICE_LOGS_UNAVAILABLE", "SERVICE_LOG_REDACTION_UNAVAILABLE"]

/-- The exception of a message with an error: a code that is a list or an object is in no set. -/
def responseError : Option Value → Exc
  | some (.obj error) =>
    match error.lookup "code" with
    | some (.str code) =>
      if code ∈ publicErrorCodes then .serviceLog code
      else .serviceLog "RUNTIME_LOG_BROKER_UNAVAILABLE"
    | some (.arr _) | some (.obj _) => .other
    | _ => .serviceLog "RUNTIME_LOG_BROKER_UNAVAILABLE"
  | _ => .serviceLog "RUNTIME_LOG_BROKER_UNAVAILABLE"

/-- `_decode_line` -/
def decodeLine (value : Value) : Except Exc ServiceLogLine :=
  match value with
  | .obj fields =>
    if hasKeys fields ["timestamp", "stream", "message"] then
      match fields.lookup "timestamp", fields.lookup "message" with
      | some (.str timestamp), some (.str message) =>
        if timestamp = "" ∨ serviceLogMaxLineBytes < message.utf8ByteSize then .error .value
        else match ServiceLogStream.ofValue (fields.lookup "stream") with
          | none => .error .value
          | some stream => .ok ⟨timestamp, stream, message⟩
      | _, _ => .error .value
    else .error .value
  | _ => .error .value

/-- The name of a service. -/
def serviceNameOf : Value → Option String
  | .str name => if isServiceName name then some name else none
  | _ => none

/-- `datetime.fromisoformat(text.replace("Z", "+00:00"))` -/
def timeOf (text : String) : Option Time :=
  Datetime.fromisoformat (Text.replace id ['Z'] "+00:00".toList text.toList)

/-- The snapshot of a message whose deployment is the one asked for. -/
def decodeFields (fields : List (String × Value)) (deploymentId : Uuid) :
    Except Exc ServiceLogSnapshot :=
  match fields.lookup "services", fields.lookup "serviceName", fields.lookup "lines",
      fields.lookup "truncated", fields.lookup "retrievedAt" with
  | some (.arr rawServices), some (.str serviceName), some (.arr rawLines), some (.bool truncated),
      some (.str retrievedAt) =>
    match rawServices.mapM serviceNameOf with
    | none => .error .value
    | some services =>
      if services = [] ∨ ¬ services.Nodup ∨ serviceName ∉ services
          ∨ serviceLogTail < rawLines.length then .error .value
      else do
        let lines ← rawLines.mapM decodeLine
        match timeOf retrievedAt with
        | none => .error .value
        | some retrievedAt =>
          return { deploymentId, services, serviceName, retrievedAt, lines, truncated }
  | _, _, _, _, _ => .error .value

/-- `_decode_snapshot` -/
def decodeSnapshot (payload : List UInt8) (deploymentId : Uuid) : Except Exc ServiceLogSnapshot :=
  match Json.loadsBytes payload with
  | some (.obj fields) =>
    match fields.lookup "ok" with
    | some (.bool false) => .error (responseError (fields.lookup "error"))
    | some (.bool true) =>
      match fields.lookup "deploymentId" with
      | some (.str text) =>
        if text = deploymentId.str then decodeFields fields deploymentId else .error .value
      | _ => .error .value
    | _ => .error .value
  | _ => .error .value

/-! ## The way back -/

/-- What the other side requires of a snapshot. -/
structure ServiceLogSnapshot.Sound (snapshot : ServiceLogSnapshot) : Prop where
  services_valid : ∀ name ∈ snapshot.services, isServiceName name = true
  services_nodup : snapshot.services.Nodup
  serviceName_mem : snapshot.serviceName ∈ snapshot.services
  length_lines : snapshot.lines.length ≤ serviceLogTail
  lines_bounded : ∀ line ∈ snapshot.lines, line.timestamp ≠ ""
    ∧ line.message.utf8ByteSize ≤ serviceLogMaxLineBytes
  retrievedAt_lt : snapshot.retrievedAt < Datetime.maxTime

theorem timeOf_timeText {t : Time} (h : t < Datetime.maxTime) : timeOf (timeText t) = some t := by
  have htext : (timeText t).toList = Text.replace id "+00:00".toList ['Z'] (Datetime.isoformat t) :=
    String.toList_ofList
  rw [timeOf, htext, Text.replace_replace (by decide) (Datetime.notMem_isoformat t),
    Datetime.fromisoformat_isoformat h]

theorem decodeLine_lineValue {line : ServiceLogLine} (htimestamp : line.timestamp ≠ "")
    (hmessage : line.message.utf8ByteSize ≤ serviceLogMaxLineBytes) :
    decodeLine (lineValue line) = .ok line := by
  simp [decodeLine, lineValue, hasKeys, List.lookup, htimestamp, hmessage,
    ServiceLogStream.ofValue_value]

theorem printable_snapshotValue (snapshot : ServiceLogSnapshot) (lines : List ServiceLogLine)
    (truncated : Bool) : (snapshotValue snapshot lines truncated).Printable := by
  have hservices : Value.PrintableElems (snapshot.services.map .str) := by
    induction snapshot.services with
    | nil => trivial
    | cons name names ih => exact ⟨trivial, ih⟩
  have hlines : Value.PrintableElems (lines.map lineValue) := by
    induction lines with
    | nil => trivial
    | cons line lines ih =>
      refine ⟨?_, ih⟩
      simp [lineValue, Value.Printable, Value.PrintableFields]
  simp [snapshotValue, Value.Printable, Value.PrintableFields, hservices, hlines]

theorem mapM_decodeLine {lines : List ServiceLogLine} (h : ∀ line ∈ lines, line.timestamp ≠ ""
      ∧ line.message.utf8ByteSize ≤ serviceLogMaxLineBytes) :
    (lines.map lineValue).mapM decodeLine = .ok lines := by
  induction lines with
  | nil => rfl
  | cons line lines ih =>
    have hline := h line List.mem_cons_self
    rw [List.map_cons, List.mapM_cons, decodeLine_lineValue hline.1 hline.2,
      ih fun l hl ↦ h l (List.mem_cons_of_mem _ hl)]
    rfl

theorem mapM_serviceNameOf {services : List String}
    (h : ∀ name ∈ services, isServiceName name = true) :
    (services.map Value.str).mapM serviceNameOf = some services := by
  induction services with
  | nil => rfl
  | cons name names ih =>
    rw [List.map_cons, List.mapM_cons, serviceNameOf, if_pos (h name List.mem_cons_self),
      ih fun n hn ↦ h n (List.mem_cons_of_mem _ hn)]
    rfl

/-- A message is decoded to the snapshot with the lines that are left. -/
theorem decodeSnapshot_frame {snapshot : ServiceLogSnapshot} (h : snapshot.Sound)
    {lines : List ServiceLogLine} (hlines : lines <:+ snapshot.lines) (truncated : Bool) :
    decodeSnapshot (Json.dumpsBytes (snapshotValue snapshot lines truncated)) snapshot.deploymentId
      = .ok { snapshot with lines := lines, truncated := truncated } := by
  have hbounded := mapM_decodeLine fun line hline ↦ h.lines_bounded line (hlines.subset hline)
  have hcount : ¬ serviceLogTail < (lines.map lineValue).length := by
    rw [List.length_map, not_lt]
    exact hlines.length_le.trans h.length_lines
  have hnonempty : snapshot.services ≠ [] := List.ne_nil_of_mem h.serviceName_mem
  have hchecks : ¬ (snapshot.services = [] ∨ ¬ snapshot.services.Nodup
      ∨ snapshot.serviceName ∉ snapshot.services ∨ serviceLogTail < (lines.map lineValue).length) := by
    rintro (hnil | hnodup | hmem | hlong)
    · exact hnonempty hnil
    · exact hnodup h.services_nodup
    · exact hmem h.serviceName_mem
    · exact hcount hlong
  rw [decodeSnapshot, Json.loadsBytes_dumpsBytes (printable_snapshotValue snapshot lines truncated)]
  change (if snapshot.deploymentId.str = snapshot.deploymentId.str then
      decodeFields [("ok", .bool true), ("deploymentId", .str snapshot.deploymentId.str),
        ("services", .arr (snapshot.services.map .str)), ("serviceName", .str snapshot.serviceName),
        ("retrievedAt", .str (timeText snapshot.retrievedAt)), ("lines", .arr (lines.map lineValue)),
        ("truncated", .bool truncated)] snapshot.deploymentId
    else Except.error Exc.value) = _
  rw [if_pos rfl, decodeFields]
  simp only [List.lookup, String.reduceBEq]
  simp only [mapM_serviceNameOf h.services_valid, if_neg hchecks, hbounded,
    timeOf_timeText h.retrievedAt_lt]
  rfl

/-! ## Leaving lines out -/

/-- The loop stops at the most lines that fit. -/
theorem encodeLines_spec {snapshot : ServiceLogSnapshot}
    (hbase : ∀ truncated, (snapshotFrame snapshot [] truncated).length ≤ serviceLogMaxResponseBytes)
    (lines : List ServiceLogLine) (truncated : Bool) :
    ∃ dropped rest, lines = dropped ++ rest
      ∧ encodeLines snapshot lines truncated
        = .ok (snapshotFrame snapshot rest (truncated || !dropped.isEmpty))
      ∧ (snapshotFrame snapshot rest (truncated || !dropped.isEmpty)).length
        ≤ serviceLogMaxResponseBytes
      ∧ ∀ dropped' rest', lines = dropped' ++ rest' → rest.length < rest'.length →
        serviceLogMaxResponseBytes
          < (snapshotFrame snapshot rest' (truncated || !dropped'.isEmpty)).length := by
  induction lines generalizing truncated with
  | nil =>
    refine ⟨[], [], rfl, ?_, ?_, ?_⟩
    · rw [encodeLines, if_pos (hbase truncated)]
      simp
    · simpa using hbase truncated
    · intro dropped' rest' hlines hlonger
      rw [(List.append_eq_nil_iff.mp hlines.symm).2] at hlonger
      exact absurd hlonger (Nat.lt_irrefl 0)
  | cons line lines ih =>
    by_cases hfits : (snapshotFrame snapshot (line :: lines) truncated).length
        ≤ serviceLogMaxResponseBytes
    · refine ⟨[], line :: lines, rfl, ?_, ?_, ?_⟩
      · rw [encodeLines, if_pos hfits]
        simp
      · simpa using hfits
      · intro dropped' rest' hlines hlonger
        rw [hlines, List.length_append] at hlonger
        omega
    · obtain ⟨dropped, rest, hlines, hencode, hle, hlongest⟩ := ih true
      refine ⟨line :: dropped, rest, by rw [hlines, List.cons_append], ?_, ?_, ?_⟩
      · rw [encodeLines, if_neg hfits, hencode]
        simp
      · simpa using hle
      · intro dropped' rest' hlines' hlonger
        cases dropped' with
        | nil =>
          rw [List.nil_append] at hlines'
          rw [← hlines']
          simpa using hfits
        | cons line' dropped' =>
          have hsplit := (List.cons.inj hlines').2
          simpa using hlongest dropped' rest' hsplit hlonger

/-! ## The limit without lines -/

theorem length_toList_le {name : String} (h : isServiceName name = true) :
    name.toList.length ≤ 32 := by
  unfold isServiceName at h
  split at h
  · cases h
  next c cs hname =>
    simp only [Bool.and_eq_true, decide_eq_true_eq] at h
    rw [hname, List.length_cons]
    omega

/-- A printed string of at most `n` characters. -/
theorem length_printString_le {s : String} {n : ℕ} (h : s.toList.length ≤ n) :
    (Utf8.encode (Json.printString false s)).length ≤ 24 * n + 2 := by
  have hprint := Json.length_encode_printString s
  have hbytes := length_encode_le s.toList
  omega

theorem length_printElems_le {services : List String}
    (h : ∀ name ∈ services, isServiceName name = true) :
    (Utf8.encode (Json.printElems false (services.map Value.str))).length
      ≤ 771 * services.length := by
  have hcomma : (String.utf8EncodeChar ',').length = 1 := by decide
  induction services with
  | nil => exact Nat.le_refl 0
  | cons name names ih =>
    have hname := length_printString_le (length_toList_le (h name List.mem_cons_self))
    have hnames := ih fun n hn ↦ h n (List.mem_cons_of_mem _ hn)
    rw [List.map_cons, Json.printElems, Json.print, Json.length_encode_cons, Utf8.encode_append,
      List.length_append, List.length_cons, hcomma]
    omega

theorem length_str (u : Uuid) : u.str.toList.length = 36 := by
  have hchars : u.chars.length = 32 := by rw [Uuid.chars, List.length_map, u.length_digits]
  rw [Uuid.str, String.toList_ofList]
  simp only [List.length_append, List.length_cons, List.length_take, List.length_drop, hchars]
  decide

theorem length_timeText (t : Time) : (timeText t).toList.length ≤ 32 := by
  rw [timeText, String.toList_ofList]
  exact (Text.length_replace_le (by decide) (by decide) _).trans (Datetime.length_isoformat t)

/-- A message without lines fits when the services are as few as a project may have. -/
theorem length_snapshotFrame_nil {snapshot : ServiceLogSnapshot} (h : snapshot.Sound)
    (hservices : snapshot.services.length ≤ 16) (truncated : Bool) :
    (snapshotFrame snapshot [] truncated).length ≤ serviceLogMaxResponseBytes := by
  have hid := length_printString_le (length_str snapshot.deploymentId).le
  have hname := length_printString_le
    (length_toList_le (h.services_valid _ h.serviceName_mem))
  have htime := length_printString_le (length_timeText snapshot.retrievedAt)
  have hflag : (Utf8.encode (Json.print false (.bool truncated))).length ≤ 5 := by
    cases truncated <;> decide
  have hkeys : (Utf8.encode (Json.printString false "ok")).length
      + (Utf8.encode (Json.printString false "deploymentId")).length
      + (Utf8.encode (Json.printString false "services")).length
      + (Utf8.encode (Json.printString false "serviceName")).length
      + (Utf8.encode (Json.printString false "retrievedAt")).length
      + (Utf8.encode (Json.printString false "lines")).length
      + (Utf8.encode (Json.printString false "truncated")).length
      + (Utf8.encode (Json.print false (.bool true))).length
      + (Utf8.encode (Json.print false (.arr []))).length = 78 := by decide
  have hlist : (Utf8.encode (Json.print false (.arr (snapshot.services.map .str)))).length
      ≤ 771 * snapshot.services.length + 2 := by
    have hopen : (String.utf8EncodeChar '[').length = 1 := by decide
    have hclose : (String.utf8EncodeChar ']').length = 1 := by decide
    have helems := length_printElems_le h.services_valid
    cases hcases : snapshot.services with
    | nil => exact absurd h.serviceName_mem (by rw [hcases]; simp)
    | cons name names =>
      have hprinted : (Utf8.encode (Json.printElems false ((name :: names).map Value.str))).length
          = (Utf8.encode (Json.print false (.str name))).length
            + (Utf8.encode (Json.printElems false (names.map Value.str))).length + 1 := by
        rw [List.map_cons, Json.printElems, Json.length_encode_cons, Utf8.encode_append,
          List.length_append, show (String.utf8EncodeChar ',').length = 1 from by decide]
        omega
      rw [hcases, hprinted] at helems
      rw [List.map_cons, Json.print, Json.length_encode_cons, Utf8.encode_append, Utf8.encode_append,
        List.length_append, List.length_append, Json.length_encode_cons, hopen, hclose,
        show Utf8.encode [] = [] from rfl, List.length_nil]
      omega
  have hopen : (String.utf8EncodeChar '{').length = 1 := by decide
  have hcolon : (String.utf8EncodeChar ':').length = 1 := by decide
  have hcomma : (String.utf8EncodeChar ',').length = 1 := by decide
  have hclose : (String.utf8EncodeChar '}').length = 1 := by decide
  rw [snapshotFrame, snapshotValue, Json.dumpsBytes, List.length_append, List.map_nil, Json.print]
  simp only [Json.printFields, Utf8.encode_append, Json.length_encode_cons, List.length_append,
    hopen, hcolon, hcomma, hclose, show Utf8.encode [] = [] from rfl, List.length_nil,
    List.length_singleton]
  have hstrings : ∀ s, Json.print false (.str s) = Json.printString false s := fun s ↦ by
    rw [Json.print]
  rw [hstrings, hstrings, hstrings, serviceLogMaxResponseBytes]
  omega

/-! ## What a reader produces -/

theorem requireList_ok {value : Value} {key message : String} {xs : List Value}
    (h : requireList value key message = .ok xs) : value.elemsAt key = xs := by
  unfold requireList at h
  split at h
  next x xs' hget =>
    obtain rfl := Except.ok.inj h
    rw [Value.elemsAt, hget]
  next => cases h

/-- A deployment runs the services its snapshot lists. -/
theorem length_services_of_fromDeployment {d : Deployment} {runtime : RuntimeDeployment}
    (h : RuntimeDeployment.fromDeployment d = .ok runtime) :
    runtime.services.length = (d.configSnapshot.elemsAt "services").length := by
  obtain ⟨-, -, h⟩ := bind_eq_ok h
  obtain ⟨rawServices, hservices, h⟩ := bind_eq_ok h
  obtain ⟨rawRoutes, -, h⟩ := bind_eq_ok h
  obtain ⟨services, hmap, h⟩ := bind_eq_ok h
  rw [requireList_ok hservices, (mapM_eq_ok hmap).length_eq]
  split at h
  case isFalse => cases h
  obtain ⟨known, -, h⟩ := bind_eq_ok h
  dsimp only at h
  split at h
  case isFalse => cases h
  obtain ⟨database, -, h⟩ := bind_eq_ok h
  split at h
  · cases h
  · obtain rfl := Except.ok.inj h
    rfl

/-- The services of a deployment are those of the configuration of its project, which has at most
sixteen. -/
theorem length_configSnapshot_services {request : ProjectSettingsUpdate}
    {services : List ResolvedService}
    (hservices : services.map ResolvedService.config = request.services)
    (metadata : Option Value) :
    ((configSnapshot (deploymentConfig services request.routes) metadata).elemsAt
      "services").length ≤ 16 := by
  have helems : (configSnapshot (deploymentConfig services request.routes) metadata).elemsAt
      "services" = services.map ResolvedService.json := by
    cases metadata <;> rfl
  have hvalid := request.valid
  rw [DeploymentConfig.isValid, ← hservices, List.length_map] at hvalid
  rw [helems, List.length_map]
  simp only [Bool.and_eq_true, decide_eq_true_eq] at hvalid
  omega

theorem resolve_ok {reader : ServiceLogReader} {d : Deployment} {serviceName : Option String}
    {target : ServiceLogTarget} (h : reader.resolve d serviceName = .ok target) :
    ∃ runtime, RuntimeDeployment.fromDeployment d = .ok runtime
      ∧ target.services = runtime.services.map RuntimeService.name
      ∧ target.service ∈ runtime.services := by
  unfold ServiceLogReader.resolve at h
  split at h
  · cases h
  · cases h
  next runtime hruntime =>
    dsimp only at h
    split at h
    · cases h
    next selected hselected =>
      obtain ⟨redactions, -, h⟩ := bind_eq_ok h
      obtain ⟨inspection, -, h⟩ := bind_eq_ok h
      split at h
      · cases h
      · obtain rfl := Except.ok.inj h
        exact ⟨runtime, hruntime, rfl, List.mem_of_find?_eq_some hselected⟩

theorem length_serviceLogLines_le (result : CommandResult) (redactions : List String) :
    (result.serviceLogLines redactions).1.length ≤ serviceLogTail := by
  rw [CommandResult.serviceLogLines, Prod.map_fst, List.length_map]
  simp only [serviceLogLines, List.length_map, List.length_drop]
  omega

theorem serviceLogLines_bounded {result : CommandResult} {redactions : List String}
    {line : ServiceLogLine} (h : line ∈ (result.serviceLogLines redactions).1) :
    line.timestamp ≠ "" ∧ line.message.utf8ByteSize ≤ serviceLogMaxLineBytes := by
  rw [CommandResult.serviceLogLines, Prod.map_fst] at h
  obtain ⟨logLine, hmem, rfl⟩ := List.mem_map.mp h
  obtain ⟨stream, rawLine, cut, -, hline⟩ := mem_serviceLogLines hmem
  simp only [serviceLogLine] at hline
  split at hline
  · cases hline
  next hgood =>
    cases hline
    rw [Bool.or_eq_true, not_or, Bool.not_eq_true, Bool.not_eq_true', Bool.not_eq_false] at hgood
    constructor
    · intro hempty
      have htimestamp := hgood.2
      rw [String.ofList_eq_empty_iff.mp hempty] at htimestamp
      exact absurd htimestamp (by decide)
    · rw [LogLine.text, Utf8.utf8ByteSize_ofList]
      exact length_boundedUtf8 _ _

/-- Every snapshot a reader produces is sound. -/
theorem sound_of_read {reader : ServiceLogReader} {d : Deployment} {serviceName : Option String}
    {now : Time} {snapshot : ServiceLogSnapshot} (hnow : now < Datetime.maxTime)
    (h : reader.read d serviceName now = .ok snapshot) :
    snapshot.Sound ∧ snapshot.deploymentId = d.id
      ∧ snapshot.services.length = (d.configSnapshot.elemsAt "services").length := by
  obtain ⟨target, htarget, h⟩ := bind_eq_ok h
  obtain ⟨runtime, hruntime, hservices, hmem⟩ := resolve_ok htarget
  obtain ⟨result, -, h⟩ := bind_eq_ok h
  split at h
  · cases h
  · obtain rfl := Except.ok.inj h
    refine ⟨⟨?_, ?_, ?_, length_serviceLogLines_le _ _, fun line ↦ serviceLogLines_bounded, hnow⟩,
      rfl, ?_⟩
    · intro name hname
      obtain ⟨service, -, rfl⟩ := List.mem_map.mp (hservices ▸ hname)
      exact service.name_valid
    · change target.services.Nodup
      rw [hservices]
      exact runtime.names_nodup
    · change target.service.name ∈ target.services
      rw [hservices]
      exact List.mem_map_of_mem hmem
    · simp only [hservices, List.length_map]
      exact length_services_of_fromDeployment hruntime

/-- A message that fits the limit is received and decoded whichever way it arrives. -/
theorem receive_frame {snapshot : ServiceLogSnapshot} (h : snapshot.Sound)
    {lines : List ServiceLogLine} (hlines : lines <:+ snapshot.lines) {truncated : Bool}
    (hle : (snapshotFrame snapshot lines truncated).length ≤ serviceLogMaxResponseBytes)
    {chunks : List (List UInt8)} (hchunks : chunks.flatten = snapshotFrame snapshot lines truncated) :
    (receiveLine serviceLogMaxResponseBytes [] chunks >>= fun payload ↦
        decodeSnapshot payload snapshot.deploymentId)
      = .ok { snapshot with lines := lines, truncated := truncated } := by
  have hfeed : lineFeed ∉ Json.dumpsBytes (snapshotValue snapshot lines truncated) :=
    Json.notMem_dumpsBytes (by decide) _
  rw [snapshotFrame, List.length_append, List.length_singleton] at hle
  have hbytes : [] ++ chunks.flatten
      = Json.dumpsBytes (snapshotValue snapshot lines truncated) ++ [lineFeed] := by
    rw [List.nil_append, hchunks, snapshotFrame]
  have hdecode := decodeSnapshot_frame h hlines truncated
  rw [receiveLine_message hfeed (Nat.lt_of_succ_le hle) (by simp) hbytes]
  generalize Json.dumpsBytes (snapshotValue snapshot lines truncated) = payload at hdecode ⊢
  exact hdecode

/-- A snapshot comes back with as many of its latest lines as fit the limit, and with the mark of a
truncated one when a line was left out, whichever way the message arrives. -/
theorem snapshot_received {reader : ServiceLogReader} {d : Deployment}
    {serviceName : Option String} {now : Time} {snapshot : ServiceLogSnapshot}
    (hservices : (d.configSnapshot.elemsAt "services").length ≤ 16)
    (hnow : now < Datetime.maxTime) (hread : reader.read d serviceName now = .ok snapshot) :
    ∃ encoded dropped lines, encodeSnapshot snapshot = .ok encoded
      ∧ snapshot.lines = dropped ++ lines
      ∧ (∀ chunks : List (List UInt8), chunks.flatten = encoded →
        (receiveLine serviceLogMaxResponseBytes [] chunks >>= fun payload ↦
            decodeSnapshot payload d.id)
          = .ok { snapshot with
              lines := lines
              truncated := snapshot.truncated || !dropped.isEmpty })
      ∧ encoded = snapshotFrame snapshot lines (snapshot.truncated || !dropped.isEmpty)
      ∧ encoded.length ≤ serviceLogMaxResponseBytes
      ∧ ∀ dropped' lines', snapshot.lines = dropped' ++ lines' → lines.length < lines'.length →
        serviceLogMaxResponseBytes
          < (snapshotFrame snapshot lines' (snapshot.truncated || !dropped'.isEmpty)).length := by
  obtain ⟨hsound, hid, hlength⟩ := sound_of_read hnow hread
  have hbase := length_snapshotFrame_nil hsound (hlength.trans_le hservices)
  obtain ⟨dropped, lines, hlines, hencode, hle, hlongest⟩ :=
    encodeLines_spec hbase snapshot.lines snapshot.truncated
  refine ⟨_, dropped, lines, hencode, hlines, fun chunks hchunks ↦ ?_, rfl, hle, hlongest⟩
  rw [← hid]
  exact receive_frame hsound (hlines ▸ List.suffix_append dropped lines) hle hchunks

/-! ## A small log -/

/-- A deployment with one service and no secrets. -/
def sampleLogged : Deployment where
  id := .ofNat 9
  projectId := .ofNat 1
  sourceType := .mainHead
  requestedCommitSha := none
  resolvedCommitSha := "0123456789012345678901234567890123456789"
  configVersion := 1
  configSnapshot := .obj [
    ("services", .arr [.obj [("name", .str "api"),
      ("build", .obj [("context", .str "."), ("dockerfile", .str "Dockerfile")]),
      ("internalPort", .int 8000), ("healthPath", .str "/health")]]),
    ("routes", .arr [.obj [("path", .str "/"), ("service", .str "api")]])]
  status := .succeeded
  createdAt := 0
  updatedAt := 0

/-- What `docker inspect` prints of its container. -/
def sampleInspection : String :=
  String.ofList ('"' :: (List.replicate 64 'f' ++ '"' :: ' ' :: Json.print false (.obj [
    ("heimdall.managed", .str "true"), ("heimdall.project-id", .str (Uuid.ofNat 1).str),
    ("heimdall.deployment-id", .str (Uuid.ofNat 9).str)])))

/-- The container of the service has printed one line. -/
def sampleLogReader : ServiceLogReader where
  order := lastOrder
  readSecret _ _ := .error .secretStore
  commands := {
    inspectTarget := fun _ ↦ .ok { returncode := 0, stdout := sampleInspection }
    logs := fun _ ↦ .ok { returncode := 0, stdout := "2026-08-07T01:00:00Z ready" }
    inspectExit := fun _ ↦ .ok { returncode := 1, stdout := "" } }

/-- The answers that resolve a request without a name. -/
theorem resolve_root {reader : ServiceLogReader} {d : Deployment} {name containerId : String}
    {runtime : RuntimeDeployment} {service : RuntimeService} {redactions : List String}
    {inspection : CommandResult} (hruntime : RuntimeDeployment.fromDeployment d = .ok runtime)
    (hroot : runtime.rootService = some name)
    (hservice : (runtime.services.find? fun service ↦ some service.name = some name) = some service)
    (hredactions : deploymentLogRedactions reader.order reader.readSecret (some runtime)
      = .ok redactions)
    (hinspect : reader.commands.inspectTarget (containerName d service) = .ok inspection)
    (hcode : inspection.returncode = 0)
    (hcontainer : exactContainerId inspection.stdout d = some containerId) :
    ∃ target, reader.resolve d none = .ok target := by
  unfold ServiceLogReader.resolve
  rw [hruntime]
  dsimp only
  rw [hroot, hservice]
  dsimp only
  rw [hredactions, hinspect]
  simp only [runLogCommand, bind, Except.bind, if_pos hcode, hcontainer]
  exact ⟨_, rfl⟩

/-- The inspection of the sample names its container. -/
theorem exactContainerId_sampleInspection : exactContainerId sampleInspection sampleLogged
    = some (String.ofList (List.replicate 64 'f')) := by
  let labels : Json.Value := .obj [("heimdall.managed", .str "true"),
    ("heimdall.project-id", .str (Uuid.ofNat 1).str),
    ("heimdall.deployment-id", .str (Uuid.ofNat 9).str)]
  have hid : Json.loads (String.ofList ('"' :: (List.replicate 64 'f' ++ ['"'])))
      = some (.str (String.ofList (List.replicate 64 'f'))) := by
    rw [Json.loads, String.toList_ofList, String.length_ofList]
    rfl
  have hhex : Sha256.isHexdigest (String.ofList (List.replicate 64 'f')) = true := by
    rw [Sha256.isHexdigest, String.toList_ofList, String.length_ofList]
    rfl
  have hlabels : Json.loads (String.ofList (Json.print false labels)) = some labels := by
    have hprintable : labels.Printable := by
      simp [labels, Json.Value.Printable, Json.Value.PrintableFields]
    have hloads : Json.loads (Json.dumps false labels ++ "") = some labels :=
      Json.loads_dumps false hprintable (by simp)
    rwa [String.append_empty] at hloads
  have hgeneration : hasGenerationLabels labels sampleLogged.projectId sampleLogged.id = true := by
    have hmanaged : labels.get? "heimdall.managed" = some (.str "true") := rfl
    have hproject : labels.get? "heimdall.project-id" = some (.str (Uuid.ofNat 1).str) := rfl
    have hdeployment : labels.get? "heimdall.deployment-id" = some (.str (Uuid.ofNat 9).str) := rfl
    simp [hasGenerationLabels, hasLabel, hmanaged, hproject, hdeployment, sampleLogged]
  have hpartition : Text.partition (· == ' ') sampleInspection.toList
      = ('"' :: (List.replicate 64 'f' ++ ['"']), [' '], Json.print false labels) := by
    have hlist : sampleInspection.toList = '"' :: (List.replicate 64 'f' ++ '"' :: ' '
        :: Json.print false labels) := String.toList_ofList
    rw [hlist]
    rfl
  rw [exactContainerId, hpartition]
  simp only [List.isEmpty_cons, hid, hlabels, hhex, hgeneration, Bool.false_eq_true, if_false,
    Bool.and_self, if_true]

theorem read_sample : ∃ snapshot, sampleLogReader.read sampleLogged none 0 = .ok snapshot := by
  obtain ⟨runtime, hruntime, hsecrets, hroot, service, hservices, hname⟩ : ∃ runtime,
      RuntimeDeployment.fromDeployment sampleLogged = .ok runtime
        ∧ runtime.logSecrets = [] ∧ runtime.rootService = some "api"
        ∧ ∃ service, runtime.services = [service] ∧ service.name = "api" :=
    ⟨_, rfl, rfl, rfl, _, rfl, rfl⟩
  have hservice : (runtime.services.find? fun service ↦ some service.name = some "api")
      = some service := by
    simp [hservices, hname]
  have hredactions : deploymentLogRedactions sampleLogReader.order sampleLogReader.readSecret
      (some runtime) = .ok [] := by
    simp only [deploymentLogRedactions, hsecrets, List.mapM_nil]
    simp [sampleLogReader, lastOrder, pure, Except.pure]
  have hcontainer := exactContainerId_sampleInspection
  obtain ⟨target, htarget⟩ := resolve_root hruntime hroot hservice hredactions rfl rfl hcontainer
  rw [ServiceLogReader.read, htarget]
  exact ⟨_, rfl⟩

theorem snapshot_received_sample : ∃ snapshot encoded dropped lines,
    encodeSnapshot snapshot = .ok encoded ∧ snapshot.lines = dropped ++ lines
      ∧ (receiveLine serviceLogMaxResponseBytes [] [encoded] >>= fun payload ↦
            decodeSnapshot payload sampleLogged.id)
          = .ok { snapshot with
              lines := lines
              truncated := snapshot.truncated || !dropped.isEmpty } := by
  obtain ⟨snapshot, hread⟩ := read_sample
  obtain ⟨encoded, dropped, lines, hencode, hlines, hreceived, -⟩ :=
    snapshot_received (by decide) (by decide) hread
  exact ⟨snapshot, encoded, dropped, lines, hencode, hlines, hreceived [encoded] (by simp)⟩

end Heimdall
