import Heimdall.Deployments.Jobs
import Heimdall.Runtime.Diagnostics
import Heimdall.Runtime.LogReader

/-!
# Diagnostics of a failure

`DockerDeploymentDiagnosticCollector.capture` makes an artifact of the output of the failed command
and one of the log of each service, and `record_diagnostics` stores them in one transaction. The
lines of an artifact are the last ones that fit together (`mem_boundedDiagnosticLines`).

What is stored goes into a column of JSON, and a line of a log may have a null character, which
PostgreSQL does not store there. Then nothing is recorded of the failure (`capture_recorded_iff`).
-/

namespace Heimdall

open Text Symbol

/-! ## Capturing -/

/-- `_encoded_size` -/
def diagnosticSize (lines : List DiagnosticLine) : ℕ :=
  (Utf8.encode (Json.print false (DeploymentDb.diagnosticPayload lines))).length

/-- `_bounded_lines` -/
def boundedDiagnosticLines : List DiagnosticLine → List DiagnosticLine × Bool
  | [] => ([], decide (diagnosticArtifactMaxBytes < diagnosticSize []))
  | line :: lines =>
    if diagnosticArtifactMaxBytes < diagnosticSize (line :: lines) then
      ((boundedDiagnosticLines lines).1, true)
    else (line :: lines, false)

def ServiceLogStream.diagnostic : ServiceLogStream → DiagnosticStream
  | .stdout => .stdout
  | .stderr => .stderr

def ServiceLogLine.diagnostic (line : ServiceLogLine) : DiagnosticLine where
  stream := line.stream.diagnostic
  message := line.message
  timestamp := some line.timestamp

/-- `DockerDeploymentDiagnosticCollector`. Its reader has the secret store. -/
structure DiagnosticCollector where
  serviceLogs : ServiceLogReader

namespace DiagnosticCollector

variable (collector : DiagnosticCollector)

/-- The artifact of a log that could not be read. -/
def unavailableLog (serviceName code : String) (capturedAt : Time) : DiagnosticArtifactDraft where
  kind := .serviceLog
  captureStatus := .unavailable
  captureCode := some code
  serviceName := some serviceName
  capturedAt := capturedAt

/-- `_service_artifact`; the clock is looked at before the log is read and after. -/
def serviceArtifact (d : Deployment) (serviceName : String) (capturedAt retrievedAt : Time) :
    Except Exc DiagnosticArtifactDraft :=
  match collector.serviceLogs.readDiagnostic d serviceName retrievedAt with
  | .error (.serviceLog code) => .ok (unavailableLog serviceName code capturedAt)
  | .error x => .error x
  | .ok (snapshot, containerStatus, containerExitCode) =>
    let bounded := boundedDiagnosticLines (snapshot.lines.map ServiceLogLine.diagnostic)
    .ok
    { kind := .serviceLog
      captureStatus := .captured
      serviceName := some serviceName
      containerStatus := containerStatus
      containerExitCode := containerExitCode
      lines := bounded.1
      truncated := snapshot.truncated || bounded.2
      capturedAt := snapshot.retrievedAt }

/-- The artifact of the failed command, if a command failed. `runtime` is what `from_deployment`
makes of the deployment. -/
def commandArtifacts (runtime : Except Exc RuntimeDeployment) (failure : RuntimeFailure)
    (capturedAt : Time) : Except Exc (List DiagnosticArtifactDraft) :=
  match failure.commandOutput, runtime with
  | none, _ => .ok []
  | some command, .ok runtime =>
    (commandArtifact collector.serviceLogs.order collector.serviceLogs.readSecret (some runtime)
      command capturedAt).map fun artifact ↦ [artifact]
  | some command, .error (.runtimeConfiguration _) =>
    (commandArtifact collector.serviceLogs.order collector.serviceLogs.readSecret none
      command capturedAt).map fun artifact ↦ [artifact]
  | some _, .error x => .error x

/-- `capture`, less the heartbeats. The clock is looked at again and again. -/
def capture (d : Deployment) (failure : RuntimeFailure) (clock : ℕ → Time) :
    Except Exc (List DiagnosticArtifactDraft) := do
  let runtime := RuntimeDeployment.fromDeployment d
  let artifacts ← collector.commandArtifacts runtime failure (clock 0)
  match runtime with
  | .error (.runtimeConfiguration _) => return artifacts
  | .error x => .error x
  | .ok runtime => do
    let services ← runtime.services.zipIdx.mapM fun (service, i) ↦
      collector.serviceArtifact d service.name (clock (2 * i + 1)) (clock (2 * i + 2))
    return artifacts ++ services

end DiagnosticCollector

/-! ## The lines that are kept -/

/-- The lines kept of a source are its last ones, as many as fit. -/
theorem boundedDiagnosticLines_spec (lines : List DiagnosticLine) :
    (boundedDiagnosticLines lines).1 <:+ lines
    ∧ diagnosticSize (boundedDiagnosticLines lines).1 ≤ diagnosticArtifactMaxBytes
    ∧ ∀ last, last <:+ lines → diagnosticSize last ≤ diagnosticArtifactMaxBytes →
      last <:+ (boundedDiagnosticLines lines).1 := by
  induction lines with
  | nil => exact ⟨List.suffix_rfl, by decide, fun last h _ ↦ h⟩
  | cons line lines ih =>
    rw [boundedDiagnosticLines]
    split
    next hlarge =>
      refine ⟨ih.1.trans (List.suffix_cons line lines), ih.2.1, fun last hlast hfits ↦ ?_⟩
      rcases List.suffix_cons_iff.mp hlast with rfl | hlast
      · exact absurd hfits (not_le.mpr hlarge)
      · exact ih.2.2 last hlast hfits
    next hsmall => exact ⟨List.suffix_rfl, not_lt.mp hsmall, fun last h _ ↦ h⟩

theorem text_boundedLines {α : Type} [Symbol α] (lines : List (OutputLine α)) :
    (boundedLines lines).1.map OutputLine.text
      = (boundedDiagnosticLines (lines.map OutputLine.text)).1 := by
  induction lines with
  | nil => rfl
  | cons line lines ih =>
    have hsize : diagnosticSize ((line :: lines).map OutputLine.text) = encodedSize (line :: lines) :=
      rfl
    rw [List.map_cons] at hsize ⊢
    rw [boundedLines, boundedDiagnosticLines, hsize]
    split
    · exact ih
    · rfl

/-- No line that is kept has a null character. -/
def StorableEnd (lines : List DiagnosticLine) : Prop :=
  ∀ last, last <:+ lines → diagnosticSize last ≤ diagnosticArtifactMaxBytes →
    ∀ line ∈ last, Json.Value.isStorable line.message = true

theorem storableEnd_iff {lines : List DiagnosticLine} : StorableEnd lines
    ↔ ∀ line ∈ (boundedDiagnosticLines lines).1, Json.Value.isStorable line.message = true := by
  obtain ⟨hsuffix, hfits, hlast⟩ := boundedDiagnosticLines_spec lines
  constructor
  · intro h
    exact h _ hsuffix hfits
  · intro h last hl hf line hline
    exact h line ((hlast last hl hf).subset hline)

/-! ## Storing -/

/-- The row of an artifact. -/
def DiagnosticArtifactDraft.row (artifact : DiagnosticArtifactDraft) (id d : Uuid) (eventId : ℕ)
    (stage code : String) (retention : Time) : DiagnosticArtifactRow :=
  { artifact with
    id := id
    deploymentId := d
    eventId := eventId
    failureStage := stage
    failureCode := code
    lineCount := artifact.lines.length
    byteCount := (Json.dumps false (DeploymentDb.diagnosticPayload artifact.lines)).utf8ByteSize
    payload := DeploymentDb.diagnosticPayload artifact.lines
    expiresAt := artifact.capturedAt + retention }

namespace DeploymentDb

variable {db db' : DeploymentDb} {d : Uuid} {eventId : ℕ} {stage code : String} {retention : Time}
  {artifacts : List (Uuid × DiagnosticArtifactDraft)}

/-- The row of an artifact with the identifier drawn for it. -/
def artifactRow (d : Uuid) (eventId : ℕ) (stage code : String) (retention : Time)
    (a : Uuid × DiagnosticArtifactDraft) : DiagnosticArtifactRow :=
  a.2.row a.1 d eventId stage code retention

theorem insertDiagnosticArtifacts_cons (a : Uuid × DiagnosticArtifactDraft) :
    insertDiagnosticArtifacts d eventId stage code retention db (a :: artifacts)
      = if 262144 < (artifactRow d eventId stage code retention a).byteCount then .error .value
        else db.insertDiagnostic (artifactRow d eventId stage code retention a) >>= fun db ↦
          insertDiagnosticArtifacts d eventId stage code retention db artifacts := rfl

/-- What is stored fits its columns. -/
theorem insertDiagnosticArtifacts_fits
    (h : insertDiagnosticArtifacts d eventId stage code retention db artifacts = .ok db') :
    ∀ a ∈ artifacts, (artifactRow d eventId stage code retention a).fits = true := by
  induction artifacts generalizing db with
  | nil => exact fun a ha ↦ absurd ha List.not_mem_nil
  | cons a artifacts ih =>
    rw [insertDiagnosticArtifacts_cons] at h
    split at h
    · cases h
    obtain ⟨db₁, hfirst, h⟩ := bind_eq_ok h
    intro b hb
    rcases List.mem_cons.mp hb with rfl | hb
    · rw [insertDiagnostic] at hfirst
      split at hfirst
      · cases hfirst
      next hfits => simpa using hfits
    · exact ih h b hb

/-- Two artifacts of different sources. -/
def Apart (a b : Uuid × DiagnosticArtifactDraft) : Prop :=
  a.1 ≠ b.1 ∧ ¬(a.2.kind = b.2.kind ∧ a.2.operation.getD "" = b.2.operation.getD ""
    ∧ a.2.serviceName.getD "" = b.2.serviceName.getD "")

/-- Artifacts that meet the constraints of the table are all stored. -/
theorem insertDiagnosticArtifacts_stored
    (hsize : ∀ a ∈ artifacts, diagnosticSize a.2.lines ≤ diagnosticArtifactMaxBytes)
    (hfits : ∀ a ∈ artifacts, (artifactRow d eventId stage code retention a).fits = true)
    (hchecks : ∀ a ∈ artifacts, (artifactRow d eventId stage code retention a).checks = true)
    (hapart : artifacts.Pairwise Apart)
    (hnew : ∀ a ∈ artifacts, ∀ row ∈ db.diagnostics,
      diagnosticConflict (artifactRow d eventId stage code retention a) row = false) :
    insertDiagnosticArtifacts d eventId stage code retention db artifacts
      = .ok { db with diagnostics := db.diagnostics
        ++ artifacts.map (artifactRow d eventId stage code retention) } := by
  induction artifacts generalizing db with
  | nil => rw [List.map_nil, List.append_nil]; rfl
  | cons a artifacts ih =>
    rw [List.forall_mem_cons] at hsize hfits hchecks hnew
    rw [List.pairwise_cons] at hapart
    have hbytes : ¬ 262144 < (artifactRow d eventId stage code retention a).byteCount := by
      have hcount : (artifactRow d eventId stage code retention a).byteCount
          = diagnosticSize a.2.lines := by
        rw [diagnosticSize, ← Utf8.utf8ByteSize_ofList]
        rfl
      rw [hcount]
      exact not_lt.mpr hsize.1
    have hconflict : db.diagnostics.any (diagnosticConflict
        (artifactRow d eventId stage code retention a)) = false := by
      rw [List.any_eq_false]
      intro row hrow
      rw [hnew.1 row hrow]
      exact Bool.false_ne_true
    have hfirst : db.insertDiagnostic (artifactRow d eventId stage code retention a) = .ok
        { db with diagnostics := db.diagnostics
          ++ [artifactRow d eventId stage code retention a] } := by
      rw [insertDiagnostic, hfits.1, hchecks.1, hconflict]
      rfl
    rw [insertDiagnosticArtifacts_cons, if_neg hbytes, hfirst]
    refine (ih hsize.2 hfits.2 hchecks.2 hapart.2 ?_).trans ?_
    · intro b hb row hrow
      rcases List.mem_append.mp hrow with hrow | hrow
      · exact hnew.2 b hb row hrow
      · obtain ⟨hid, hsource⟩ := hapart.1 b hb
        rw [List.mem_singleton.mp hrow, diagnosticConflict, Bool.or_eq_false_iff]
        refine ⟨beq_eq_false_iff_ne.mpr hid.symm, ?_⟩
        rw [Bool.eq_false_iff]
        intro hsame
        simp only [Bool.and_eq_true, beq_iff_eq] at hsame
        exact hsource ⟨hsame.1.1.2.symm, hsame.1.2.symm, hsame.2.symm⟩
    · simp

end DeploymentDb

/-! ## Texts that fit -/

theorem isVarchar_of_isServiceName {name : String} (h : isServiceName name = true) :
    isVarchar 32 name = true := by
  have hlength : name.length = name.toList.length := String.length_toList.symm
  unfold isServiceName at h
  split at h
  · cases h
  next c cs hname =>
    simp only [Bool.and_eq_true, decide_eq_true_eq, List.all_eq_true] at h
    obtain ⟨⟨hc, hcs⟩, hall⟩ := h
    rw [isVarchar, Json.Value.isStorable, hlength, hname, Bool.and_eq_true, decide_eq_true_eq,
      List.length_cons]
    refine ⟨Nat.succ_le_succ hcs, ?_⟩
    have hnul : '\x00' ∉ c :: cs := by
      rw [List.mem_cons, not_or]
      constructor
      · rintro rfl
        exact absurd hc (by decide)
      · intro hmem
        exact absurd (hall _ hmem) (by decide)
    simp [hnul]

theorem mem_of_matchesPattern {ps cs : List Char} (h : matchesPattern ps cs = true) :
    ∀ c ∈ cs, isDecimal c = true ∨ c ∈ ps := by
  induction ps generalizing cs with
  | nil =>
    rw [matchesPattern, List.isEmpty_iff] at h
    simp [h]
  | cons p ps ih =>
    cases cs with
    | nil => simp
    | cons c cs =>
      rw [matchesPattern, Bool.and_eq_true] at h
      rw [List.forall_mem_cons]
      constructor
      · have hc := h.1
        split at hc
        · exact .inl hc
        · exact .inr (of_decide_eq_true hc ▸ List.mem_cons_self)
      · exact fun b hb ↦ (ih h.2 b hb).imp_right (List.mem_cons_of_mem p)

/-- A timestamp has no null character. -/
theorem notMem_of_isDockerTimestamp {cs : List Char} (h : isDockerTimestamp cs = true) :
    '\x00' ∉ cs := by
  have hdecimal : isDecimal '\x00' = false := by decide
  have hpattern {ps ds : List Char} (hps : '\x00' ∉ ps) (h : matchesPattern ps ds = true) :
      '\x00' ∉ ds := by
    intro hmem
    rcases mem_of_matchesPattern h _ hmem with h | h
    · exact absurd (hdecimal.symm.trans h) (by decide)
    · exact hps h
  rw [isDockerTimestamp, Bool.and_eq_true, Option.any_eq_true] at h
  obtain ⟨hdate, zone, hfraction, hzone⟩ := h
  have hzone : '\x00' ∉ zone := by
    simp only [isZone, Bool.or_eq_true, beq_iff_eq] at hzone
    rcases hzone with (rfl | h) | h
    · decide
    · exact hpattern (by decide) h
    · exact hpattern (by decide) h
  have hrest : '\x00' ∉ cs.drop 19 := by
    unfold dropFraction at hfraction
    split at hfraction
    next digits hdrop =>
      split at hfraction
      · obtain rfl := Option.some.inj hfraction
        rw [hdrop, ← List.takeWhile_append_dropWhile (p := isDecimal) (l := digits), List.mem_cons,
          List.mem_append]
        rintro (h | h | h)
        · exact absurd h (by decide)
        · exact absurd (hdecimal.symm.trans (List.mem_takeWhile_imp h)) (by decide)
        · exact hzone h
      · cases hfraction
    · obtain rfl := Option.some.inj hfraction
      exact hzone
  rw [← List.take_append_drop 19 cs, List.mem_append, not_or]
  exact ⟨hpattern (by decide) hdate, hrest⟩

theorem isStorable_iff {s : String} : Json.Value.isStorable s = true ↔ '\x00' ∉ s.toList := by
  simp [Json.Value.isStorable]

/-- The payload of an artifact can be stored when the texts of its lines can. -/
theorem isJsonb_diagnosticPayload (lines : List DiagnosticLine) :
    (DeploymentDb.diagnosticPayload lines).isJsonb = true ↔ ∀ line ∈ lines,
      (line.timestamp.all Json.Value.isStorable = true) ∧ Json.Value.isStorable line.message = true := by
  rw [DeploymentDb.diagnosticPayload, Json.Value.isJsonb]
  induction lines with
  | nil => simp [Json.Value.isJsonbElems]
  | cons line lines ih =>
    have htimestamp : ((line.timestamp.map Json.Value.str).getD .null).isJsonb
        = line.timestamp.all Json.Value.isStorable := by
      cases line.timestamp <;> rfl
    have hstream : Json.Value.isStorable (DeploymentDb.diagnosticStreamText line.stream) = true := by
      cases line.stream <;> rfl
    rw [List.map_cons, Json.Value.isJsonbElems, Bool.and_eq_true, ih, List.forall_mem_cons]
    refine and_congr_left fun _ ↦ ?_
    simp only [Json.Value.isJsonb, Json.Value.isJsonbFields, htimestamp, hstream, Bool.and_eq_true]
    have hkeys : Json.Value.isStorable "timestamp" = true ∧ Json.Value.isStorable "stream" = true
        ∧ Json.Value.isStorable "message" = true := ⟨rfl, rfl, rfl⟩
    simp only [hkeys, true_and, and_true]

/-! ## Where the lines come from -/

/-- What is known of the answers of the secret store and of `docker`: neither raises an error of the
log reader, and the state of a container is a status and an exit code that can be stored. -/
structure ServiceLogReader.Answers (reader : ServiceLogReader) : Prop where
  secret : ∀ reference fingerprint code,
    reader.readSecret reference fingerprint ≠ .error (.serviceLog code)
  target : ∀ container code, reader.commands.inspectTarget container ≠ .error (.serviceLog code)
  logs : ∀ containerId code, reader.commands.logs containerId ≠ .error (.serviceLog code)
  exit : ∀ containerId code, reader.commands.inspectExit containerId ≠ .error (.serviceLog code)
  state : ∀ containerId result status exitCode, reader.commands.inspectExit containerId = .ok result →
    containerState result = some (status, exitCode) →
    isVarchar 32 status = true ∧ isInteger exitCode = true

/-- A failure as the runtime raises it: its texts fit their columns, and a command ended with a
return code. -/
structure RuntimeFailure.Regular (failure : RuntimeFailure) : Prop where
  stage : isVarchar 32 failure.stage = true
  code : isVarchar 64 failure.code = true
  operation : ∀ command ∈ failure.commandOutput, isVarchar 64 command.operation = true
  serviceName : ∀ command ∈ failure.commandOutput,
    command.serviceName.all (isVarchar 32) = true
  returnCode : ∀ command ∈ failure.commandOutput, isInteger command.returnCode = true

/-- The lines of the output of a command, redacted and cut. -/
def FailedCommandOutput.lines (command : FailedCommandOutput) (redactions : List String) :
    List DiagnosticLine :=
  (streamLines (redactions.map String.toList) .stdout command.stdout.toList
    ++ streamLines (redactions.map String.toList) .stderr command.stderr.toList).map OutputLine.text

/-- The lines of the log of a service, redacted and cut. -/
def ServiceLogReader.serviceLines (reader : ServiceLogReader) (d : Deployment)
    (serviceName : String) : Option (List ServiceLogLine) :=
  match reader.resolve d (some serviceName) with
  | .error _ => none
  | .ok target =>
    match runLogCommand (reader.commands.logs target.containerId) with
    | .error _ => none
    | .ok result =>
      if result.returncode ≠ 0 then none else some (result.serviceLogLines target.redactions).1

namespace DiagnosticCollector

variable (collector : DiagnosticCollector)

/-- The redacted and cut lines of the output of the failed command; `none` when there is nothing to
redact them with. -/
def commandSources (runtime : Option RuntimeDeployment) (failure : RuntimeFailure) :
    List (Option (List DiagnosticLine)) :=
  failure.commandOutput.toList.map fun command ↦
    (deploymentLogRedactions collector.serviceLogs.order collector.serviceLogs.readSecret
      runtime).toOption.map command.lines

/-- The redacted and cut lines behind each artifact of a failure. -/
def sources (d : Deployment) (failure : RuntimeFailure) : List (Option (List DiagnosticLine)) :=
  match RuntimeDeployment.fromDeployment d with
  | .error _ => collector.commandSources none failure
  | .ok runtime => collector.commandSources (some runtime) failure
      ++ runtime.services.map fun service ↦
        (collector.serviceLogs.serviceLines d service.name).map (List.map ServiceLogLine.diagnostic)

end DiagnosticCollector

/-- An artifact and the lines it is made of. -/
structure DiagnosticArtifactDraft.Made (artifact : DiagnosticArtifactDraft)
    (source : Option (List DiagnosticLine)) : Prop where
  lines : artifact.lines = ((source.map fun lines ↦ (boundedDiagnosticLines lines).1).getD [])
  timestamps : ∀ line ∈ artifact.lines, line.timestamp.all Json.Value.isStorable = true
  captureCode : artifact.captureCode.all (isVarchar 64) = true
  operation : artifact.operation.all (isVarchar 64) = true
  serviceName : artifact.serviceName.all (isVarchar 32) = true
  returnCode : artifact.returnCode.all isInteger = true
  containerStatus : artifact.containerStatus.all (isVarchar 32) = true
  containerExitCode : artifact.containerExitCode.all isInteger = true
  source_isSome : match artifact.kind with
    | .commandOutput => artifact.operation.isSome = true
    | .serviceLog => artifact.serviceName.isSome = true
  status : match artifact.captureStatus with
    | .captured => artifact.captureCode = none
    | .unavailable => artifact.captureCode.isSome = true ∧ artifact.lines = []

namespace DiagnosticArtifactDraft.Made

variable {artifact : DiagnosticArtifactDraft} {source : Option (List DiagnosticLine)}
  {id d : Uuid} {eventId : ℕ} {stage code : String} {retention : Time} (h : artifact.Made source)

include h

theorem size_le : diagnosticSize artifact.lines ≤ diagnosticArtifactMaxBytes := by
  rw [h.lines]
  cases source with
  | none => decide
  | some lines => exact (boundedDiagnosticLines_spec lines).2.1

theorem checks : (artifact.row id d eventId stage code retention).checks = true := by
  have hbytes : (artifact.row id d eventId stage code retention).byteCount
      = diagnosticSize artifact.lines := by
    rw [diagnosticSize, ← Utf8.utf8ByteSize_ofList]
    rfl
  have hsource := h.source_isSome
  have hstatus := h.status
  have hlength : (artifact.row id d eventId stage code retention).lineCount
      = artifact.lines.length := rfl
  simp only [DiagnosticArtifactRow.checks, Bool.and_eq_true, decide_eq_true_eq, hbytes, hlength]
  refine ⟨⟨h.size_le, ?_⟩, ?_⟩
  · change (match artifact.kind with
      | .commandOutput => artifact.operation.isSome
      | .serviceLog => artifact.serviceName.isSome) = true
    split <;> simp_all
  · change (match artifact.captureStatus with
      | .captured => artifact.captureCode.isNone
      | .unavailable => artifact.captureCode.isSome && artifact.lines.length == 0) = true
    split <;> simp_all

/-- The artifact can be stored when none of its lines has a null character. -/
theorem fits_iff (hstage : isVarchar 32 stage = true) (hcode : isVarchar 64 code = true) :
    (artifact.row id d eventId stage code retention).fits = true
      ↔ ∀ lines ∈ source, StorableEnd lines := by
  have hfields : (artifact.row id d eventId stage code retention).fits
      = (DeploymentDb.diagnosticPayload artifact.lines).isJsonb := by
    simp only [DiagnosticArtifactRow.fits, row, hstage, hcode, h.captureCode, h.operation,
      h.serviceName, h.returnCode, h.containerStatus, h.containerExitCode, Bool.true_and]
  rw [hfields, isJsonb_diagnosticPayload]
  have hlines : (∀ line ∈ artifact.lines, line.timestamp.all Json.Value.isStorable = true
      ∧ Json.Value.isStorable line.message = true)
      ↔ ∀ line ∈ artifact.lines, Json.Value.isStorable line.message = true :=
    ⟨fun hall line hline ↦ (hall line hline).2, fun hall line hline ↦
      ⟨h.timestamps line hline, hall line hline⟩⟩
  rw [hlines, h.lines]
  cases source with
  | none => simp
  | some lines => simp [storableEnd_iff]

end DiagnosticArtifactDraft.Made

/-! ## The artifacts -/

/-- The codes of the errors of the log reader. -/
def logErrorCodes : List String :=
  ["SERVICE_LOGS_UNAVAILABLE", "SERVICE_LOG_SERVICE_NOT_FOUND", "SERVICE_LOG_REDACTION_UNAVAILABLE"]

theorem isVarchar_logErrorCode {code : String} (h : code ∈ logErrorCodes) :
    isVarchar 64 code = true := by
  simp only [logErrorCodes, List.mem_cons, List.not_mem_nil, or_false] at h
  rcases h with rfl | rfl | rfl <;> decide

/-- An error of the log reader has one of the codes. -/
def CodeKnown (x : Exc) : Prop := ∀ code, x = .serviceLog code → code ∈ logErrorCodes

theorem codeKnown_logsUnavailable : CodeKnown logsUnavailable := by
  rintro code h
  obtain rfl := Exc.serviceLog.inj h
  decide

theorem codeKnown_redactionUnavailable : CodeKnown redactionUnavailable := by
  rintro code h
  obtain rfl := Exc.serviceLog.inj h
  decide

theorem codeKnown_of_answer {α : Type} {answer : Except Exc α}
    (h : ∀ code, answer ≠ .error (.serviceLog code)) : Ensures answer (fun _ ↦ True) CodeKnown := by
  cases answer with
  | ok a => trivial
  | error x => exact fun code hx ↦ absurd (congrArg Except.error hx) (h code)

theorem deploymentLogRedactions_known {order : SetOrder}
    {read : String → String → Except Exc String} {runtime : Option RuntimeDeployment}
    (hread : ∀ reference fingerprint code, read reference fingerprint ≠ .error (.serviceLog code)) :
    Ensures (deploymentLogRedactions order read runtime) (fun _ ↦ True) CodeKnown := by
  unfold deploymentLogRedactions
  split
  · exact codeKnown_redactionUnavailable
  next runtime =>
    have hvalues : Ensures (runtime.logSecrets.mapM fun secret ↦ read secret.1 secret.2)
        (fun values ↦ ∀ value ∈ values, True) CodeKnown :=
      .mapM fun secret _ ↦ codeKnown_of_answer (hread secret.1 secret.2)
    split
    · exact codeKnown_redactionUnavailable
    · exact codeKnown_redactionUnavailable
    · exact codeKnown_redactionUnavailable
    next heq => exact hvalues.of_error heq
    · split
      · exact codeKnown_redactionUnavailable
      · trivial

theorem runLogCommand_known {answer : Except Exc CommandResult}
    (h : ∀ code, answer ≠ .error (.serviceLog code)) :
    Ensures (runLogCommand answer) (fun _ ↦ True) CodeKnown := by
  unfold runLogCommand
  split
  · exact codeKnown_logsUnavailable
  · exact codeKnown_of_answer h

namespace ServiceLogReader

variable {reader : ServiceLogReader} {d : Deployment} {runtime : RuntimeDeployment} {now : Time}

theorem resolve_known (hreader : reader.Answers)
    (hruntime : RuntimeDeployment.fromDeployment d = .ok runtime) (serviceName : Option String) :
    Ensures (reader.resolve d serviceName) (fun _ ↦ True) CodeKnown := by
  unfold resolve
  rw [hruntime]
  dsimp only
  split
  · rintro code h
    obtain rfl := Exc.serviceLog.inj h
    decide
  next selected _ =>
    refine (deploymentLogRedactions_known hreader.secret).bind fun redactions _ ↦ ?_
    refine (runLogCommand_known (hreader.target _)).bind fun inspection _ ↦ ?_
    split
    · exact codeKnown_logsUnavailable
    · trivial

theorem readTarget_known (hreader : reader.Answers) (target : ServiceLogTarget) :
    Ensures (reader.readTarget d target now) (fun _ ↦ True) CodeKnown := by
  unfold readTarget
  refine (runLogCommand_known (hreader.logs _)).bind fun result _ ↦ ?_
  split
  · exact codeKnown_logsUnavailable
  · trivial

/-- The lines of a snapshot are those of the log of its service. -/
theorem serviceLines_eq {serviceName : String} {target : ServiceLogTarget}
    {snapshot : ServiceLogSnapshot} (htarget : reader.resolve d (some serviceName) = .ok target)
    (hsnapshot : reader.readTarget d target now = .ok snapshot) :
    reader.serviceLines d serviceName = some snapshot.lines := by
  obtain ⟨result, hresult, hlines⟩ := bind_eq_ok hsnapshot
  rw [serviceLines, htarget]
  dsimp only
  rw [hresult]
  dsimp only
  split at hlines
  · cases hlines
  next hcode =>
    obtain rfl := Except.ok.inj hlines
    rw [if_neg hcode]
    rfl

/-- Nothing is known of the lines when the log could not be read. -/
theorem serviceLines_of_resolve {serviceName : String} {x : Exc}
    (h : reader.resolve d (some serviceName) = .error x) : reader.serviceLines d serviceName = none := by
  rw [serviceLines, h]

theorem serviceLines_of_readTarget {serviceName : String} {target : ServiceLogTarget} {x : Exc}
    (htarget : reader.resolve d (some serviceName) = .ok target)
    (h : reader.readTarget d target now = .error x) : reader.serviceLines d serviceName = none := by
  rw [serviceLines, htarget]
  dsimp only
  cases hresult : runLogCommand (reader.commands.logs target.containerId) with
  | error y => rfl
  | ok result =>
    rw [readTarget, hresult] at h
    by_cases hcode : result.returncode ≠ 0
    · simp only [if_pos hcode]
    · change (if result.returncode ≠ 0 then Except.error logsUnavailable else _) = _ at h
      rw [if_neg hcode] at h
      cases h

end ServiceLogReader

/-- The timestamps of a snapshot have no null character. -/
theorem isStorable_timestamp {result : CommandResult} {redactions : List String}
    {line : ServiceLogLine} (h : line ∈ (result.serviceLogLines redactions).1) :
    Json.Value.isStorable line.timestamp = true := by
  rw [CommandResult.serviceLogLines, Prod.map_fst] at h
  obtain ⟨logLine, hmem, rfl⟩ := List.mem_map.mp h
  obtain ⟨stream, rawLine, cut, -, hline⟩ := mem_serviceLogLines hmem
  simp only [serviceLogLine] at hline
  split at hline
  · cases hline
  next hgood =>
    cases hline
    rw [Bool.or_eq_true, not_or, Bool.not_eq_true, Bool.not_eq_true', Bool.not_eq_false] at hgood
    rw [isStorable_iff]
    simpa [LogLine.text] using notMem_of_isDockerTimestamp hgood.2

namespace ServiceLogReader

variable {reader : ServiceLogReader} {d : Deployment} {runtime : RuntimeDeployment} {now : Time}

theorem isStorable_of_serviceLines {serviceName : String} {lines : List ServiceLogLine}
    (h : reader.serviceLines d serviceName = some lines) {line : ServiceLogLine} (hline : line ∈ lines) :
    Json.Value.isStorable line.timestamp = true := by
  unfold serviceLines at h
  split at h
  · cases h
  split at h
  · cases h
  split at h
  · cases h
  · obtain rfl := Option.some.inj h
    exact isStorable_timestamp hline

/-- What is read for diagnostics, and what is known when nothing is. -/
theorem readDiagnostic_spec (hreader : reader.Answers)
    (hruntime : RuntimeDeployment.fromDeployment d = .ok runtime) (serviceName : String) (now : Time) :
    Ensures (reader.readDiagnostic d serviceName now)
      (fun r ↦ reader.serviceLines d serviceName = some r.1.lines
        ∧ r.2.1.all (isVarchar 32) = true ∧ r.2.2.all isInteger = true)
      fun x ↦ ∀ code, x = .serviceLog code →
        code ∈ logErrorCodes ∧ reader.serviceLines d serviceName = none := by
  rw [readDiagnostic]
  cases htarget : reader.resolve d (some serviceName) with
  | error x =>
    have hknown := (resolve_known hreader hruntime _).of_error htarget
    exact fun code hx ↦ ⟨hknown code hx, serviceLines_of_resolve htarget⟩
  | ok target =>
    cases hsnapshot : reader.readTarget d target now with
    | error x =>
      have hknown := (readTarget_known hreader target).of_error hsnapshot
      have hlines := serviceLines_of_readTarget htarget hsnapshot
      change Ensures (reader.readTarget d target now >>= _) _ _
      rw [hsnapshot]
      exact fun code hx ↦ ⟨hknown code hx, hlines⟩
    | ok snapshot =>
      have hlines := serviceLines_eq htarget hsnapshot
      change Ensures (reader.readTarget d target now >>= _) _ _
      rw [hsnapshot]
      -- the snapshot is read; only the state of the container is still asked for
      simp only [Bind.bind, Except.bind]
      split
      · exact ⟨hlines, rfl, rfl⟩
      next x hne _ => exact fun code hx ↦ absurd hx (hne code)
      next result hresult =>
        split
        · exact ⟨hlines, rfl, rfl⟩
        next status exitCode hstate =>
          have hexit : reader.commands.inspectExit target.containerId = .ok result := by
            unfold runLogCommand at hresult
            split at hresult
            · cases hresult
            · exact hresult
          obtain ⟨hstatus, hcode⟩ := hreader.state _ _ _ _ hexit hstate
          exact ⟨hlines, hstatus, hcode⟩

end ServiceLogReader

namespace DiagnosticCollector

variable {collector : DiagnosticCollector} {d : Deployment} {failure : RuntimeFailure}
  {runtime : RuntimeDeployment} {artifact : DiagnosticArtifactDraft} {capturedAt retrievedAt : Time}

theorem made_serviceArtifact (hreader : collector.serviceLogs.Answers)
    (hruntime : RuntimeDeployment.fromDeployment d = .ok runtime) {service : RuntimeService}
    (h : collector.serviceArtifact d service.name capturedAt retrievedAt = .ok artifact) :
    artifact.Made ((collector.serviceLogs.serviceLines d service.name).map
        (List.map ServiceLogLine.diagnostic))
      ∧ artifact.kind = .serviceLog ∧ artifact.serviceName = some service.name := by
  have hname := isVarchar_of_isServiceName service.name_valid
  have hread := ServiceLogReader.readDiagnostic_spec hreader hruntime service.name retrievedAt
  unfold serviceArtifact at h
  split at h
  next code heq =>
    obtain ⟨hcode, hlines⟩ := hread.of_error heq code rfl
    obtain rfl := Except.ok.inj h
    rw [hlines]
    refine ⟨⟨rfl, ?_, isVarchar_logErrorCode hcode, rfl, hname, rfl, rfl, rfl, rfl, rfl, rfl⟩, rfl, rfl⟩
    exact fun line hline ↦ absurd hline List.not_mem_nil
  · cases h
  next snapshot containerStatus containerExitCode heq =>
    obtain ⟨hlines, hstatus, hcode⟩ := hread.of_ok heq
    obtain rfl := Except.ok.inj h
    rw [hlines]
    refine ⟨⟨rfl, ?_, rfl, rfl, hname, rfl, hstatus, hcode, rfl, rfl⟩, rfl, rfl⟩
    intro line hline
    obtain ⟨logLine, hmem, rfl⟩ := List.mem_map.mp ((boundedDiagnosticLines_spec _).1.subset hline)
    exact ServiceLogReader.isStorable_of_serviceLines hlines hmem

theorem made_commandArtifact (hreader : collector.serviceLogs.Answers) (hfailure : failure.Regular)
    {command : FailedCommandOutput} (hcommand : command ∈ failure.commandOutput)
    {runtime : Option RuntimeDeployment}
    (h : commandArtifact collector.serviceLogs.order collector.serviceLogs.readSecret runtime command
      capturedAt = .ok artifact) :
    artifact.Made ((deploymentLogRedactions collector.serviceLogs.order
        collector.serviceLogs.readSecret runtime).toOption.map command.lines)
      ∧ artifact.kind = .commandOutput := by
  have hoperation := hfailure.operation command hcommand
  have hname := hfailure.serviceName command hcommand
  have hreturn := hfailure.returnCode command hcommand
  unfold commandArtifact at h
  split at h
  next code heq =>
    have hcode := (deploymentLogRedactions_known hreader.secret).of_error heq code rfl
    obtain rfl := Except.ok.inj h
    rw [heq]
    refine ⟨⟨rfl, ?_, isVarchar_logErrorCode hcode, hoperation, hname, hreturn, rfl, rfl, rfl, rfl,
      rfl⟩, rfl⟩
    exact fun line hline ↦ absurd hline List.not_mem_nil
  · cases h
  next redactions heq =>
    obtain rfl := Except.ok.inj h
    rw [heq]
    have hlines : ∀ line ∈ command.lines redactions, line.timestamp = none := by
      intro line hline
      obtain ⟨outputLine, -, rfl⟩ := List.mem_map.mp hline
      rfl
    have hbounded : (commandLines (redactions.map String.toList) command.stdout.toList
        command.stderr.toList).1.map OutputLine.text
        = (boundedDiagnosticLines (command.lines redactions)).1 := by
      rw [commandLines, text_boundedLines]
      rfl
    refine ⟨⟨hbounded, ?_, rfl, hoperation, hname, hreturn, rfl, rfl, rfl, rfl⟩, rfl⟩
    intro line hline
    have hmem := (boundedDiagnosticLines_spec _).1.subset (hbounded ▸ hline)
    rw [hlines line hmem]
    rfl

/-- Of each failed command there is one artifact. -/
theorem made_commandArtifacts (hreader : collector.serviceLogs.Answers) (hfailure : failure.Regular)
    {parsed : Except Exc RuntimeDeployment} {artifacts : List DiagnosticArtifactDraft}
    (h : collector.commandArtifacts parsed failure capturedAt = .ok artifacts) :
    List.Forall₂ DiagnosticArtifactDraft.Made artifacts
        (collector.commandSources parsed.toOption failure)
      ∧ artifacts.length ≤ 1 ∧ ∀ a ∈ artifacts, a.kind = .commandOutput := by
  have hone {command : FailedCommandOutput} (hcommand : failure.commandOutput = some command)
      {runtime : Option RuntimeDeployment}
      (h : (commandArtifact collector.serviceLogs.order collector.serviceLogs.readSecret runtime
        command capturedAt).map (fun artifact ↦ [artifact]) = .ok artifacts) :
      List.Forall₂ DiagnosticArtifactDraft.Made artifacts (collector.commandSources runtime failure)
        ∧ artifacts.length ≤ 1 ∧ ∀ a ∈ artifacts, a.kind = .commandOutput := by
    obtain ⟨artifact, hartifact, rfl⟩ := map_eq_ok h
    obtain ⟨hmade, hkind⟩ := made_commandArtifact hreader hfailure hcommand hartifact
    rw [commandSources, hcommand]
    exact ⟨.cons hmade .nil, le_rfl, fun a ha ↦ List.mem_singleton.mp ha ▸ hkind⟩
  unfold commandArtifacts at h
  split at h
  next hnone =>
    obtain rfl := Except.ok.inj h
    rw [commandSources, hnone]
    exact ⟨.nil, Nat.zero_le _, fun a ha ↦ absurd ha List.not_mem_nil⟩
  next hcommand => exact hone hcommand h
  next hcommand => exact hone hcommand h
  · cases h

/-- The artifacts of a failure are made of its sources, and no two have the same source. -/
theorem made_capture (hreader : collector.serviceLogs.Answers) (hfailure : failure.Regular)
    {clock : ℕ → Time} {artifacts : List DiagnosticArtifactDraft}
    (h : collector.capture d failure clock = .ok artifacts) :
    List.Forall₂ DiagnosticArtifactDraft.Made artifacts (collector.sources d failure)
      ∧ artifacts.Pairwise fun a b ↦ ¬(a.kind = b.kind ∧ a.operation.getD "" = b.operation.getD ""
        ∧ a.serviceName.getD "" = b.serviceName.getD "") := by
  have hcommandsApart {commands : List DiagnosticArtifactDraft} (hlength : commands.length ≤ 1) :
      commands.Pairwise fun a b ↦ ¬(a.kind = b.kind
        ∧ a.operation.getD "" = b.operation.getD "" ∧ a.serviceName.getD "" = b.serviceName.getD "") := by
    obtain _ | ⟨a, _ | ⟨b, rest⟩⟩ := commands
    · exact .nil
    · exact List.pairwise_singleton _ _
    · rw [List.length_cons, List.length_cons] at hlength
      omega
  unfold capture at h
  rw [sources]
  cases hruntime : RuntimeDeployment.fromDeployment d with
  | error x =>
    rw [hruntime] at h
    obtain ⟨commands, hcommands, h⟩ := bind_eq_ok h
    obtain ⟨hmade, hlength, -⟩ := made_commandArtifacts hreader hfailure hcommands
    dsimp only at h
    split at h
    · obtain rfl := Except.ok.inj h
      exact ⟨hmade, hcommandsApart hlength⟩
    · cases h
    next heq => exact nomatch heq
  | ok runtime =>
    rw [hruntime] at h
    obtain ⟨commands, hcommands, h⟩ := bind_eq_ok h
    obtain ⟨hmade, hlength, hkind⟩ := made_commandArtifacts hreader hfailure hcommands
    obtain ⟨services, hservices, h⟩ := bind_eq_ok h
    obtain rfl := Except.ok.inj h
    have hservices : List.Forall₂ (fun artifact (service : RuntimeService) ↦
        artifact.Made ((collector.serviceLogs.serviceLines d service.name).map
          (List.map ServiceLogLine.diagnostic))
        ∧ artifact.kind = .serviceLog ∧ artifact.serviceName = some service.name)
        services runtime.services := by
      have hmade := (mapM_eq_ok hservices).imp fun service artifact hartifact ↦
        made_serviceArtifact hreader hruntime hartifact
      rw [← List.zipIdx_map_fst 0 runtime.services, List.forall₂_map_right_iff]
      exact hmade.flip
    have hnames : services.map DiagnosticArtifactDraft.serviceName
        = runtime.services.map fun service ↦ some service.name := by
      rw [← List.forall₂_eq_eq_eq, List.forall₂_map_left_iff, List.forall₂_map_right_iff]
      exact hservices.imp fun _ _ h ↦ h.2.2
    have hnodup : (services.map DiagnosticArtifactDraft.serviceName).Nodup := by
      have hsome := runtime.names_nodup.map (Option.some_injective String)
      rw [List.map_map] at hsome
      rw [hnames]
      exact hsome
    have hkinds : ∀ a ∈ services, a.kind = .serviceLog :=
      ((List.forall₂_and_left _ _).mp (hservices.imp fun a service h ↦ ⟨h.2.1, h⟩)).1
    have hsome : ∀ a ∈ services, ∃ name, a.serviceName = some name := by
      intro a ha
      have hmem := hnames ▸ List.mem_map_of_mem (f := DiagnosticArtifactDraft.serviceName) ha
      obtain ⟨service, -, hname⟩ := List.mem_map.mp hmem
      exact ⟨service.name, hname.symm⟩
    refine ⟨?_, List.pairwise_append.mpr ⟨hcommandsApart hlength, ?_, ?_⟩⟩
    · refine List.rel_append hmade ?_
      rw [List.forall₂_map_right_iff]
      exact hservices.imp fun _ _ h ↦ h.1
    · have hdistinct : services.Pairwise fun a b ↦ a.serviceName ≠ b.serviceName :=
        List.pairwise_map.mp hnodup
      refine hdistinct.imp_of_mem ?_
      intro a b ha hb hne hsame
      obtain ⟨name, hname⟩ := hsome a ha
      obtain ⟨name', hname'⟩ := hsome b hb
      refine hne ?_
      rw [hname, hname'] at hsame ⊢
      exact congrArg some hsame.2.2
    · intro a ha b hb hsame
      rw [hkind a ha, hkinds b hb] at hsame
      exact nomatch hsame.1

end DiagnosticCollector

/-! ## Recording -/

namespace DeploymentDb

/-- The numbers drawn for a report are new. -/
structure Fresh (db : DeploymentDb) (eventId : ℕ) (ids : List Uuid) : Prop where
  event_lt : eventId < 2 ^ 63
  event_new : ∀ e ∈ db.events, e.id ≠ eventId
  report_new : ∀ row ∈ db.diagnostics, row.eventId ≠ eventId
  ids_nodup : ids.Nodup
  ids_new : ∀ row ∈ db.diagnostics, row.id ∉ ids

variable {db : DeploymentDb} {d : Uuid} {eventId : ℕ} {ids : List Uuid} {now : Time}
  {report : DiagnosticReport}

/-- The summary of a report fits the columns of an event. -/
theorem length_diagnosticEventSummary (artifacts : List DiagnosticArtifactDraft)
    (h : artifacts.length < 2 ^ 63) : (diagnosticEventSummary artifacts).1.length ≤ 64
      ∧ (diagnosticEventSummary artifacts).2.length ≤ 300 := by
  have hdigits {n : ℕ} (hn : n < 2 ^ 63) : (toString n).length ≤ 19 :=
    (Nat.length_repr_le_iff (by decide)).mpr (hn.trans (by decide))
  have hcount : artifacts.countP (fun a ↦ a.captureStatus == .captured) < 2 ^ 63 :=
    List.countP_le_length.trans_lt h
  constructor
  · simp only [diagnosticEventSummary]
    split
    · decide
    split <;> decide
  · simp only [diagnosticEventSummary, String.length_append]
    have htexts : "Stored ".length = 7 ∧ " of ".length = 4
        ∧ " bounded diagnostic artifacts".length = 29 := ⟨rfl, rfl, rfl⟩
    have := hdigits hcount
    have := hdigits h
    omega

theorem insertEvent_diagnosticEvent (hfresh : db.Fresh eventId ids)
    (hstage : isVarchar 32 report.failureStage = true) (hcount : report.artifacts.length < 2 ^ 63) :
    db.insertEvent (diagnosticEvent d report eventId now)
      = .ok { db with events := db.events ++ [diagnosticEvent d report eventId now] } := by
  have hsummary := length_diagnosticEventSummary (report.artifacts.map Prod.snd)
    (by rwa [List.length_map])
  have hfits : (diagnosticEvent d report eventId now).fits = true := by
    rw [isVarchar, Bool.and_eq_true, decide_eq_true_eq] at hstage
    simp only [DeploymentEvent.fits, diagnosticEvent, Bool.and_eq_true]
    exact ⟨⟨⟨decide_eq_true hfresh.event_lt, decide_eq_true hstage.1⟩, decide_eq_true hsummary.1⟩,
      decide_eq_true hsummary.2⟩
  have hnew : db.events.any (·.id == (diagnosticEvent d report eventId now).id) = false := by
    rw [List.any_eq_false]
    intro e he hsame
    exact hfresh.event_new e he (beq_iff_eq.mp hsame)
  rw [insertEvent, hfits, hnew]
  rfl

end DeploymentDb

open DeploymentDb

section Record

variable {db : DeploymentDb} {claim : DeploymentJobClaim} {now : Time} {eventId : ℕ} {ids : List Uuid}
  {stage code : String} {retention : Int} {artifacts : List DiagnosticArtifactDraft}
  {sources : List (Option (List DiagnosticLine))}

/-- Under a live claim what remains is to store the artifacts. -/
theorem recordDiagnostics_eq {report : DiagnosticReport} (hclaim : db.lockClaim claim now = .ok ())
    (hfresh : db.Fresh eventId ids) (hstage : isVarchar 32 report.failureStage = true)
    (hretention : 0 < report.retention) (hcount : report.artifacts.length < 2 ^ 63) :
    db.recordDiagnostics claim report eventId now
      = (insertDiagnosticArtifacts claim.deployment.id eventId report.failureStage report.failureCode
          report.retention.toNat
          { db with events := db.events ++ [diagnosticEvent claim.deployment.id report eventId now] }
          report.artifacts).map
        fun db' ↦ (diagnosticEvent claim.deployment.id report eventId now, db') := by
  rw [recordDiagnostics, if_neg (not_le.mpr hretention), hclaim]
  change insertReport db claim.deployment.id report eventId now = _
  rw [insertReport, insertEvent_diagnosticEvent hfresh hstage hcount]
  rfl

/-- Recording artifacts that are made of sources. -/
theorem recordDiagnostics_made_iff (hclaim : db.lockClaim claim now = .ok ())
    (hfresh : db.Fresh eventId ids) (hstage : isVarchar 32 stage = true)
    (hcode : isVarchar 64 code = true) (hretention : 0 < retention)
    (hids : ids.length = artifacts.length) (hcount : artifacts.length < 2 ^ 63)
    (hmade : List.Forall₂ DiagnosticArtifactDraft.Made artifacts sources)
    (hapart : artifacts.Pairwise fun a b ↦ ¬(a.kind = b.kind
      ∧ a.operation.getD "" = b.operation.getD "" ∧ a.serviceName.getD "" = b.serviceName.getD "")) :
    (∃ event db', db.recordDiagnostics claim ⟨stage, code, ids.zip artifacts, retention⟩ eventId now
        = .ok (event, db')
      ∧ db'.diagnostics = db.diagnostics ++ (ids.zip artifacts).map
        (artifactRow claim.deployment.id eventId stage code retention.toNat))
    ↔ ∀ source ∈ sources, ∀ lines ∈ source, StorableEnd lines := by
  have hfst : (ids.zip artifacts).map Prod.fst = ids := List.map_fst_zip hids.le
  have hsnd : (ids.zip artifacts).map Prod.snd = artifacts := List.map_snd_zip hids.ge
  have hlength : (ids.zip artifacts).length < 2 ^ 63 := by
    rw [List.length_zip, hids, min_self]
    exact hcount
  have heq : db.recordDiagnostics claim ⟨stage, code, ids.zip artifacts, retention⟩ eventId now = _ :=
    recordDiagnostics_eq hclaim hfresh hstage hretention hlength
  rw [heq]
  constructor
  · rintro ⟨event, db', hok, -⟩ source hsource
    obtain ⟨db₁, hinsert, -⟩ := map_eq_ok hok
    obtain ⟨artifact, hartifact, hmade⟩ := exists_of_mem_right hmade hsource
    rw [← hsnd] at hartifact
    obtain ⟨a, ha, rfl⟩ := List.mem_map.mp hartifact
    exact (hmade.fits_iff hstage hcode).mp (insertDiagnosticArtifacts_fits hinsert a ha)
  · intro hstorable
    have hpair : ∀ a ∈ ids.zip artifacts, ∃ source ∈ sources, a.2.Made source := by
      intro a ha
      exact exists_of_mem_right hmade.flip (hsnd ▸ List.mem_map_of_mem (f := Prod.snd) ha)
    have hpairwise : (ids.zip artifacts).Pairwise Apart := by
      have hids := List.pairwise_map.mp (hfst.symm ▸ hfresh.ids_nodup)
      have hsources := List.pairwise_map.mp (hsnd.symm ▸ hapart)
      exact hids.and hsources
    have hsize : ∀ a ∈ ids.zip artifacts, diagnosticSize a.2.lines ≤ diagnosticArtifactMaxBytes := by
      intro a ha
      obtain ⟨source, -, hmade⟩ := hpair a ha
      exact hmade.size_le
    have hfits : ∀ a ∈ ids.zip artifacts,
        (artifactRow claim.deployment.id eventId stage code retention.toNat a).fits = true := by
      intro a ha
      obtain ⟨source, hsource, hmade⟩ := hpair a ha
      exact (hmade.fits_iff hstage hcode).mpr (hstorable source hsource)
    have hchecks : ∀ a ∈ ids.zip artifacts,
        (artifactRow claim.deployment.id eventId stage code retention.toNat a).checks = true := by
      intro a ha
      obtain ⟨source, -, hmade⟩ := hpair a ha
      exact hmade.checks
    have hnew : ∀ a ∈ ids.zip artifacts, ∀ row ∈ db.diagnostics, diagnosticConflict
        (artifactRow claim.deployment.id eventId stage code retention.toNat a) row = false := by
      intro a ha row hrow
      have hid : a.1 ≠ row.id := fun heq ↦ hfresh.ids_new row hrow
        (heq ▸ (hfst ▸ List.mem_map_of_mem (f := Prod.fst) ha))
      have hevent : eventId ≠ row.eventId := (hfresh.report_new row hrow).symm
      simp [diagnosticConflict, artifactRow, DiagnosticArtifactDraft.row, hid, hevent]
    let event := diagnosticEvent claim.deployment.id ⟨stage, code, ids.zip artifacts, retention⟩ eventId now
    have hinsert : insertDiagnosticArtifacts claim.deployment.id eventId stage code retention.toNat
        { db with events := db.events ++ [event] } (ids.zip artifacts) = .ok _ :=
      insertDiagnosticArtifacts_stored hsize hfits hchecks hpairwise hnew
    exact ⟨_, _, congrArg (Except.map _) hinsert, rfl⟩

/-- **What is captured of a failure can be recorded** when no line that is kept has a null
character. -/
theorem capture_recorded_iff {collector : DiagnosticCollector} {failure : RuntimeFailure}
    {clock : ℕ → Time} (hreader : collector.serviceLogs.Answers) (hfailure : failure.Regular)
    (hcapture : collector.capture claim.deployment failure clock = .ok artifacts)
    (hclaim : db.lockClaim claim now = .ok ()) (hfresh : db.Fresh eventId ids)
    (hids : ids.length = artifacts.length) (hcount : artifacts.length < 2 ^ 63)
    (hretention : 0 < retention) :
    (∃ event db', db.recordDiagnostics claim
        ⟨failure.stage, failure.code, ids.zip artifacts, retention⟩ eventId now = .ok (event, db')
      ∧ db'.diagnostics = db.diagnostics ++ (ids.zip artifacts).map
        (artifactRow claim.deployment.id eventId failure.stage failure.code retention.toNat))
    ↔ ∀ source ∈ collector.sources claim.deployment failure, ∀ lines ∈ source, StorableEnd lines := by
  obtain ⟨hmade, hapart⟩ := DiagnosticCollector.made_capture hreader hfailure hcapture
  exact recordDiagnostics_made_iff hclaim hfresh hfailure.stage hfailure.code hretention hids hcount
    hmade hapart

end Record

/-! ## A failed command -/

/-- The deployment of a claim, with one service and no secrets. -/
def sampleFailed : DeploymentJobClaim where
  deployment := {
    id := .ofNat 9
    projectId := .ofNat 1
    sourceType := .mainHead
    requestedCommitSha := none
    resolvedCommitSha := "0123456789012345678901234567890123456789"
    configVersion := 1
    configSnapshot := .obj [
      ("services", .arr [.obj [("name", .str "api"),
        ("build", .obj [("context", .str "."), ("dockerfile", .str "Dockerfile")]),
        ("internalPort", .int 8000), ("healthPath", .str "/health")]]),
      ("routes", .arr [.obj [("path", .str "/"), ("service", .str "api")]])]
    status := .starting
    createdAt := 0
    updatedAt := 0 }
  token := .ofNat 2
  workerId := "worker"
  attempts := 1
  leaseExpiresAt := 11

/-- A database in which the claim is live. -/
def sampleFailedDb : DeploymentDb where
  projects _ := some .ready
  deployments := ∅
  jobs := (∅ : AList fun _ : Uuid ↦ DeploymentJobRow).insert (.ofNat 9) {
    state := .claimed
    attempts := 1
    availableAt := 0
    leaseOwner := some "worker"
    leaseExpiresAt := some 11
    claimToken := some (.ofNat 2)
    createdAt := 0
    updatedAt := 0 }
  events := []
  diagnostics := []

/-- No container is found. -/
def sampleCollector : DiagnosticCollector where
  serviceLogs := {
    order := lastOrder
    readSecret := fun _ _ ↦ .error .secretStore
    commands := {
      inspectTarget := fun _ ↦ .ok { returncode := 1, stdout := "" }
      logs := fun _ ↦ .ok { returncode := 1, stdout := "" }
      inspectExit := fun _ ↦ .ok { returncode := 1, stdout := "" } } }

/-- A build that printed a text. -/
def sampleCommand (stdout : String) : FailedCommandOutput where
  operation := "DOCKER_BUILD"
  returnCode := 1
  stdout := stdout
  stderr := ""
  stdoutTruncated := false
  stderrTruncated := false
  serviceName := some "api"

def sampleFailure (stdout : String) : RuntimeFailure where
  stage := "BUILD"
  code := "IMAGE_BUILD_FAILED"
  commandOutput := some (sampleCommand stdout)

theorem sampleCollector_answers : sampleCollector.serviceLogs.Answers where
  secret _ _ _ := nofun
  target _ _ := nofun
  logs _ _ := nofun
  exit _ _ := nofun
  state _ _ _ _ h hstate := by
    obtain rfl := Except.ok.inj h
    cases hstate

theorem sampleFailure_regular (stdout : String) : (sampleFailure stdout).Regular where
  stage := (by decide : isVarchar 32 "BUILD" = true)
  code := (by decide : isVarchar 64 "IMAGE_BUILD_FAILED" = true)
  operation := by
    rintro command ⟨⟩
    exact (by decide : isVarchar 64 "DOCKER_BUILD" = true)
  serviceName := by
    rintro command ⟨⟩
    exact (by decide : isVarchar 32 "api" = true)
  returnCode := by
    rintro command ⟨⟩
    exact (by decide : isInteger 1 = true)

theorem sampleFailedDb_fresh : sampleFailedDb.Fresh 1 [.ofNat 100, .ofNat 101] where
  event_lt := by decide
  event_new _ h := absurd h List.not_mem_nil
  report_new _ h := absurd h List.not_mem_nil
  ids_nodup := by decide
  ids_new _ h := absurd h List.not_mem_nil

/-- There are no secrets to redact. -/
theorem sample_redactions {runtime : RuntimeDeployment} (h : runtime.logSecrets = []) :
    deploymentLogRedactions lastOrder (fun _ _ ↦ .error .secretStore) (some runtime) = .ok [] := by
  simp only [deploymentLogRedactions, h, List.mapM_nil]
  simp [lastOrder, pure, Except.pure]

/-- What is captured of the failure, and the lines behind it. -/
theorem sample_capture (stdout : String) : ∃ artifacts, artifacts.length = 2
    ∧ sampleCollector.capture sampleFailed.deployment (sampleFailure stdout) (fun _ ↦ 0) = .ok artifacts
    ∧ sampleCollector.sources sampleFailed.deployment (sampleFailure stdout)
      = [some ((sampleCommand stdout).lines []), none] := by
  obtain ⟨runtime, hruntime, hsecrets, service, hservices, hname⟩ : ∃ runtime,
      RuntimeDeployment.fromDeployment sampleFailed.deployment = .ok runtime
        ∧ runtime.logSecrets = [] ∧ ∃ service, runtime.services = [service] ∧ service.name = "api" :=
    ⟨_, rfl, rfl, _, rfl, rfl⟩
  have hredactions := sample_redactions hsecrets
  have hresolve : sampleCollector.serviceLogs.resolve sampleFailed.deployment (some "api")
      = .error logsUnavailable := by
    rw [ServiceLogReader.resolve, hruntime]
    simp only [hservices, List.find?_cons, hname]
    change (deploymentLogRedactions lastOrder (fun _ _ ↦ .error .secretStore) (some runtime) >>= _) = _
    rw [hredactions]
    rfl
  obtain ⟨artifact, hartifact⟩ : ∃ artifact, commandArtifact lastOrder
      (fun _ _ ↦ .error .secretStore) (some runtime) (sampleCommand stdout) 0 = .ok artifact := by
    rw [commandArtifact, hredactions]
    exact ⟨_, rfl⟩
  have hcommands : sampleCollector.commandArtifacts (.ok runtime) (sampleFailure stdout) 0
      = .ok [artifact] := congrArg (Except.map fun artifact ↦ [artifact]) hartifact
  have hservice : sampleCollector.serviceArtifact sampleFailed.deployment "api" 0 0
      = .ok (DiagnosticCollector.unavailableLog "api" "SERVICE_LOGS_UNAVAILABLE" 0) := by
    rw [DiagnosticCollector.serviceArtifact, ServiceLogReader.readDiagnostic, hresolve]
    rfl
  have hlines : sampleCollector.serviceLogs.serviceLines sampleFailed.deployment "api" = none := by
    rw [ServiceLogReader.serviceLines, hresolve]
  refine ⟨[artifact, DiagnosticCollector.unavailableLog "api" "SERVICE_LOGS_UNAVAILABLE" 0], rfl, ?_, ?_⟩
  · rw [DiagnosticCollector.capture, hruntime]
    simp only [hcommands, hservices, List.zipIdx_singleton, List.mapM_cons, List.mapM_nil, hname, hservice]
    rfl
  · rw [DiagnosticCollector.sources, hruntime]
    have hsource : sampleCollector.commandSources (some runtime) (sampleFailure stdout)
        = [some ((sampleCommand stdout).lines [])] := by
      change [(deploymentLogRedactions lastOrder (fun _ _ ↦ .error .secretStore)
        (some runtime)).toOption.map (sampleCommand stdout).lines] = _
      rw [hredactions]
      rfl
    simp only [hsource, hservices, List.map_cons, List.map_nil, hname, hlines]
    rfl

theorem sampleFailed_live : sampleFailedDb.lockClaim sampleFailed 1 = .ok () := rfl

/-- A line without a null character is recorded. -/
theorem capture_recorded_sample : ∃ artifacts event db', artifacts.length = 2
    ∧ sampleCollector.capture sampleFailed.deployment (sampleFailure "ok") (fun _ ↦ 0) = .ok artifacts
    ∧ sampleFailedDb.recordDiagnostics sampleFailed ⟨"BUILD", "IMAGE_BUILD_FAILED",
      [.ofNat 100, .ofNat 101].zip artifacts, 1⟩ 1 1 = .ok (event, db')
    ∧ db'.diagnostics.length = 2 := by
  obtain ⟨artifacts, hlength, hcapture, hsources⟩ := sample_capture "ok"
  obtain ⟨event, db', hok, hrows⟩ := (capture_recorded_iff sampleCollector_answers
    (sampleFailure_regular "ok") hcapture sampleFailed_live sampleFailedDb_fresh hlength.symm
    (hlength.symm ▸ by decide) zero_lt_one).mpr (by
      rw [hsources]
      intro source hsource lines hlines
      obtain rfl : source = some lines := hlines
      obtain rfl : lines = (sampleCommand "ok").lines [] := by simpa using hsource
      intro last hlast _ line hline
      have hmem := hlast.subset hline
      have hall : ((sampleCommand "ok").lines []).all
        (fun line ↦ Json.Value.isStorable line.message) = true := by decide
      exact List.all_eq_true.mp hall line hmem)
  refine ⟨artifacts, event, db', hlength, hcapture, hok, ?_⟩
  rw [hrows, List.length_append, List.length_map, List.length_zip, hlength]
  rfl

/-- Of a failure whose command printed a null character nothing is recorded. -/
theorem not_capture_recorded : ∃ artifacts, artifacts.length = 2
    ∧ sampleCollector.capture sampleFailed.deployment (sampleFailure "a\x00b") (fun _ ↦ 0)
      = .ok artifacts
    ∧ ¬∃ event db', sampleFailedDb.recordDiagnostics sampleFailed ⟨"BUILD", "IMAGE_BUILD_FAILED",
      [.ofNat 100, .ofNat 101].zip artifacts, 1⟩ 1 1 = .ok (event, db')
      ∧ db'.diagnostics = ([.ofNat 100, .ofNat 101].zip artifacts).map
        (artifactRow (.ofNat 9) 1 "BUILD" "IMAGE_BUILD_FAILED" 1) := by
  obtain ⟨artifacts, hlength, hcapture, hsources⟩ := sample_capture "a\x00b"
  obtain ⟨hmade, hapart⟩ := DiagnosticCollector.made_capture sampleCollector_answers
    (sampleFailure_regular "a\x00b") hcapture
  refine ⟨artifacts, hlength, hcapture, fun hrecorded ↦ ?_⟩
  have hstorable := (recordDiagnostics_made_iff sampleFailed_live sampleFailedDb_fresh
    (sampleFailure_regular "a\x00b").stage (sampleFailure_regular "a\x00b").code zero_lt_one hlength.symm
    (hlength.symm ▸ by decide) hmade hapart).mp hrecorded
  rw [hsources] at hstorable
  have hend := hstorable _ List.mem_cons_self _ rfl _ List.suffix_rfl (by decide)
  have hall := List.all_eq_true.mpr hend
  exact absurd hall (by decide)

end Heimdall
