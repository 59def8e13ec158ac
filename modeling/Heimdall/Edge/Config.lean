import Heimdall.Edge.Routes
import Heimdall.Runtime.Process

/-!
# The edge configuration manager

`DockerEdgeConfigManager` switches the nginx file of the edge. `apply` is a transaction over one
live file: it writes a journal with both contents, replaces the live file, reloads and probes nginx,
asks the caller to commit (`finalize`), marks the journal as committed and removes it. Anything that
fails between the replacement and the commit restores the previous content.

## Exceptions and flags

The handlers of `apply` look at four variables (`candidate_path`, `switched`, `finalized`,
`previous`) that the body assigns on its way, so the body is a program with local variables and the
handlers see the last values.
-/

namespace Heimdall

open Effect

/-- The change a worker is applying, as far as the probes need it. -/
structure EdgeRouteChange where
  hostname : String
  enabled : Bool
  previousHostname : Option String := none
deriving DecidableEq

inductive EdgeTransactionPhase where
  | prepared
  | committed
deriving DecidableEq

/-- `_EdgeTransactionPhase.value`. -/
def EdgeTransactionPhase.value : EdgeTransactionPhase → String
  | .prepared => "PREPARED"
  | .committed => "COMMITTED"

/-- The content of the transaction journal. -/
structure EdgeTransaction where
  previous : String
  candidate : String
  previousHostname : Option String
  phase : EdgeTransactionPhase
deriving DecidableEq

/-- The callbacks of `apply`. -/
structure EdgeCallbacks where
  heartbeat : Py Unit
  fence : Py Unit
  finalize : Py Unit

/-- The configuration of `DockerEdgeConfigManager`, with what its constructor checks. -/
structure EdgeConfigManager where
  runner : CommandRunner
  /-- How many probes fit into the probe timeout. -/
  probes : ℕ
  managementHostname : String
  nginxImage : String
  edgeNetworkName : String
  edgeContainerName : String
  managementHostname_valid : isHostname managementHostname = true
  edgeNetworkName_valid : isDockerName 127 edgeNetworkName = true
  edgeContainerName_valid : isDockerName 127 edgeContainerName = true

def edgeFailure {α : Type} (code : String) (retryable uncertain : Bool := false) : Py α :=
  Py.raise (.edgeRuntime { code := code, retryable := retryable, uncertain := uncertain })

/-! ## Files -/

def livePath : Path := .edge .publicRoutes

def journalPath : Path := .edge .transactionJournal

def ensureEdgeDirectory : Py Unit := do
  Py.file (.mkdir .edgeRoot)
  if ← Py.file (.isDirectory .edgeRoot) then Py.file (.chmodDirectory .edgeRoot)
  else edgeFailure "EDGE_CONFIG_ROOT_INVALID"

/-- `_private_temporary`. -/
def privateTemporary (text : String) : Py Path := do
  let n ← Py.file .mkstemp
  let path := Path.edge (.temporary n)
  (do
    Py.file (.chmod path)
    Py.file (.writeText path text)
    Py.file (.fsync path)).tryCatch fun x ↦ do
      Py.file (.unlink path)
      Py.raise x
  pure path

/-- `_atomic_write`. -/
def atomicWrite (path : Path) (text : String) : Py Unit := do
  let temporary ← privateTemporary text
  (do
    Py.file (.replace temporary path)
    Py.file (.fsyncDirectory .edgeRoot)).tryCatch fun x ↦ do
      Py.file (.unlink temporary)
      Py.raise x

/-! ## The journal -/

/-- `_bounded_config`. -/
def boundedConfig : Json.Value → Option String
  | .str s => if s.utf8ByteSize ≤ maxConfigBytes then some s else none
  | _ => none

/-- A number equal to 2. A decimal fraction is compared exactly. -/
def isTwo : Json.Value → Bool
  | .int n => n == 2
  | .float m e => if 0 ≤ e then m * 10 ^ e.toNat == 2 else m == 2 * 10 ^ (-e).toNat
  | _ => false

/-- A canonical host name or null. -/
def readPreviousHostname : Json.Value → Option (Option String)
  | .null => some none
  | .str s => if isHostname s then some (some s) else none
  | _ => none

def readPhase : Json.Value → Option EdgeTransactionPhase
  | .str "PREPARED" => some .prepared
  | .str "COMMITTED" => some .committed
  | _ => none

def transactionKeys : List String :=
  ["version", "previous", "candidate", "phase", "previous_hostname"]

/-- What `_read_transaction` accepts. -/
def parseTransaction (text : String) : Option EdgeTransaction :=
  match Json.loads text with
  | some (.obj fields) =>
    if fields.all (fun f ↦ transactionKeys.contains f.1)
        && transactionKeys.all (fun k ↦ (fields.map Prod.fst).contains k) then do
      let phase ← readPhase (← fields.lookup "phase")
      let previous ← boundedConfig (← fields.lookup "previous")
      let candidate ← boundedConfig (← fields.lookup "candidate")
      let previousHostname ← readPreviousHostname (← fields.lookup "previous_hostname")
      if isTwo (← fields.lookup "version") then
        some ⟨previous, candidate, previousHostname, phase⟩
      else none
    else none
  | _ => none

/-- The journal of a transaction. -/
def EdgeTransaction.value (tx : EdgeTransaction) : Json.Value :=
  .obj [
    ("candidate", .str tx.candidate),
    ("phase", .str tx.phase.value),
    ("previous", .str tx.previous),
    ("previous_hostname", match tx.previousHostname with
      | some hostname => .str hostname
      | none => .null),
    ("version", .int 2)]

def EdgeTransaction.text (tx : EdgeTransaction) : String := Json.dumps true tx.value ++ "\n"

def readTransaction : Py (Option EdgeTransaction) := do
  if ← Py.file (.exists journalPath) then
    let text ← (Py.file (.readText journalPath)).except fun
      | .osError | .unicode => some (edgeFailure "EDGE_TRANSACTION_JOURNAL_INVALID" false true)
      | _ => none
    match parseTransaction text with
    | some tx => pure (some tx)
    | none => edgeFailure "EDGE_TRANSACTION_JOURNAL_INVALID" false true
  else pure none

def writeTransaction (tx : EdgeTransaction) : Py Unit :=
  (atomicWrite journalPath tx.text).except fun
    | .osError => some (edgeFailure "EDGE_TRANSACTION_JOURNAL_WRITE_FAILED" true)
    | _ => none

def markTransactionCommitted (tx : EdgeTransaction) : Py Unit :=
  writeTransaction { tx with phase := .committed }

def removeTransactionJournal : Py Unit :=
  (do
    Py.file (.unlink journalPath)
    Py.file (.fsyncDirectory .edgeRoot)).except fun
      | .osError => some (edgeFailure "EDGE_TRANSACTION_JOURNAL_CLEAR_FAILED" false true)
      | _ => none

def validateInterruptedLocked : Py Bool := do
  match ← readTransaction with
  | none => pure false
  | some tx =>
    if ← Py.file (.exists livePath) then
      let current ← Py.file (.readText livePath)
      if current = tx.previous ∨ current = tx.candidate then pure true
      else edgeFailure "EDGE_CONFIG_CHANGED_DURING_RECOVERY" false true
    else edgeFailure "EDGE_CONFIG_CHANGED_DURING_RECOVERY" false true

/-! ## Commands and probes -/

/-- `_exact_labels`. -/
def exactLabels (labels : Option Json.Value) (kind : String) : Bool :=
  match labels with
  | some (.obj fields) =>
    (match fields.lookup "heimdall.managed" with | some (.str s) => s == "true" | _ => false)
      && (match fields.lookup "heimdall.kind" with | some (.str s) => s == kind | _ => false)
  | _ => false

/-- `_valid_marker`. -/
def validMarker (marker : Option String) : Bool := marker.any fun m ↦ (Uuid.parse m).isSome

inductive EdgeExpectation where
  | management
  | routed
  | notFound
deriving DecidableEq

def EdgeExpectation.code : EdgeExpectation → String
  | .management => "EDGE_MANAGEMENT_PROBE_FAILED"
  | .routed => "EDGE_ROUTE_PROBE_FAILED"
  | .notFound => "EDGE_DEFAULT_ROUTE_PROBE_FAILED"

/-- The response a probe waits for. -/
def EdgeExpectation.met (e : EdgeExpectation) (response : HttpResponse) : Bool :=
  match e with
  | .management => response.status < 500 && response.management == some "true"
  | .routed => response.status < 500 && validMarker response.marker
  | .notFound => response.status == 404 && response.marker.isNone

/-- `EdgeRouteProbe._wait`. -/
def edgeProbe (hostname : String) (e : EdgeExpectation) (heartbeat : Py Unit) : ℕ → Py Unit
  | 0 => edgeFailure e.code true
  | n + 1 => do
    if ← Py.timeLeft then
      heartbeat
      let met ← (do
        let response ← Py.http (.edge hostname)
        pure (e.met response)).except fun
          | .osError => some (pure false)
          | _ => none
      if met then pure () else edgeProbe hostname e heartbeat n
    else edgeFailure e.code true

namespace EdgeConfigManager

variable (m : EdgeConfigManager)

/-- `_run`. -/
def run (c : Command) (heartbeat : Py Unit) (code : String) : Py CommandResult :=
  (m.runner.run c heartbeat).except fun
    | .commandExecution _ => some (edgeFailure code true)
    | _ => none

def verifyEdge (heartbeat : Py Unit) : Py Unit := do
  let network ← m.run (.networkInspectLabels m.edgeNetworkName) heartbeat "EDGE_NETWORK_UNAVAILABLE"
  if exactLabels (Json.loads network.stdout) "edge-network" then
    let edge ← m.run (.inspectEdge m.edgeContainerName) heartbeat "EDGE_GATEWAY_UNAVAILABLE"
    match Json.loads edge.stdout with
    | some (.obj fields) =>
      let image := match fields.lookup "image" with
        | some (.str s) => s == m.nginxImage
        | _ => false
      let running := match fields.lookup "running" with | some (.bool b) => b | _ => false
      let attached := match fields.lookup "networks" with
        | some (.obj networks) => (networks.lookup m.edgeNetworkName).isSome
        | _ => false
      if exactLabels (fields.lookup "labels") "edge-gateway" && image && running && attached then
        pure ()
      else edgeFailure "EDGE_GATEWAY_CONFLICT"
    | _ => edgeFailure "EDGE_GATEWAY_CONFLICT"
  else edgeFailure "EDGE_NETWORK_CONFLICT"

def readEdgeFile (file : String) (heartbeat : Py Unit) : Py String := do
  let result ← m.run (.readContainerFile m.edgeContainerName file) heartbeat
    "EDGE_CONFIG_SNAPSHOT_FAILED"
  if result.stdoutTruncated || result.stdout.isEmpty then
    edgeFailure "EDGE_CONFIG_SNAPSHOT_FAILED" true
  else pure result.stdout

def testConfig (candidate : Path) (heartbeat : Py Unit) : Py Unit := do
  let mainConfig ← m.readEdgeFile "/etc/nginx/nginx.conf" heartbeat
  let managementConfig ← m.readEdgeFile "/tmp/heimdall-edge-conf/management.conf" heartbeat
  let mainPath ← privateTemporary mainConfig
  let managementPath ← privateTemporary managementConfig
  (do
    let _ ← m.run (.runEdgeTest m.edgeNetworkName mainPath managementPath candidate m.nginxImage)
      heartbeat "EDGE_CONFIG_INVALID").tryFinally do
        Py.file (.unlink mainPath)
        Py.file (.unlink managementPath)

def reload (heartbeat : Py Unit) : Py Unit := do
  m.verifyEdge heartbeat
  let _ ← m.run (.reload m.edgeContainerName) heartbeat "EDGE_RELOAD_FAILED"

def probe (hostname : String) (e : EdgeExpectation) (heartbeat : Py Unit) : Py Unit :=
  edgeProbe hostname e heartbeat m.probes

def probeCandidate (routes : List EdgeRouteTarget) (change : Option EdgeRouteChange)
    (heartbeat : Py Unit) (probeAllRoutes : Bool) : Py Unit := do
  m.probe m.managementHostname .management heartbeat
  if probeAllRoutes then forM routes fun route ↦ m.probe route.hostname .routed heartbeat
  match change with
  | none => pure ()
  | some change =>
    if change.enabled then
      m.probe change.hostname .routed heartbeat
      match change.previousHostname with
      | some previous =>
        if previous ≠ change.hostname then m.probe previous .notFound heartbeat
      | none => pure ()
    else m.probe change.hostname .notFound heartbeat

/-- The probes of `_restore`. -/
def probeRestored (change : Option EdgeRouteChange) (heartbeat : Py Unit) : Py Unit := do
  m.probe m.managementHostname .management heartbeat
  match change with
  | none => pure ()
  | some change =>
    (match change.previousHostname with
      | some hostname => m.probe hostname .routed heartbeat
      | none => pure () : Py Unit)
    if change.enabled && some change.hostname != change.previousHostname then
      m.probe change.hostname .notFound heartbeat

def restore (candidate previous : String) (change : Option EdgeRouteChange)
    (heartbeat : Py Unit) : Py Unit := do
  let unchanged ← (do
    if ← Py.file (.exists livePath) then
      let current ← Py.file (.readText livePath)
      pure (decide (current = candidate))
    else pure false : Py Bool)
  if unchanged then
    atomicWrite livePath previous
    m.reload heartbeat
    m.probeRestored change heartbeat
    removeTransactionJournal
  else edgeFailure "EDGE_CONFIG_CHANGED_DURING_RESTORE" false true

end EdgeConfigManager

/-! ## Transactions -/

/-- The `with` statement that opens the lock file and takes the lock. -/
def withLock {α : Type} (body : Py α) : Py α := do
  Py.file .openLock
  (do
    Py.file .chmodLock
    Py.file .flockExclusive
    body).tryFinally (Py.file .closeLock)

def recoverInterrupted : Py Bool := do
  ensureEdgeDirectory
  withLock (validateInterruptedLocked.tryFinally (Py.file .flockUnlock))

/-- The variables of `apply` that its handlers look at. -/
structure ApplyLocals where
  candidatePath : Option Path := none
  switched : Bool := false
  finalized : Bool := false
  previous : String := noRoutesConfig

/-- The end of the body: commit, and clear the journal. -/
def applyFinalize (transaction : EdgeTransaction) (cb : EdgeCallbacks) :
    Local Op Ans Exc ApplyLocals Unit := do
  (Local.lift cb.finalize).tryCatch fun
    | .edgeFinalizeRejected => Local.raise .edgeFinalizeRejected
    | _ => do
      Local.modify fun l ↦ { l with finalized := true }
      edgeFailure "EDGE_FINALIZE_UNCERTAIN" false true
  Local.modify fun l ↦ { l with finalized := true }
  markTransactionCommitted transaction
  removeTransactionJournal

/-- The previous content of the live file, which is created when there is none. -/
def readPrevious : Py String := do
  if ← Py.file (.exists livePath) then Py.file (.readText livePath)
  else
    atomicWrite livePath noRoutesConfig
    pure noRoutesConfig

namespace EdgeConfigManager

variable (m : EdgeConfigManager)

/-- The body from the replacement of the live file on. -/
def applySwitch (routes : List EdgeRouteTarget) (change : Option EdgeRouteChange)
    (cb : EdgeCallbacks) (probeAllRoutes : Bool) (candidatePath : Path)
    (transaction : EdgeTransaction) : Local Op Ans Exc ApplyLocals Unit := do
  Py.file (.replace candidatePath livePath)
  Local.modify fun l ↦ { l with candidatePath := none, switched := true }
  Py.file (.fsyncDirectory .edgeRoot)
  m.reload cb.heartbeat
  m.probeCandidate routes change cb.heartbeat probeAllRoutes
  cb.fence
  applyFinalize transaction cb

/-- The body of the outer `try` of `apply`. -/
def applyBody (routes : List EdgeRouteTarget) (rendered : String)
    (change : Option EdgeRouteChange) (cb : EdgeCallbacks) (probeAllRoutes : Bool) :
    Local Op Ans Exc ApplyLocals Unit := do
  let _ ← validateInterruptedLocked
  cb.heartbeat
  cb.fence
  m.verifyEdge cb.heartbeat
  let candidatePath ← privateTemporary rendered
  Local.modify fun l ↦ { l with candidatePath := some candidatePath }
  m.testConfig candidatePath cb.heartbeat
  cb.fence
  let previous ← readPrevious
  Local.modify fun l ↦ { l with previous := previous }
  let transaction : EdgeTransaction := {
    previous := previous
    candidate := rendered
    previousHostname := change.bind EdgeRouteChange.previousHostname
    phase := .prepared }
  writeTransaction transaction
  m.applySwitch routes change cb probeAllRoutes candidatePath transaction

/-- The `except` clause of `apply`. -/
def applyExcept (rendered : String) (change : Option EdgeRouteChange) (cb : EdgeCallbacks)
    (x : Exc) : Local Op Ans Exc ApplyLocals Unit := do
  let l ← Local.get
  if l.switched && !l.finalized then
    (m.restore rendered l.previous change cb.heartbeat).except fun
      | .edgeRuntime _ => some (edgeFailure "EDGE_STATE_UNCERTAIN" false true)
      | _ => none
  Local.raise x

/-- The `finally` clause of `apply`. -/
def applyFinally : Local Op Ans Exc ApplyLocals Unit := do
  let l ← Local.get
  (match l.candidatePath with
    | some path => Py.file (.unlink path)
    | none => pure () : Py Unit)
  Py.file .flockUnlock

/-- The outer `try` of `apply`. -/
def applyLocked (routes : List EdgeRouteTarget) (rendered : String)
    (change : Option EdgeRouteChange) (cb : EdgeCallbacks) (probeAllRoutes : Bool) :
    Local Op Ans Exc ApplyLocals Unit :=
  ((m.applyBody routes rendered change cb probeAllRoutes).tryCatch
    (m.applyExcept rendered change cb)).tryFinally applyFinally

def apply (routes : List EdgeRouteTarget) (change : Option EdgeRouteChange) (cb : EdgeCallbacks)
    (probeAllRoutes : Bool := false) : Py Unit := do
  let rendered ← (Prog.ofExcept (renderEdgeRoutes routes) : Py String)
  ensureEdgeDirectory
  withLock ((m.applyLocked routes rendered change cb probeAllRoutes).run {})

end EdgeConfigManager

/-! ## Tracked exceptions

What the commands, probes and reads of the manager do to an assertion, given what the heartbeat does
to it. An edge failure of theirs is soft and never uncertain. -/

variable {σ : Type} {M : Setting σ Op Ans Exc} {I J : σ → Prop} {soft hard : Exc → Prop}
  {heartbeat : Py Unit}

theorem preserves_readTransaction (hfile : M.Keeps I (.file (.exists journalPath)))
    (hread : M.Keeps I (.file (.readText journalPath))) : Preserves M I readTransaction := by
  refine Preserves.bind (.op hfile) fun found ↦ ?_
  cases found with
  | false => exact .pure _
  | true =>
    refine Preserves.bind (Preserves.tryCatch (.op hread) fun x ↦ ?_) fun text ↦ ?_
    · cases x <;> exact .raise _
    · cases parseTransaction text with
      | none => exact .raise _
      | some tx => exact .pure _

theorem preserves_validateInterruptedLocked (hfile : ∀ p, M.Keeps I (.file (.exists p)))
    (hread : ∀ p, M.Keeps I (.file (.readText p))) : Preserves M I validateInterruptedLocked := by
  refine Preserves.bind (preserves_readTransaction (hfile _) (hread _)) fun tx ↦ ?_
  cases tx with
  | none => exact .pure _
  | some tx =>
    refine Preserves.bind (.op (hfile _)) fun found ↦ ?_
    cases found with
    | false => exact .raise _
    | true =>
      exact Preserves.bind (.op (hread _)) fun current ↦ .ite (.pure _) (.raise _)

section Quiet

variable (hquiet : QuietOps M I J soft hard) (hh : Tracks M I J soft hard heartbeat)
  (hedge : ∀ code retryable, soft (.edgeRuntime { code := code, retryable := retryable }))
include hquiet hh hedge

theorem tracks_edgeProbe (hostname : String) (e : EdgeExpectation) (n : ℕ) :
    Tracks M I J soft hard (edgeProbe hostname e heartbeat n) := by
  induction n with
  | zero => exact .raise (hedge _ _)
  | succ n ih =>
    refine Tracks.bind (.op hquiet.timeLeft) fun left ↦ ?_
    cases left with
    | false => exact .raise (hedge _ _)
    | true =>
      have hhttp : Tracks M I J (fun x ↦ x = .osError ∨ soft x) (fun x ↦ hard x ∧ x ≠ .osError) (do
          let response ← Py.http (.edge hostname)
          pure (e.met response) : Py Bool) := Tracks.bind (.op (hquiet.http _)) fun _ ↦ .pure _
      refine hh.bind fun _ ↦ Tracks.bind (Py.Tracks.except hhttp ?_ ?_ ?_) fun met ↦ ?_
      · intro x q hq _
        split at hq <;> cases hq
        exact .pure _
      · intro x hnone hx
        rcases hx with rfl | hx
        · cases hnone
        · exact hx
      · rintro x ⟨hx, hne⟩
        refine ⟨?_, hx⟩
        cases x
        case osError => exact absurd rfl hne
        all_goals rfl
      · cases met with
        | false => exact ih
        | true => exact .pure _

namespace EdgeConfigManager

variable (m : EdgeConfigManager)

/-- The runner starts the command: no argument is empty, or an empty one is a soft failure. -/
def Startable (soft : Exc → Prop) (c : Command) : Prop :=
  soft .value ∨ (m.runner.executable :: c.arguments m.runner.pathText).any String.isEmpty = false

theorem tracks_run {c : Command} (hc : m.Startable soft c) (code : String) :
    Tracks M I J soft hard (m.run c heartbeat code) := by
  refine Py.Tracks.except (m.runner.tracks_run hquiet hh c hc) ?_ ?_ fun x hx ↦ ?_
  · intro x q hq _
    split at hq <;> cases hq
    exact .raise (hedge _ _)
  · rintro x hnone (⟨result, rfl⟩ | hx)
    · cases hnone
    · exact hx
  · refine ⟨?_, hx⟩
    cases x
    case commandExecution result => exact absurd rfl (hquiet.hard_ne _ result hx)
    all_goals rfl

theorem tracks_verifyEdge (hnetwork : m.Startable soft (.networkInspectLabels m.edgeNetworkName))
    (hedgeContainer : m.Startable soft (.inspectEdge m.edgeContainerName)) :
    Tracks M I J soft hard (m.verifyEdge heartbeat) := by
  refine (m.tracks_run hquiet hh hedge hnetwork _).bind fun network ↦ .ite ?_ (.raise (hedge _ _))
  refine (m.tracks_run hquiet hh hedge hedgeContainer _).bind fun edge ↦ ?_
  cases Json.loads edge.stdout with
  | none => exact .raise (hedge _ _)
  | some value =>
    cases value
    case obj => exact .ite (.pure _) (.raise (hedge _ _))
    all_goals exact .raise (hedge _ _)

theorem tracks_reload (hnetwork : m.Startable soft (.networkInspectLabels m.edgeNetworkName))
    (hedgeContainer : m.Startable soft (.inspectEdge m.edgeContainerName))
    (hreload : m.Startable soft (.reload m.edgeContainerName)) :
    Tracks M I J soft hard (m.reload heartbeat) :=
  (m.tracks_verifyEdge hquiet hh hedge hnetwork hedgeContainer).bind fun _ ↦
    (m.tracks_run hquiet hh hedge hreload _).bind fun _ ↦ .pure _

theorem tracks_readEdgeFile {file : String}
    (hc : m.Startable soft (.readContainerFile m.edgeContainerName file)) :
    Tracks M I J soft hard (m.readEdgeFile file heartbeat) :=
  (m.tracks_run hquiet hh hedge hc _).bind fun _ ↦ .ite (.raise (hedge _ _)) (.pure _)

theorem tracks_probe (hostname : String) (e : EdgeExpectation) :
    Tracks M I J soft hard (m.probe hostname e heartbeat) :=
  tracks_edgeProbe hquiet hh hedge hostname e _

theorem tracks_probeCandidate (routes : List EdgeRouteTarget) (change : Option EdgeRouteChange)
    (all : Bool) : Tracks M I J soft hard (m.probeCandidate routes change heartbeat all) := by
  have hprobe := m.tracks_probe hquiet hh hedge
  have hchange : Tracks M I J soft hard (match change with
      | none => pure ()
      | some change =>
        if change.enabled then do
          m.probe change.hostname .routed heartbeat
          match change.previousHostname with
          | some previous =>
            if previous ≠ change.hostname then m.probe previous .notFound heartbeat
            else pure ()
          | none => pure ()
        else m.probe change.hostname .notFound heartbeat : Py Unit) := by
    cases change with
    | none => exact .pure _
    | some change =>
      refine .ite ((hprobe _ _).bind fun _ ↦ ?_) (hprobe _ _)
      cases change.previousHostname with
      | none => exact .pure _
      | some previous => exact .ite (hprobe _ _) (.pure _)
  refine (hprobe _ _).bind fun _ ↦ ?_
  cases all with
  | false => exact hchange
  | true => exact (Tracks.forM fun route _ ↦ hprobe _ _).bind fun _ ↦ hchange

theorem tracks_probeRestored (change : Option EdgeRouteChange) :
    Tracks M I J soft hard (m.probeRestored change heartbeat) := by
  have hprobe := m.tracks_probe hquiet hh hedge
  refine (hprobe _ _).bind fun _ ↦ ?_
  cases change with
  | none => exact .pure _
  | some change =>
    refine Tracks.bind ?_ fun _ ↦ .ite (hprobe _ _) (.pure _)
    cases change.previousHostname with
    | none => exact .pure _
    | some hostname => exact hprobe _ _

end EdgeConfigManager

end Quiet

end Heimdall
