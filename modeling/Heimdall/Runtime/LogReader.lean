import Heimdall.Runtime.Docker
import Heimdall.Runtime.LogSnapshot
import Heimdall.Runtime.Snapshot
import Heimdall.Text.Spaces

/-!
# Reading the log of a service

`DockerServiceLogReader` finds the container of a service by its name and its labels, reads the last
lines of its log and makes a snapshot of them. For diagnostics it also asks for the state of the
container. `docker` and the secret store are given by what they answer.
-/

namespace Heimdall

open Text

structure ServiceLogSnapshot where
  deploymentId : Uuid
  services : List String
  serviceName : String
  retrievedAt : Time
  lines : List ServiceLogLine
  truncated : Bool
deriving DecidableEq

/-- What `docker` answers: about a container by its name, and to two questions by its identifier. -/
structure LogCommands where
  inspectTarget : String → Except Exc CommandResult
  logs : String → Except Exc CommandResult
  inspectExit : String → Except Exc CommandResult

/-- `DockerServiceLogReader`, with the answers of the secret store. -/
structure ServiceLogReader where
  order : SetOrder
  readSecret : String → String → Except Exc String
  commands : LogCommands

structure ServiceLogTarget where
  services : List String
  service : RuntimeService
  redactions : List String
  containerId : String

def logsUnavailable : Exc := .serviceLog "SERVICE_LOGS_UNAVAILABLE"

/-- `_exact_container_id` -/
def exactContainerId (payload : String) (d : Deployment) : Option String :=
  let (rawId, separator, rawLabels) := partition (· == ' ') payload.toList
  if separator.isEmpty then none
  else match Json.loads (String.ofList rawId), Json.loads (String.ofList rawLabels) with
    | some (.str containerId), some labels =>
      if Sha256.isHexdigest containerId && hasGenerationLabels labels d.projectId d.id then
        some containerId
      else none
    | _, _ => none

/-- `_run` -/
def runLogCommand (answer : Except Exc CommandResult) : Except Exc CommandResult :=
  match answer with
  | .error (.commandExecution _) => .error logsUnavailable
  | answer => answer

/-- The service a request without a name is about. -/
def RuntimeDeployment.rootService (runtime : RuntimeDeployment) : Option String :=
  (runtime.routes.find? fun route ↦ route.path = "/").map RuntimeRoute.service

namespace ServiceLogReader

variable (reader : ServiceLogReader)

/-- `_resolve` -/
def resolve (d : Deployment) (serviceName : Option String) : Except Exc ServiceLogTarget :=
  match RuntimeDeployment.fromDeployment d with
  | .error (.runtimeConfiguration _) => .error logsUnavailable
  | .error x => .error x
  | .ok runtime =>
    let selectedName := match serviceName with
      | none | some "" => runtime.rootService
      | name => name
    match runtime.services.find? fun service ↦ some service.name = selectedName with
    | none => .error (.serviceLog "SERVICE_LOG_SERVICE_NOT_FOUND")
    | some selected => do
      let redactions ← deploymentLogRedactions reader.order reader.readSecret (some runtime)
      let inspection ← runLogCommand (reader.commands.inspectTarget (containerName d selected))
      match if inspection.returncode = 0 then exactContainerId inspection.stdout d else none with
      | none => .error logsUnavailable
      | some containerId => return {
          services := runtime.services.map RuntimeService.name
          service := selected
          redactions
          containerId }

/-- `_read_target` -/
def readTarget (d : Deployment) (target : ServiceLogTarget) (now : Time) :
    Except Exc ServiceLogSnapshot := do
  let result ← runLogCommand (reader.commands.logs target.containerId)
  if result.returncode ≠ 0 then .error logsUnavailable
  else
    let (lines, truncated) := result.serviceLogLines target.redactions
    return {
      deploymentId := d.id
      services := target.services
      serviceName := target.service.name
      retrievedAt := now
      lines
      truncated }

def read (d : Deployment) (serviceName : Option String) (now : Time) :
    Except Exc ServiceLogSnapshot := do
  let target ← reader.resolve d serviceName
  reader.readTarget d target now

end ServiceLogReader

/-- `isinstance(value, int)`, which a truth value is as well. -/
def intOf : Json.Value → Option Int
  | .int n => some n
  | .bool b => some (if b then 1 else 0)
  | _ => none

/-- The status and the exit code `docker` prints of a container. -/
def containerState (result : CommandResult) : Option (String × Int) :=
  if result.returncode ≠ 0 then none
  else
    let (rawStatus, separator, rawExitCode) := partition (· == ' ') (strip result.stdout.toList)
    if separator.isEmpty then none
    else match Json.loads (String.ofList rawStatus), Json.loads (String.ofList rawExitCode) with
      | some (.str status), some value =>
        (intOf value).map fun exitCode ↦ (String.ofList (status.toList.take 32), exitCode)
      | _, _ => none

/-- `read_diagnostic` -/
def ServiceLogReader.readDiagnostic (reader : ServiceLogReader) (d : Deployment) (serviceName : String)
    (now : Time) : Except Exc (ServiceLogSnapshot × Option String × Option Int) := do
  let target ← reader.resolve d (some serviceName)
  let snapshot ← reader.readTarget d target now
  match runLogCommand (reader.commands.inspectExit target.containerId) with
  | .error (.serviceLog _) => return (snapshot, none, none)
  | .error x => .error x
  | .ok result =>
    match containerState result with
    | none => return (snapshot, none, none)
    | some (status, exitCode) => return (snapshot, some status, some exitCode)

end Heimdall
