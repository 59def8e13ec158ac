import Heimdall.Descriptors
import Heimdall.Runtime.ProjectResources

/-!
# Tearing down the runtime of a project

`ProjectRuntimeTeardown` removes what a deleted project has left behind: its Docker objects and the
directories of its deployments and its gateway. It looks at everything before it removes anything
(the preflight), asks the guard before each removal whether the deletion may still go on, and looks at
everything again afterwards.

A directory is removed entry by entry, through descriptors. The walk is as deep as the tree, and
Python ends a recursion that is too deep with an exception (`recursionLimit`).
-/

namespace Heimdall

open Effect

/-! ## The interface -/

inductive TeardownCommand where
  /-- Print the identifier and the labels of an object. -/
  | inspect (x : Resource)
  /-- Print the names of the objects with the label of the project. -/
  | list (kind : ResourceKind) (project : Uuid)
  /-- Remove an object by its identifier. -/
  | remove (kind : ResourceKind) (id : String)
deriving DecidableEq

/-- The arguments after `docker`. -/
def TeardownCommand.arguments : TeardownCommand → List String
  | .inspect ⟨.network, name⟩ =>
    ["network", "inspect", "--format", "\x7b\"id\":{{json .Id}},\"labels\":{{json .Labels}}\x7d", name]
  | .inspect ⟨.image, name⟩ =>
    ["image", "inspect", "--format",
      "\x7b\"id\":{{json .Id}},\"labels\":{{json .Config.Labels}}\x7d", name]
  | .inspect ⟨.container, name⟩ =>
    ["inspect", "--format", "\x7b\"id\":{{json .Id}},\"labels\":{{json .Config.Labels}}\x7d", name]
  | .list .container project =>
    ["ps", "--all", "--filter", "label=heimdall.project-id=" ++ project.str, "--format",
      "{{.Names}}"]
  | .list .network project =>
    ["network", "ls", "--filter", "label=heimdall.project-id=" ++ project.str, "--format",
      "{{.Name}}"]
  | .list .image project =>
    ["image", "ls", "--filter", "label=heimdall.project-id=" ++ project.str, "--format",
      "{{.Repository}}:{{.Tag}}"]
  | .remove .network id => ["network", "rm", id]
  | .remove .image id => ["image", "rm", "--force", id]
  | .remove .container id => ["rm", "--force", id]

inductive TeardownOp where
  /-- The callback `heartbeat`. -/
  | heartbeat
  /-- The callback `mutation_guard`. -/
  | guard
  /-- `CommandRunner.run`, which calls the heartbeat while it waits. -/
  | run (command : TeardownCommand)
  | file (op : DescriptorOp)
  /-- The point where the preflight is over; it does nothing. -/
  | preflightPassed

abbrev TeardownOp.Ans : TeardownOp → Type
  | .heartbeat => Option Bool
  | .guard => Bool
  | .run _ => CommandResult
  | .file op => op.Ans
  | .preflightPassed => Unit

abbrev Teardown (α : Type) : Type := Prog TeardownOp TeardownOp.Ans Exc α

namespace Teardown

def raise {α : Type} (x : Exc) : Teardown α := Prog.raise x

def file (op : DescriptorOp) : Teardown op.Ans := Prog.op (TeardownOp.file op)

/-- `_filesystem_uncertain` -/
def filesystemUncertain : Exc :=
  .runtimeFailure
    { stage := "DELETION", code := "PROJECT_FILESYSTEM_RESOURCES_UNCERTAIN",
      cleanupCandidate := false }

/-- `_pulse` -/
def pulse : Teardown Unit := do
  if (← Prog.op TeardownOp.heartbeat) = some false then
    raise (.runtimeFailure
      { stage := "DELETION", code := "PROJECT_DELETION_CLAIM_LOST", retryable := true,
        cleanupCandidate := false })

/-- `_authorize` -/
def authorize : Teardown Unit := do
  pulse
  if !(← Prog.op TeardownOp.guard) then
    raise (.runtimeFailure
      { stage := "DELETION", code := "PROJECT_DELETION_GUARD_REJECTED", retryable := true,
        cleanupCandidate := false })

/-- `_run_ignored` -/
def runIgnored (command : TeardownCommand) : Teardown CommandResult := do
  pulse
  Prog.tryCatch (Prog.op (TeardownOp.run command)) fun
    | .commandExecution _ => pure { returncode := -1, stdout := "" }
    | x => raise x

end Teardown

/-! ## Docker objects -/

/-- A text occurs in another. -/
def occursIn (pattern text : String) : Bool := pattern.toList <:+: text.toList

/-- What `_observe_one` takes for the identifier of an object that bears the labels it should. -/
def exactIdentifier (project : Uuid) (x : ExpectedResource) (payload : Json.Value) : Option String :=
  match payload.get? "id", payload.get? "labels" with
  | some (.str id), some labels =>
    if id ≠ "" ∧ hasLabel labels "heimdall.managed" "true"
        ∧ hasLabel labels "heimdall.project-id" project.str
        ∧ hasLabel labels "heimdall.kind" x.labelKind.text
        ∧ (∀ deployment, x.deploymentId = some deployment →
          hasLabel labels "heimdall.deployment-id" deployment.str) then
      some id
    else none
  | _, _ => none

/-- The order in which objects are removed. -/
def LabelKind.removalOrder : LabelKind → ℕ
  | .gateway => 0
  | .service => 1
  | .network => 2
  | .image => 3

structure ProjectRuntimeTeardown where
  /-- The directory of the workspaces, by the parts of its path. -/
  workspaceRoot : List String
  gatewayConfigRoot : List String
  /-- `os.geteuid` -/
  euid : ℕ
  /-- `str.lower` -/
  lower : String → String
  /-- How deep a tree of directories the interpreter can walk. -/
  recursionLimit : ℕ

namespace ProjectRuntimeTeardown

open Teardown

variable (teardown : ProjectRuntimeTeardown) (project : Uuid)

/-- `_is_not_found` -/
def isNotFound (kind : ResourceKind) (result : CommandResult) : Bool :=
  if result.returncode ≠ 1 || result.stderrTruncated then false
  else
    let message := teardown.lower result.stderr
    match kind with
    | .network => occursIn "no such network" message
      || occursIn "network" message && occursIn "not found" message
    | .image => occursIn "no such image" message
    | .container => occursIn "no such object" message || occursIn "no such container" message

/-- What `_observe_one` makes of an inspection: the identifier of the object, `none` when there is
none, or what it raises. -/
def observed (x : ExpectedResource) (result : CommandResult) : Except Exc (Option String) :=
  if result.returncode ≠ 0 then
    if teardown.isNotFound x.dockerKind result then .ok none else .error (resourcesUncertain true)
  else match (Json.loads result.stdout).bind (exactIdentifier project x) with
    | some id => .ok (some id)
    | none => .error resourcesUncertain

/-- `_observe_one` -/
def observeOne (x : ExpectedResource) : Teardown (Option String) := do
  let result ← runIgnored (.inspect x.resource)
  Prog.ofExcept (teardown.observed project x result)

/-- `_observe_expected` -/
def observeExpected (expected : List ExpectedResource) :
    Teardown (List (ExpectedResource × Option String)) :=
  expected.mapM fun x ↦ do
    let id ← teardown.observeOne project x
    pure (x, id)

/-- The names a listing prints. -/
def listedNames (result : CommandResult) : List String :=
  ((Text.splitlines result.stdout.toList).map fun line ↦
    String.ofList (Uuid.strip isWhiteSpace line)).filter (· ≠ "")

/-- The names of the expected objects of a kind. -/
def expectedNames (expected : List ExpectedResource) (kind : ResourceKind) : List String :=
  (expected.filter (·.dockerKind = kind)).map (·.name)

/-- What `_reject_extra_resources` makes of a listing. -/
def acceptsListing (expected : List ExpectedResource) (requireEmpty : Bool) (kind : ResourceKind)
    (result : CommandResult) : Except Exc Unit :=
  if result.returncode ≠ 0 then .error (resourcesUncertain true)
  else if requireEmpty = true ∧ listedNames result ≠ []
      ∨ ¬ listedNames result ⊆ expectedNames expected kind then
    .error resourcesUncertain
  else .ok ()

/-- `_reject_extra_resources` -/
def rejectExtraResources (expected : List ExpectedResource) (requireEmpty : Bool := false) :
    Teardown Unit :=
  forM [ResourceKind.container, .network, .image] fun kind ↦ do
    let result ← runIgnored (.list kind project)
    Prog.ofExcept (acceptsListing expected requireEmpty kind result)

/-! ## Directories -/

/-- `_validate_private_metadata` -/
def validatePrivateMetadata (status : FileStatus) (kind : FileKind) : Teardown Unit :=
  if status.isPrivate teardown.euid kind then pure () else raise filesystemUncertain

/-- Close a descriptor when something is raised. -/
def orClose {α : Type} (fd : Descriptor) (p : Teardown α) : Teardown α :=
  p.tryCatch fun x ↦ do
    file (.close fd)
    raise x

/-- The loop of `_open_private_directory`. -/
def openParts : Descriptor → List String → Teardown Descriptor
  | fd, [] => orClose fd do
    let status ← file (.fstat fd)
    teardown.validatePrivateMetadata status .directory
    pure fd
  | fd, part :: parts => do
    let child ← orClose fd do
      let child ← file (.openDirectory fd part)
      file (.close fd)
      pure child
    openParts child parts

/-- `_open_private_directory`, of an absolute path. -/
def openPrivateDirectory (path : List String) : Teardown Descriptor := do
  if path.any fun part ↦ part ∈ ["", ".", ".."] then raise filesystemUncertain
  let fd ← file .openAnchor
  teardown.openParts fd path

/-- `_exact_child_exists` -/
def exactChildExists (root : List String) (basename : String) : Teardown Bool := do
  match ← (teardown.openPrivateDirectory root).attempt with
  | .error .fileNotFound => pure false
  | .error x => raise x
  | .ok rootFd =>
    Prog.tryFinally
      (Prog.tryCatch
        (do
          let _ ← file (.stat rootFd basename)
          pure true)
        fun
          | .fileNotFound => pure false
          | x => raise x)
      (file (.close rootFd))

/-- `_validate_private_tree` -/
def validatePrivateTree : ℕ → Descriptor → Teardown Unit
  | 0, _ => raise .runtime
  | depth + 1, fd => do
    let status ← file (.fstat fd)
    teardown.validatePrivateMetadata status .directory
    let names ← file (.listdir fd)
    forM names fun name ↦ do
      let status ← file (.stat fd name)
      match status.kind with
      | .directory =>
        let child ← file (.openDirectory fd name)
        (validatePrivateTree depth child).tryFinally (file (.close child))
      | .regular => teardown.validatePrivateMetadata status .regular
      | .other => raise filesystemUncertain

/-- Open a directory in another; `none` when there is nothing of that name. -/
def openChild (rootFd : Descriptor) (basename : String) : Teardown (Option Descriptor) :=
  Prog.tryCatch
    (do
      let fd ← file (.openDirectory rootFd basename)
      pure (some fd))
    fun
      | .fileNotFound => pure none
      | x => if x.isOSError then raise filesystemUncertain else raise x

/-- `_validate_exact_private_child` -/
def validateExactPrivateChild (root : List String) (basename : String) : Teardown Unit := do
  if basename ∈ ["", ".", ".."] ∨ '/' ∈ basename.toList then raise filesystemUncertain
  match ← (teardown.openPrivateDirectory root).attempt with
  | .error .fileNotFound => pure ()
  | .error x => if x.isOSError then raise filesystemUncertain else raise x
  | .ok rootFd =>
    Prog.tryFinally
      (do
        match ← openChild rootFd basename with
        | none => pure ()
        | some childFd =>
          (teardown.validatePrivateTree teardown.recursionLimit childFd).tryFinally
            (file (.close childFd)))
      (file (.close rootFd))

/-- What is removed is still what was opened. -/
def requireSame (identity current : FileStatus) : Teardown Unit :=
  if identity.sameIdentity current then pure () else raise filesystemUncertain

/-- `_remove_private_tree_contents` -/
def removePrivateTreeContents : ℕ → Descriptor → Teardown Unit
  | 0, _ => raise .runtime
  | depth + 1, fd => do
    let names ← file (.listdir fd)
    forM names fun name ↦ do
      let status ← file (.stat fd name)
      match status.kind with
      | .directory =>
        let childFd ← file (.openDirectory fd name)
        Prog.tryFinally
          (do
            let identity ← file (.fstat childFd)
            teardown.validatePrivateMetadata identity .directory
            removePrivateTreeContents depth childFd
            let current ← file (.stat fd name)
            requireSame identity current)
          (file (.close childFd))
        authorize
        file (.rmdir fd name)
      | .regular =>
        let fileFd ← file (.openFile fd name)
        Prog.tryFinally
          (do
            let identity ← file (.fstat fileFd)
            teardown.validatePrivateMetadata identity .regular
            authorize
            let current ← file (.stat fd name)
            requireSame identity current
            file (.unlink fd name))
          (file (.close fileFd))
      | .other => raise filesystemUncertain

/-- `_remove_exact_private_child` -/
def removeExactPrivateChild (root : List String) (basename : String) : Teardown Unit := do
  teardown.validateExactPrivateChild root basename
  match ← (teardown.openPrivateDirectory root).attempt with
  | .error .fileNotFound => pure ()
  | .error x => raise x
  | .ok rootFd =>
    Prog.tryFinally
      (Prog.tryCatch
        (do
          match ← openChild rootFd basename with
          | none => pure ()
          | some childFd =>
            let identity ← file (.fstat childFd)
            Prog.tryFinally
              (do
                teardown.removePrivateTreeContents teardown.recursionLimit childFd
                let current ← file (.stat rootFd basename)
                requireSame identity current)
              (file (.close childFd))
            authorize
            file (.rmdir rootFd basename))
        fun x ↦ if x.isOSError then raise filesystemUncertain else raise x)
      (file (.close rootFd))

/-! ## The teardown -/

/-- The directories of a project: that of each deployment and that of its gateway. -/
def filesystemTargets (deployments : List Deployment) : List (List String × String) :=
  (deployments.map fun d ↦ (teardown.workspaceRoot, d.id.hex))
    ++ [(teardown.gatewayConfigRoot, project.hex)]

/-- An object that was there before anything was removed. -/
def removeResource (x : ExpectedResource) (observedId : Option String) : Teardown Unit :=
  match observedId with
  | none => pure ()
  | some id => do
    authorize
    let currentId ← teardown.observeOne project x
    if currentId ≠ some id then raise resourcesUncertain
    let result ← runIgnored (.remove x.dockerKind id)
    if result.returncode ≠ 0 then raise resourcesUncertain

/-- Nothing of the project is there any more. -/
def requireAbsent (expected : List ExpectedResource) : Teardown Unit := do
  let remaining ← teardown.observeExpected project expected
  if remaining.any fun state ↦ state.2.isSome then raise resourcesUncertain
  rejectExtraResources project expected true

/-- What is looked at before anything is removed. -/
def preflight (expected : List ExpectedResource) (targets : List (List String × String)) :
    Teardown (List (ExpectedResource × Option String)) := do
  pulse
  let states ← teardown.observeExpected project expected
  rejectExtraResources project expected
  forM targets fun target ↦ teardown.validateExactPrivateChild target.1 target.2
  Prog.op TeardownOp.preflightPassed
  pure states

/-- `teardown` -/
def run (deployments : List Deployment) (runtime : Option ProjectRuntime) : Teardown Unit := do
  let expected ← Prog.ofExcept (expectedResources project deployments runtime)
  let targets := teardown.filesystemTargets project deployments
  let states ← teardown.preflight project expected targets
  forM (expected.insertionSort fun a b ↦ a.labelKind.removalOrder ≤ b.labelKind.removalOrder)
    fun x ↦ teardown.removeResource project x (states.lookup x).join
  teardown.requireAbsent project expected
  forM targets fun target ↦ do
    teardown.removeExactPrivateChild target.1 target.2
    if ← teardown.exactChildExists target.1 target.2 then raise filesystemUncertain
  teardown.requireAbsent project expected

/-- `verify_absent` -/
def verifyAbsent (deployments : List Deployment) (runtime : Option ProjectRuntime) :
    Teardown Unit := do
  authorize
  let expected ← Prog.ofExcept (expectedResources project deployments runtime)
  teardown.requireAbsent project expected
  forM (teardown.filesystemTargets project deployments) fun target ↦ do
    if ← teardown.exactChildExists target.1 target.2 then raise filesystemUncertain

end ProjectRuntimeTeardown

end Heimdall
