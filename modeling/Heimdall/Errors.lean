import Mathlib

/-!
# Exceptions

Every exception class that some handler of the program names is a constructor of `Exc`, with the
fields the handlers read; classes nobody names are `other`. A class below another has a constructor
where a handler tells them apart; elsewhere the operations raise the class above it.
-/

namespace Heimdall

/-- What a finished child process left behind. -/
structure CommandResult where
  returncode : Int
  stdout : String
  stderr : String := ""
  stdoutTruncated : Bool := false
  stderrTruncated : Bool := false
deriving DecidableEq

/-- The output of a failed command as it is kept for diagnostics. -/
structure FailedCommandOutput where
  operation : String
  returnCode : Int
  stdout : String
  stderr : String
  stdoutTruncated : Bool
  stderrTruncated : Bool
  serviceName : Option String := none
deriving DecidableEq

/-- The output of a command that failed, as `_run` keeps it. -/
def failedOutput (operation : String) (serviceName : Option String) (result : CommandResult) :
    FailedCommandOutput where
  operation := operation
  returnCode := result.returncode
  stdout := result.stdout
  stderr := result.stderr
  stdoutTruncated := result.stdoutTruncated
  stderrTruncated := result.stderrTruncated
  serviceName := serviceName

/-- A failure of a deployment with the stage and code that are recorded for it. -/
structure RuntimeFailure where
  stage : String
  code : String
  retryable : Bool := false
  cleanupCandidate : Bool := true
  commandOutput : Option FailedCommandOutput := none
deriving DecidableEq

/-- A failure of the edge configuration. -/
structure EdgeRuntimeError where
  code : String
  retryable : Bool := false
  uncertain : Bool := false
deriving DecidableEq

/-- Exceptions, by the class a handler can name. -/
inductive Exc where
  | runtimeFailure (failure : RuntimeFailure)
  | edgeRuntime (failure : EdgeRuntimeError)
  | edgeFinalizeRejected
  | deploymentClaimLost
  | activeDeployment
  | deploymentReconciliationConflict
  | deploymentProjectDeleting
  | deploymentNotFound
  | reconciliationClaimLost
  | reconciliationInProgress
  | reconciliationProjectDeleting
  | publicRouteClaimLost
  | publicRouteSnapshotChanged
  | publicRouteNotFound
  | publicRouteConflict
  | publicRouteProjectDeleting
  | commandExecution (result : CommandResult)
  | gitAccess
  | secretStore
  | secretStoreBusy
  | serviceLog (code : String)
  | runtimeConfiguration (message : String)
  | projectNotFound
  | projectConflict
  | projectVersionConflict
  | projectDeletionConflict (code : String)
  | projectDeletionNotFound
  | projectDeletionValidation (code : String)
  | projectDeletionClaimLost
  | projectDatabaseProjectDeleting
  | projectDatabaseVersionConflict
  | projectDatabaseProvisioning (stage code : String)
  | app
  /-- An `AppError` with what its handler reports of it. -/
  | appError (status : ℕ) (code message : String)
  | runtime
  | osError
  | fileExists
  | fileNotFound
  | blockingIOError
  | unicode
  | value
  | uniqueViolation
  | checkViolation
  | database
  | other
deriving DecidableEq

namespace Exc

/-- An exception that says the state of the edge is not known. -/
def isUncertain : Exc → Bool
  | .edgeRuntime failure => failure.uncertain
  | _ => false

/-- `OSError` and the classes below it. -/
def isOSError : Exc → Bool
  | .osError | .fileExists | .fileNotFound | .blockingIOError => true
  | _ => false

/-- `SecretStoreError` and the class below it. -/
def isSecretStoreError : Exc → Bool
  | .secretStore | .secretStoreBusy => true
  | _ => false

/-- The classes below `RuntimeError`. -/
def isRuntimeError : Exc → Bool
  | .runtime | .runtimeFailure _ | .commandExecution _ | .edgeRuntime _ | .edgeFinalizeRejected
  | .deploymentClaimLost | .activeDeployment | .deploymentReconciliationConflict
  | .deploymentProjectDeleting | .reconciliationClaimLost | .reconciliationInProgress
  | .reconciliationProjectDeleting | .publicRouteClaimLost | .publicRouteSnapshotChanged
  | .publicRouteConflict | .publicRouteProjectDeleting | .gitAccess | .secretStore | .secretStoreBusy
  | .serviceLog _ | .projectConflict | .projectVersionConflict | .projectDeletionConflict _
  | .projectDeletionClaimLost | .projectDatabaseProjectDeleting | .projectDatabaseVersionConflict =>
    true
  | _ => false

end Exc

end Heimdall
