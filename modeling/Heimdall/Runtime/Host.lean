import Heimdall.Interface

/-!
# The host of a deployment worker

The Docker runtime and the gateway activator reach Docker through a command runner, and they send
requests to the gateway, write its files and keep its row. `HostOp` lists what they do. A command is
one operation: it answers with what the finished process has left behind, or it raises.

## Docker objects

An object is known by its kind and its name, and carries labels. `Docker` says which objects there
are. A command may make the objects appear that it creates; every other object stays as it is or
vanishes.
-/

namespace Heimdall

open Effect

inductive HostOp where
  /-- `CommandRunner.run`. A checked command raises when its return code is not zero, and one with
  a heartbeat calls it while it waits. -/
  | run (command : Command) (check beats : Bool)
  | heartbeat
  /-- Whether the deadline of a polling loop is still ahead. -/
  | timeLeft
  | http (target : HttpTarget)
  | file (op : FileOp)
  | runtimes (op : RuntimeOp)

abbrev HostOp.Ans : HostOp → Type
  | .run _ _ _ => CommandResult
  | .timeLeft => Bool
  | .http _ => HttpResponse
  | .file op => op.Ans
  | .runtimes op => op.Ans
  | .heartbeat => Unit

abbrev Host (α : Type) : Type := Prog HostOp HostOp.Ans Exc α

namespace Host

def raise {α : Type} (x : Exc) : Host α := Prog.raise x

/-- A handler that catches some exceptions and lets the others through. -/
def except {α : Type} (p : Host α) (handler : Exc → Option (Host α)) : Host α :=
  p.tryCatch fun x ↦ (handler x).getD (raise x)

def run (c : Command) (check beats : Bool) : Host CommandResult := Prog.op (HostOp.run c check beats)
def heartbeat : Host Unit := Prog.op HostOp.heartbeat
def timeLeft : Host Bool := Prog.op HostOp.timeLeft
def http (t : HttpTarget) : Host HttpResponse := Prog.op (HostOp.http t)
def file (o : FileOp) : Host o.Ans := Prog.op (HostOp.file o)
def runtimes (o : RuntimeOp) : Host o.Ans := Prog.op (HostOp.runtimes o)

/-- `_run_ignored`: a command whose failure is a return code. -/
def runIgnored (c : Command) (beats : Bool := false) : Host CommandResult :=
  (run c false beats).except fun
    | .commandExecution _ => some (pure { returncode := -1, stdout := "" })
    | _ => none

/-- `_run`: a command whose failure is a failure of the deployment. -/
def runOr (c : Command) (operation : String) (failure : RuntimeFailure)
    (serviceName : Option String := none) : Host CommandResult :=
  (run c true true).except fun
    | .commandExecution result => some <| raise <| .runtimeFailure
      { failure with commandOutput := some (failedOutput operation serviceName result) }
    | _ => none

end Host

theorem uses_runIgnored {P : HostOp → Prop} {c : Command} {beats : Bool}
    (h : P (.run c false beats)) : (Host.runIgnored c beats).Uses P := by
  refine Prog.Uses.tryCatch (Prog.uses_op.mpr h) fun x ↦ ?_
  cases x <;> trivial

theorem uses_runOr {P : HostOp → Prop} {c : Command} {operation : String} {failure : RuntimeFailure}
    {serviceName : Option String} (h : P (.run c true true)) :
    (Host.runOr c operation failure serviceName).Uses P := by
  refine Prog.Uses.tryCatch (Prog.uses_op.mpr h) fun x ↦ ?_
  cases x <;> trivial

theorem performs_runOr {P : HostOp → Prop} {c : Command} {operation : String}
    {failure : RuntimeFailure} {serviceName : Option String} (h : P (.run c true true)) :
    (Host.runOr c operation failure serviceName).Performs P := by
  refine Prog.Performs.tryCatch (Prog.performs_op h) fun x ↦ ?_
  cases x <;> trivial

/-! ## Docker objects -/

inductive ResourceKind where
  | container
  | network
  | image
deriving DecidableEq

structure Resource where
  kind : ResourceKind
  name : String
deriving DecidableEq

/-- The labels of each object that exists. -/
abbrev Docker : Type := Resource → Option Json.Value

/-- `_inspect` -/
def Resource.inspect : Resource → Command
  | ⟨.container, name⟩ => .inspectLabels name
  | ⟨.network, name⟩ => .networkInspectLabels name
  | ⟨.image, name⟩ => .imageInspectLabels name

def Resource.remove : Resource → Command
  | ⟨.container, name⟩ => .remove true name
  | ⟨.network, name⟩ => .networkRemove name
  | ⟨.image, name⟩ => .imageRemove name

/-- The object a command creates. -/
def Command.creates : Command → Option Resource
  | .runGateway container _ _ _ _ _ => some ⟨.container, container⟩
  | .create container _ _ _ => some ⟨.container, container⟩
  | .networkCreate _ _ network => some ⟨.network, network⟩
  | .build _ _ _ image _ => some ⟨.image, image⟩
  | _ => none

def HostOp.creates : HostOp → Option Resource
  | .run c _ _ => c.creates
  | _ => none

/-- What one operation does to the objects. -/
def Docker.Step (docker : Docker) (o : HostOp) (docker' : Docker) : Prop :=
  ∀ x, o.creates = some x ∨ docker' x = docker x ∨ docker' x = none

theorem Docker.Step.absent {docker docker' : Docker} {o : HostOp} (h : docker.Step o docker')
    (ho : o.creates = none) {x : Resource} (hx : docker x = none) : docker' x = none := by
  rcases h x with hc | hsame | hgone
  · rw [ho] at hc
    cases hc
  · rw [hsame, hx]
  · exact hgone

end Heimdall
