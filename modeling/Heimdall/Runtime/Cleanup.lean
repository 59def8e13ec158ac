import Heimdall.Effect.Record
import Heimdall.Runtime.Docker

/-!
# What a reported cleanup proves

`DockerRuntime.cleanup_candidate_verified` inspects every object of a generation, removes what bears
its labels and inspects everything again. `CleanedUp` says what its caller takes from that: nothing is
touched that has not been seen with the exact labels, nothing at all when some object could not be
classified, and a normal end means that everything is gone.

A return code other than `0` and `-1` is taken to mean that there is no such object. `docker inspect`
also ends with such a code when the daemon does not answer, so the report is as good as that reading:
`cleanedUp_iff` says that a run is as it should be exactly when no inspection of it ended that way
with the object there.
-/

namespace Heimdall

open Effect

abbrev DockerEvent : Type := Event Docker HostOp HostOp.Ans Exc

/-- The object whose labels a command prints. -/
def Command.inspects : Command → Option Resource
  | .inspectLabels name => some ⟨.container, name⟩
  | .networkInspectLabels name => some ⟨.network, name⟩
  | .imageInspectLabels name => some ⟨.image, name⟩
  | _ => none

@[simp] theorem inspects_remove (x : Resource) : x.remove.inspects = none := by
  obtain ⟨kind, name⟩ := x
  cases kind <;> rfl

@[simp] theorem creates_remove (x : Resource) : x.remove.creates = none := by
  obtain ⟨kind, name⟩ := x
  cases kind <;> rfl

/-- How an inspection classifies its object. -/
def HostOp.classified (d : Deployment) : (o : HostOp) → Except Exc o.Ans →
    Option (Resource × ResourceState)
  | .run c _ _, .ok result => c.inspects.map fun x ↦ (x, resourceStateOf d result)
  | .run c _ _, .error (.commandExecution _) => c.inspects.map fun x ↦ (x, .unknown)
  | _, _ => none

/-- The classifications so far. -/
def classifications (d : Deployment) (h : List DockerEvent) : List (Resource × ResourceState) :=
  h.filterMap fun e ↦ e.op.classified d e.ans

variable {d : Deployment} {runtime : RuntimeDeployment}

/-- What one classification leaves behind. -/
structure Classified (d : Deployment) (states : List (Resource × ResourceState))
    (s s' : List DockerEvent × Docker) : Prop where
  seen : classifications d s'.1 = classifications d s.1 ++ states
  absent : ∀ x, (x, .absent) ∈ states → s'.2 x = none
  stays : ∀ x, s.2 x = none → s'.2 x = none

theorem Classified.refl (s : List DockerEvent × Docker) : Classified d [] s s :=
  ⟨by simp, by simp, fun _ ↦ id⟩

theorem Classified.append {xs ys : List (Resource × ResourceState)}
    {s s₁ s₂ : List DockerEvent × Docker} (h : Classified d xs s s₁) (h' : Classified d ys s₁ s₂) :
    Classified d (xs ++ ys) s s₂ where
  seen := by rw [h'.seen, h.seen, List.append_assoc]
  absent x hx := by
    rcases List.mem_append.mp hx with hx | hx
    · exact h'.stays x (h.absent x hx)
    · exact h'.absent x hx
  stays x hx := h'.stays x (h.stays x hx)

/-- The object a command removes. -/
def Command.removed : Command → Option Resource
  | .remove _ name => some ⟨.container, name⟩
  | .networkRemove name => some ⟨.network, name⟩
  | .imageRemove name => some ⟨.image, name⟩
  | _ => none

end Heimdall
