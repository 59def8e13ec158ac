import Heimdall.PublicRoutes.Repository

/-!
# The public-route service

A request names a subdomain; the service puts it in front of the deployment base domain. What reaches
the repository has passed two checks, that of the request and that of the configuration, and both are
fields here: a `PublicRouteUpdate` or a `PublicRouteService` that fails its check cannot be built.
-/

namespace Heimdall

/-- `validate_subdomain`, on a subdomain that has been stripped and lower-cased. -/
def isSubdomain (s : String) : Bool :=
  isLabel s.toList && !decide ("--".toList <:+: s.toList)

/-- A request for a public host name. -/
structure PublicRouteUpdate where
  subdomain : String
  isSubdomain : isSubdomain subdomain = true

/-- The request for a subdomain, if it is acceptable. -/
def PublicRouteUpdate.ofSubdomain (subdomain : String) : Except Exc PublicRouteUpdate :=
  if h : Heimdall.isSubdomain subdomain = true then .ok ⟨subdomain, h⟩ else .error .value

/-- The settings of the service. -/
structure PublicRouteService where
  deploymentBaseDomain : String
  isHostname : isHostname deploymentBaseDomain = true
  reservedSubdomains : List String

namespace PublicRouteService

/-- The host name `set` asks the repository for. -/
def hostname (service : PublicRouteService) (request : PublicRouteUpdate) : Except Exc String :=
  if request.subdomain ∈ service.reservedSubdomains then .error .app
  else
    let hostname := request.subdomain ++ "." ++ service.deploymentBaseDomain
    if 253 < hostname.length then .error .app else .ok hostname

/-- `self._projects.get(project_id)`. -/
def getProject (db : RouteDb) (p : Uuid) : Except Exc Unit :=
  if (db.projects p).isNone then .error .app else .ok ()

/-- The exceptions of `set_enabled` as the service reports them. -/
def asAppError {α : Type} : Except Exc α → Except Exc α
  | .error .publicRouteConflict | .error .publicRouteProjectDeleting => .error .app
  | r => r

def set (service : PublicRouteService) (db : RouteDb) (p : Uuid) (request : PublicRouteUpdate)
    (now : Time) : Except Exc (PublicRoute × RouteDb) := do
  getProject db p
  let hostname ← service.hostname request
  asAppError (db.setEnabled p request.subdomain hostname now)

/-! ## What the names look like -/

/-- A character of a canonical host name. -/
def isHostnameChar (c : Char) : Bool := isLowerAlnum c || c == '-' || c == '.'

theorem toLower_of_isHostnameChar {c : Char} (h : isHostnameChar c = true) : c.toLower = c := by
  have hupper : ¬(c.val ≥ 'A'.val ∧ c.val ≤ 'Z'.val) := by
    rintro ⟨hge, hle⟩
    simp only [isHostnameChar, isLowerAlnum, Char.isLower, Char.isDigit, Bool.or_eq_true,
      Bool.and_eq_true, decide_eq_true_eq, beq_iff_eq] at h
    simp only [UInt32.le_iff_toNat_le, ge_iff_le] at hge hle h
    rcases h with ((⟨hlow, -⟩ | ⟨-, hdigit⟩) | rfl) | rfl
    · have : 'a'.val.toNat = 97 := rfl
      have : 'Z'.val.toNat = 90 := rfl
      omega
    · have : '9'.val.toNat = 57 := rfl
      have : 'A'.val.toNat = 65 := rfl
      omega
    · exact absurd hge (by decide)
    · exact absurd hge (by decide)
  unfold Char.toLower
  exact dif_neg hupper

theorem isHostnameChar_of_isLabel {cs : List Char} (h : isLabel cs = true) :
    ∀ c ∈ cs, isHostnameChar c = true := by
  intro c hc
  simp only [isLabel, Bool.and_eq_true, List.all_eq_true] at h
  simp [isHostnameChar, h.1.1.2 c hc]

theorem mem_intercalate {α : Type} {x : α} {sep : List α} {parts : List (List α)}
    (h : x ∈ sep.intercalate parts) : x ∈ sep ∨ ∃ part ∈ parts, x ∈ part := by
  induction parts with
  | nil => simp [List.intercalate_nil] at h
  | cons part parts ih =>
    by_cases hne : parts = []
    · subst hne
      rw [List.intercalate_singleton] at h
      exact .inr ⟨part, List.mem_cons_self, h⟩
    · rw [List.intercalate_cons_of_ne_nil hne, List.mem_append, List.mem_append] at h
      rcases h with (h | h) | h
      · exact .inr ⟨part, List.mem_cons_self, h⟩
      · exact .inl h
      · rcases ih h with h | ⟨part', hmem, h⟩
        · exact .inl h
        · exact .inr ⟨part', List.mem_cons_of_mem _ hmem, h⟩

theorem isHostnameChar_of_isHostname {s : String} (h : Heimdall.isHostname s = true) :
    ∀ c ∈ s.toList, isHostnameChar c = true := by
  intro c hc
  simp only [Heimdall.isHostname, Bool.and_eq_true, List.all_eq_true] at h
  have hparts : ['.'].intercalate (s.toList.splitOn '.') = s.toList := List.intercalate_splitOn '.'
  rw [← hparts] at hc
  rcases mem_intercalate hc with hdot | ⟨part, hpart, hc⟩
  · rw [List.mem_singleton.mp hdot]
    decide
  · exact isHostnameChar_of_isLabel (h.2 part hpart) c hc

/-- The service asks only for lower-case host names. -/
theorem hostname_lower {service : PublicRouteService} {request : PublicRouteUpdate}
    {hostname : String} (h : service.hostname request = .ok hostname) :
    hostname.toList.map Char.toLower = hostname.toList := by
  have hsub := request.isSubdomain
  simp only [Heimdall.isSubdomain, Bool.and_eq_true] at hsub
  unfold PublicRouteService.hostname at h
  split at h
  · simp at h
  · simp only at h
    split at h
    · simp at h
    · cases h
      have hchars : ∀ c ∈ (request.subdomain ++ "." ++ service.deploymentBaseDomain).toList,
          isHostnameChar c = true := by
        intro c hc
        simp only [String.toList_append, List.mem_append] at hc
        rcases hc with (hc | hc) | hc
        · exact isHostnameChar_of_isLabel hsub.1 c hc
        · rw [List.mem_singleton.mp hc]
          decide
        · exact isHostnameChar_of_isHostname service.isHostname c hc
      calc _ = _ := List.map_congr_left fun c hc ↦ toLower_of_isHostnameChar (hchars c hc)
        _ = _ := List.map_id' _

end PublicRouteService

end Heimdall
