import Heimdall.PublicRoutes.Service

/-!
# Settings

The settings the processes of the program start from are read from the environment once, and a value
that fails its check keeps a process from starting. Of the variables that `from_environment` reads,
the ones here decide which public host names exist and which address a project is given for its
database. A check that has passed is a field of `Settings`; a variable that is only read has none.
-/

namespace Heimdall

/-- What the program asks of Python's strings that depends on the Unicode tables or on the grammar of
its numbers. -/
structure TextMethods where
  strip : String → String
  lower : String → String
  int : String → Except String ℤ

/-- `value.rstrip(".")`. -/
def rstripDots (s : String) : String :=
  String.ofList (s.toList.reverse.dropWhile (· == '.')).reverse

/-- `value.split(".", 1)[0]`. -/
def firstLabel (s : String) : String := String.ofList (s.toList.takeWhile (· != '.'))

/-- `value.split(",")`. -/
def splitCommas (s : String) : List String := (s.toList.splitOn ',').map String.ofList

/-- The host name lies below the domain. -/
def endsWithDomain (s domain : String) : Bool := ("." ++ domain).toList.isSuffixOf s.toList

theorem isHostname_of_labels {s : String} (hlength : ¬(253 < s.length ∨ '.' ∉ s.toList))
    (hlabels : ¬(s.toList.splitOn '.').any (fun label ↦ !isLabel label) = true) :
    isHostname s = true := by
  rw [not_or, Nat.not_lt, not_not] at hlength
  obtain ⟨hlength, hdot⟩ := hlength
  have htwo : 2 ≤ (s.toList.splitOn '.').length := by
    obtain ⟨before, after, hs⟩ := List.append_of_mem hdot
    have hbefore := List.length_pos_iff.mpr (List.splitOn_ne_nil '.' before)
    have hafter := List.length_pos_iff.mpr (List.splitOn_ne_nil '.' after)
    rw [hs, List.splitOn_append_cons_self, List.length_append]
    omega
  have hall : (s.toList.splitOn '.').all isLabel = true := by
    simpa [List.all_eq_true] using hlabels
  simp [isHostname, hlength, htwo, hall]

/-- A host name of at most 253 characters that is a label in front of a host name is one. -/
theorem isHostname_label_append {label domain : String} (hlabel : isLabel label.toList = true)
    (hdomain : isHostname domain = true) (hlength : (label ++ "." ++ domain).length ≤ 253) :
    isHostname (label ++ "." ++ domain) = true := by
  have hdot : '.' ∉ label.toList := by
    intro hmem
    simp only [isLabel, Bool.and_eq_true, List.all_eq_true] at hlabel
    exact absurd (hlabel.1.1.2 _ hmem) (by decide)
  have hsplit : (label ++ "." ++ domain).toList.splitOn '.'
      = label.toList :: domain.toList.splitOn '.' := by
    rw [String.toList_append, String.toList_append, List.append_assoc]
    exact List.splitOn_append_cons_self_of_not_mem hdot _
  simp only [isHostname, Bool.and_eq_true, decide_eq_true_eq] at hdomain ⊢
  rw [hsplit, List.length_cons, List.all_cons, Bool.and_eq_true]
  exact ⟨⟨hlength, by omega⟩, hlabel, hdomain.2⟩

/-- The settings of a process. -/
structure Settings where
  managementHostname : String
  deploymentBaseDomain : String
  /-- Sorted and without repetition. -/
  reservedPublicSubdomains : List String
  edgeHttpPort : ℤ
  projectDatabaseRuntimeHost : String
  projectDatabaseRuntimePort : ℤ
  managementHostname_valid : isHostname managementHostname = true
  deploymentBaseDomain_valid : isHostname deploymentBaseDomain = true
  /-- The management host name lies outside of the domain of the deployments. -/
  management_outside : ¬(managementHostname = deploymentBaseDomain
    ∨ endsWithDomain managementHostname deploymentBaseDomain = true)
  /-- What no project may take, whatever was configured. -/
  always_reserved : ∀ label ∈ ["admin", "api", "www", firstLabel managementHostname],
    label ∈ reservedPublicSubdomains
  edgeHttpPort_valid : 1 ≤ edgeHttpPort ∧ edgeHttpPort ≤ 65535

namespace Settings

variable (text : TextMethods)

/-- `_hostname`. -/
def hostname (name value : String) : Except String { s : String // isHostname s = true } :=
  let hostname := rstripDots (text.lower (text.strip value))
  if hlength : 253 < hostname.length ∨ '.' ∉ hostname.toList then
    .error (name ++ " must be a canonical hostname")
  else if hlabels : (hostname.toList.splitOn '.').any (fun label ↦ !isLabel label) = true then
    .error (name ++ " must be a canonical hostname")
  else .ok ⟨hostname, isHostname_of_labels hlength hlabels⟩

/-- The loop over the configured labels, with the labels reserved so far. -/
def reserve : List String → (reserved : List String) →
    Except String { labels : List String // reserved ⊆ labels }
  | [], reserved => .ok ⟨reserved, List.Subset.refl _⟩
  | rawLabel :: rawLabels, reserved =>
    if text.strip rawLabel = "" then reserve rawLabels reserved
    else
      let label := text.lower (text.strip rawLabel)
      if !isSubdomain label then
        .error "HEIMDALL_RESERVED_PUBLIC_SUBDOMAINS must contain lowercase DNS labels"
      else do
        let labels ← reserve rawLabels (reserved.insert label)
        .ok ⟨labels.1, fun _ h ↦ labels.2 (List.mem_insert_of_mem h)⟩

/-- `from_environment`, on the environment as a partial map. -/
def fromEnvironment (environ : String → Option String) : Except String Settings := do
  let management ← hostname text "HEIMDALL_MANAGEMENT_HOSTNAME"
    ((environ "HEIMDALL_MANAGEMENT_HOSTNAME").getD "heimdall.localhost")
  let domain ← hostname text "HEIMDALL_DEPLOYMENT_BASE_DOMAIN"
    ((environ "HEIMDALL_DEPLOYMENT_BASE_DOMAIN").getD "deployments.localhost")
  if houtside : management.1 = domain.1 ∨ endsWithDomain management.1 domain.1 = true then
    .error "HEIMDALL_MANAGEMENT_HOSTNAME must be outside the deployment base domain"
  else
    let reserved ← reserve text
      (splitCommas ((environ "HEIMDALL_RESERVED_PUBLIC_SUBDOMAINS").getD ""))
      ["admin", "api", "www", firstLabel management.1]
    let edgeHttpPort ← text.int ((environ "HEIMDALL_EDGE_HTTP_PORT").getD "8088")
    if hport : ¬(1 ≤ edgeHttpPort ∧ edgeHttpPort ≤ 65535) then
      .error "HEIMDALL_EDGE_HTTP_PORT must be between 1 and 65535"
    else
      let runtimePort ← text.int ((environ "HEIMDALL_PROJECT_DB_RUNTIME_PORT").getD "55433")
      .ok
        { managementHostname := management.1
          deploymentBaseDomain := domain.1
          reservedPublicSubdomains := reserved.1.dedup.insertionSort (· ≤ ·)
          edgeHttpPort := edgeHttpPort
          projectDatabaseRuntimeHost :=
            (environ "HEIMDALL_PROJECT_DB_RUNTIME_HOST").getD "host.docker.internal"
          projectDatabaseRuntimePort := runtimePort
          managementHostname_valid := management.2
          deploymentBaseDomain_valid := domain.2
          management_outside := houtside
          always_reserved := fun _ h ↦ (List.perm_insertionSort _ _).mem_iff.mpr
            (List.mem_dedup.mpr (reserved.2 h))
          edgeHttpPort_valid := not_not.mp hport }

/-- The service of the public routes as both processes build it. -/
def publicRouteService (settings : Settings) : PublicRouteService where
  deploymentBaseDomain := settings.deploymentBaseDomain
  isHostname := settings.deploymentBaseDomain_valid
  reservedSubdomains := settings.reservedPublicSubdomains

end Settings

end Heimdall
