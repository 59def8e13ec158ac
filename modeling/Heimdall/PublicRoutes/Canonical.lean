import Heimdall.Edge.Routes
import Heimdall.PublicRoutes.Rows
import Heimdall.Settings

/-!
# Stored host names are canonical

A host name reaches a row of `project_public_routes` through `PublicRouteService.set` and through
nothing else: the other operations copy the names of the row they find. So what holds of every name
the service accepts holds of every name that is stored, asked for or served (`RouteRow.Stored`), in
whatever order the requests and the workers come.

What the service accepts is a label in front of the deployment base domain, and of at most 253
characters. That is a host name in the sense of the edge, so the text of the edge can be written from
whatever is served.
-/

namespace Heimdall

/-! ## What the service accepts -/

/-- The service asks for the host name on a request for the subdomain. -/
def PublicRouteService.Accepts (service : PublicRouteService) (subdomain hostname : String) : Prop :=
  ∃ request : PublicRouteUpdate, request.subdomain = subdomain
    ∧ service.hostname request = .ok hostname

/-- The names of a row are ones the service accepted. -/
structure RouteRow.Stored (service : PublicRouteService) (row : RouteRow) : Prop where
  hostname : service.Accepts row.subdomain row.hostname
  applied : ∀ n, row.appliedHostname = some n → ∃ subdomain, service.Accepts subdomain n

namespace PublicRouteService

variable {service : PublicRouteService} {subdomain n : String}

theorem Accepts.spec (h : service.Accepts subdomain n) : isSubdomain subdomain = true
    ∧ subdomain ∉ service.reservedSubdomains
    ∧ n = subdomain ++ "." ++ service.deploymentBaseDomain ∧ n.length ≤ 253 := by
  obtain ⟨request, rfl, hn⟩ := h
  unfold PublicRouteService.hostname at hn
  split at hn
  · cases hn
  · rename_i hreserved
    simp only at hn
    split at hn
    · cases hn
    · rename_i hlength
      cases hn
      exact ⟨request.isSubdomain, hreserved, rfl, Nat.le_of_not_lt hlength⟩

theorem Accepts.isHostname (h : service.Accepts subdomain n) : Heimdall.isHostname n = true := by
  obtain ⟨hsubdomain, -, rfl, hlength⟩ := h.spec
  simp only [isSubdomain, Bool.and_eq_true] at hsubdomain
  exact isHostname_label_append hsubdomain.1 service.isHostname hlength

/-- An accepted name is below the base domain, and the management host name is not. -/
theorem Accepts.ne_managementHostname {settings : Settings}
    (h : settings.publicRouteService.Accepts subdomain n) : n ≠ settings.managementHostname := by
  rintro rfl
  obtain ⟨-, -, hn, -⟩ := h.spec
  refine settings.management_outside (.inr ?_)
  rw [endsWithDomain, List.isSuffixOf_iff_suffix, hn]
  refine ⟨subdomain.toList, ?_⟩
  simp [Settings.publicRouteService, String.toList_append]

end PublicRouteService

/-! ## What a call stores -/

namespace RouteDb

variable {service : PublicRouteService} {db db' : RouteDb} {p : Uuid} {row : RouteRow}
  {job : JobRow}

/-- Every row has accepted names. -/
def Stored (service : PublicRouteService) (db : RouteDb) : Prop :=
  ∀ p row, db.routes.lookup p = some row → row.Stored service

theorem Stored.writes (hs : db.Stored service) (hw : db.Writes db' p row job)
    (hrow : row.Stored service) : db'.Stored service := by
  intro q row' hrow'
  rw [hw.routes] at hrow'
  split_ifs at hrow' with hq
  · cases hrow'
    exact hrow
  · exact hs q row' hrow'

/-- An operation under a claim keeps the names of the row, or serves the one it asks for. -/
theorem Stored.claimCommit (hs : db.Stored service) {claim : PublicRouteJobClaim} {now : ℕ → Time}
    {setRoute : RouteRow → RouteRow} {setJob : JobRow → JobRow}
    (hc : db.ClaimCommit db' claim now setRoute setJob)
    (hsubdomain : ∀ row, (setRoute row).subdomain = row.subdomain)
    (hhostname : ∀ row, (setRoute row).hostname = row.hostname)
    (happlied : ∀ row, (setRoute row).appliedHostname = row.appliedHostname
      ∨ (setRoute row).appliedHostname = row.requestedHostname) : db'.Stored service := by
  obtain ⟨job, row, -, hr, -, -, hw⟩ := hc.exists_rows
  have hrow := hs _ row hr
  refine hs.writes hw ⟨?_, fun n hn ↦ ?_⟩
  · rw [hsubdomain, hhostname]
    exact hrow.hostname
  · rcases happlied row with heq | heq
    · exact hrow.applied n (heq ▸ hn)
    · rw [heq, RouteRow.requestedHostname] at hn
      split at hn
      · cases hn
        exact ⟨_, hrow.hostname⟩
      · cases hn

theorem Stored.disableRow (hs : db.Stored service) {now : Time} {r : PublicRoute}
    (hrow : db.routes.lookup p = some row) (h : db.disableRow p row now = .ok (r, db')) :
    db'.Stored service := by
  unfold RouteDb.disableRow at h
  simp only at h
  split at h
  · cases h
    exact hs
  · obtain ⟨db₁, hroute, h⟩ := bind_eq_ok h
    obtain ⟨db₂, hjob, h⟩ := bind_eq_ok h
    cases h
    obtain ⟨job, -, -, hw⟩ := putRoute_upsertJob_ok hroute hjob
    have hstored := hs p row hrow
    exact hs.writes hw ⟨hstored.hostname, hstored.applied⟩

theorem Stored.disable (hs : db.Stored service) {now : Time} {r : PublicRoute}
    (h : db.disable p now = .ok (r, db')) : db'.Stored service := by
  obtain ⟨-, -, h⟩ := bind_eq_ok h
  split at h
  · cases h
  · exact hs.disableRow ‹_› h

theorem Stored.disableForDeletion (hs : db.Stored service) {now : Time} {r : Option PublicRoute}
    (h : db.disableForDeletion p now = .ok (r, db')) : db'.Stored service := by
  unfold RouteDb.disableForDeletion at h
  split at h
  · cases h
  · split at h
    · cases h
      exact hs
    · obtain ⟨⟨row, db₁⟩, hrow, h⟩ := bind_eq_ok h
      cases h
      exact hs.disableRow ‹_› hrow

/-- The names of a request are stored as the service accepted them; what is served stays. -/
theorem Stored.setEnabled (hs : db.Stored service) {subdomain hostname : String} {now : Time}
    {r : PublicRoute} (haccepts : service.Accepts subdomain hostname)
    (h : db.setEnabled p subdomain hostname now = .ok (r, db')) : db'.Stored service := by
  have h := asConflict_ok h
  obtain ⟨-, -, h⟩ := bind_eq_ok h
  obtain ⟨-, -, h⟩ := bind_eq_ok h
  split at h
  · obtain ⟨db₁, hroute, h⟩ := bind_eq_ok h
    obtain ⟨db₂, hjob, h⟩ := bind_eq_ok h
    cases h
    unfold insertRoute at hroute
    split at hroute
    · cases hroute
    · obtain ⟨job, -, -, hw⟩ := putRoute_upsertJob_ok hroute hjob
      refine hs.writes hw ⟨haccepts, fun n hn ↦ ?_⟩
      cases hn
  · rename_i current hcurrent
    simp only at h
    split at h
    · cases h
      exact hs
    · obtain ⟨db₁, hroute, h⟩ := bind_eq_ok h
      obtain ⟨db₂, hjob, h⟩ := bind_eq_ok h
      cases h
      obtain ⟨job, -, -, hw⟩ := putRoute_upsertJob_ok hroute hjob
      exact hs.writes hw ⟨haccepts, (hs p current hcurrent).applied⟩

end RouteDb

/-- A call of the repository other than the one `set` makes keeps the accepted names. -/
theorem RouteCall.stored {service : PublicRouteService} {db db' : RouteDb} {now : ℕ → Time}
    {call : RouteCall} {claim : Option PublicRouteJobClaim} (hs : db.Stored service)
    (hset : ∀ p subdomain hostname at_, call = .setEnabled p subdomain hostname at_ →
      service.Accepts subdomain hostname)
    (h : call.exec now db = .ok (claim, db')) : db'.Stored service := by
  cases call with
  | setEnabled p subdomain hostname at_ =>
    obtain ⟨r, hr, heq⟩ := map_eq_ok h
    cases heq
    exact hs.setEnabled (hset _ _ _ _ rfl) hr
  | disable p at_ =>
    obtain ⟨r, hr, heq⟩ := map_eq_ok h
    cases heq
    exact hs.disable hr
  | disableForDeletion p at_ =>
    obtain ⟨r, hr, heq⟩ := map_eq_ok h
    cases heq
    exact hs.disableForDeletion hr
  | claimNext workerId d token locked =>
    have hc := RouteDb.claimNext_ok h
    cases claim with
    | none => exact hc ▸ hs
    | some claim =>
      obtain ⟨-, -, old, row, job, hold, rfl, -, -, -, -, -, -, -, hw⟩ := hc
      have hstored := hs _ old hold
      exact hs.writes hw ⟨hstored.hostname, hstored.applied⟩
  | renew claim d =>
    obtain ⟨r, hr, heq⟩ := map_eq_ok h
    cases heq
    obtain ⟨job, row, -, hrow, -, -, -, hw⟩ := RouteDb.renew_ok hr
    exact hs.writes hw (hs _ row hrow)
  | complete claim =>
    obtain ⟨r, hr, heq⟩ := map_eq_ok h
    cases heq
    exact hs.claimCommit (RouteDb.complete_ok hr) (fun _ ↦ rfl) (fun _ ↦ rfl) fun _ ↦ .inr rfl
  | retry claim availableAt code =>
    obtain ⟨r, hr, heq⟩ := map_eq_ok h
    cases heq
    exact hs.claimCommit (RouteDb.reschedule_ok hr) (fun _ ↦ rfl) (fun _ ↦ rfl) fun _ ↦ .inl rfl
  | deferNotReady claim availableAt code =>
    obtain ⟨r, hr, heq⟩ := map_eq_ok h
    cases heq
    exact hs.claimCommit (RouteDb.reschedule_ok hr) (fun _ ↦ rfl) (fun _ ↦ rfl) fun _ ↦ .inl rfl
  | fail claim code uncertain =>
    obtain ⟨r, hr, heq⟩ := map_eq_ok h
    cases heq
    exact hs.claimCommit (RouteDb.fail_ok hr) (fun _ ↦ rfl) (fun _ ↦ rfl) fun _ ↦ .inl rfl
  | wakePending p =>
    obtain ⟨r, hr, heq⟩ := map_eq_ok h
    cases heq
    rcases RouteDb.wakePending_ok hr with rfl | ⟨job, row, -, hrow, -, -, hw⟩
    · exact hs
    · exact hs.writes hw (hs _ row hrow)

/-! ## Runs of the program -/

namespace RouteHistory

/-- One step of the program: a request that `set` stored, another call of the repository, or a
project changing its status. -/
inductive ServiceStep (service : PublicRouteService) : RouteHistory → RouteHistory → Prop
  | set (h : RouteHistory) (p : Uuid) (request : PublicRouteUpdate) (now : Time) (r : PublicRoute)
    (db : RouteDb) (hset : service.set h.db p request now = .ok (r, db)) :
    ServiceStep service h ⟨db, h.issued⟩
  | call (h : RouteHistory) (c : RouteCall) (now : ℕ → Time) (hc : h.Admissible c)
    (hother : ∀ p subdomain hostname at_, c ≠ .setEnabled p subdomain hostname at_) :
    ServiceStep service h (h.after c now)
  | project (h : RouteHistory) (projects : Uuid → Option ProjectStatus) :
    ServiceStep service h ⟨{ h.db with projects := projects }, h.issued⟩

/-- The histories the program reaches with one `PublicRouteService`. -/
def ServiceReachable (service : PublicRouteService) (h : RouteHistory) : Prop :=
  ∃ h₀, Initial h₀ ∧ Relation.ReflTransGen (ServiceStep service) h₀ h

variable {service : PublicRouteService} {h h' : RouteHistory}

theorem set_ok {p : Uuid} {request : PublicRouteUpdate} {now : Time} {r : PublicRoute}
    {db db' : RouteDb} (hset : service.set db p request now = .ok (r, db')) :
    ∃ hostname, service.hostname request = .ok hostname
      ∧ db.setEnabled p request.subdomain hostname now = .ok (r, db') := by
  obtain ⟨-, -, hset⟩ := bind_eq_ok hset
  obtain ⟨hostname, hhostname, hset⟩ := bind_eq_ok hset
  refine ⟨hostname, hhostname, ?_⟩
  unfold PublicRouteService.asAppError at hset
  split at hset
  · cases hset
  · cases hset
  · exact hset

theorem ServiceStep.toStep (hs : ServiceStep service h h') : Step h h' := by
  cases hs with
  | set p request now r db hset =>
    obtain ⟨hostname, -, hset⟩ := set_ok hset
    have hafter : h.after (.setEnabled p request.subdomain hostname now) (fun _ ↦ now)
        = ⟨db, h.issued⟩ := by
      simp [RouteHistory.after, RouteCall.exec, hset, Except.map]
    rw [← hafter]
    refine .call _ _ _ ⟨?_, ?_⟩
    · intro claim hclaim
      cases hclaim
    · intro workerId d token locked hcall
      cases hcall
  | call c now hc _ => exact .call _ _ _ hc
  | project projects => exact .project _ _

theorem ServiceReachable.reachable (hr : ServiceReachable service h) : Reachable h := by
  obtain ⟨h₀, hinit, hsteps⟩ := hr
  exact ⟨h₀, hinit, Relation.ReflTransGen.mono (fun _ _ ↦ ServiceStep.toStep) _ _ hsteps⟩

theorem stored_step (hs : ServiceStep service h h') (hstored : h.db.Stored service) :
    h'.db.Stored service := by
  cases hs with
  | set p request now r db hset =>
    obtain ⟨hostname, hhostname, hset⟩ := set_ok hset
    exact hstored.setEnabled ⟨request, rfl, hhostname⟩ hset
  | call c now _ hother =>
    unfold RouteHistory.after
    split
    · exact RouteCall.stored hstored (fun p s n t heq ↦ absurd heq (hother p s n t)) ‹_›
    · exact hstored
  | project projects => exact hstored

theorem ServiceReachable.stored (hr : ServiceReachable service h) : h.db.Stored service := by
  obtain ⟨h₀, ⟨hroutes, -, -⟩, hsteps⟩ := hr
  induction hsteps with
  | refl =>
    intro p row hrow
    rw [hroutes] at hrow
    exact absurd hrow (by simp)
  | tail _ hstep ih => exact stored_step hstep ih

end RouteHistory

/-! ## The targets of the edge -/

/-- `_applied_target`. -/
def appliedTarget (route : PublicRoute) : Except Exc EdgeRouteTarget :=
  match route.appliedHostname with
  | none => .error .value
  | some hostname => .ok ⟨route.projectId, hostname, projectGatewayAlias route.projectId⟩

theorem mapM_appliedTarget {routes : List PublicRoute}
    (h : ∀ r ∈ routes, r.appliedHostname.isSome = true) :
    ∃ targets, routes.mapM appliedTarget = .ok targets
      ∧ targets.map (fun t ↦ some t.hostname) = routes.map (·.appliedHostname)
      ∧ ∀ t ∈ targets, ∃ p, t.gatewayAlias = projectGatewayAlias p := by
  induction routes with
  | nil => exact ⟨[], rfl, rfl, by simp⟩
  | cons r routes ih =>
    obtain ⟨hr, hroutes⟩ := List.forall_mem_cons.mp h
    obtain ⟨hostname, hhostname⟩ := Option.isSome_iff_exists.mp hr
    obtain ⟨targets, htargets, hnames, haliases⟩ := ih hroutes
    refine ⟨⟨r.projectId, hostname, projectGatewayAlias r.projectId⟩ :: targets, ?_, ?_, ?_⟩
    · rw [List.mapM_cons, htargets, appliedTarget, hhostname]
      rfl
    · rw [List.map_cons, List.map_cons, hnames, hhostname]
    · exact List.forall_mem_cons.mpr ⟨⟨_, rfl⟩, haliases⟩

theorem isDockerName_projectGatewayAlias (p : Uuid) :
    isDockerName 127 (projectGatewayAlias p) = true := by
  have hdigits : ∀ d : Fin 16, isDockerChar (Uuid.digitChar d) = true := by decide
  have hhex : ∀ c ∈ p.hex12.toList, isDockerChar c = true := by
    intro c hc
    simp only [Uuid.hex12, String.toList_ofList, Uuid.chars] at hc
    obtain ⟨d, -, rfl⟩ := List.mem_map.mp (List.mem_of_mem_take hc)
    exact hdigits d
  have hlength : p.hex12.toList.length ≤ 12 := by
    rw [Uuid.hex12, String.toList_ofList]
    exact List.length_take_le _ _
  have hcons : (projectGatewayAlias p).toList
      = 'h' :: ("m-p".toList ++ p.hex12.toList ++ "-gateway".toList) := by
    simp [projectGatewayAlias, projectGatewayName, String.toList_append]
  have hrest : ("m-p".toList ++ p.hex12.toList ++ "-gateway".toList).all isDockerChar = true := by
    rw [List.all_append, List.all_append, List.all_eq_true.mpr hhex]
    decide
  rw [isDockerName, hcons]
  simp only [hrest, List.length_append, Bool.and_eq_true, decide_eq_true_eq, and_true]
  refine ⟨by decide, ?_⟩
  have hleft : "m-p".toList.length = 3 := rfl
  have hright : "-gateway".toList.length = 8 := rfl
  omega

namespace RouteDb

variable {db : RouteDb}

theorem mem_listApplied {r : PublicRoute} (h : r ∈ db.listApplied) :
    ∃ p row, db.routes.lookup p = some row ∧ row.appliedHostname.isSome = true
      ∧ r = route p row := by
  rw [listApplied, (List.perm_insertionSort _ _).mem_iff, appliedRoutes] at h
  obtain ⟨e, he, rfl⟩ := List.mem_map.mp h
  obtain ⟨hmem, hsome⟩ := List.mem_filter.mp he
  exact ⟨e.1, e.2, AList.mem_lookup_iff.mpr hmem, hsome, rfl⟩

/-- The served names are distinct. -/
theorem HostnamesDisjoint.listApplied_nodup (hd : db.HostnamesDisjoint) :
    (db.listApplied.map (·.appliedHostname)).Nodup := by
  have hperm : (db.listApplied.map (·.appliedHostname)).Perm
      (db.appliedRoutes.map (·.appliedHostname)) := (List.perm_insertionSort _ _).map _
  rw [hperm.nodup_iff, appliedRoutes, List.map_map, List.Nodup, List.pairwise_map]
  have hkeys : (db.routes.entries.filter fun e ↦ e.2.appliedHostname.isSome).Pairwise
      fun a b ↦ a.1 ≠ b.1 :=
    (List.nodupKeys_iff_pairwise.mp db.routes.nodupKeys).sublist List.filter_sublist
  refine hkeys.imp_of_mem fun {a b} ha hb hne heq ↦ ?_
  obtain ⟨ha, hsome⟩ := List.mem_filter.mp ha
  obtain ⟨hb, -⟩ := List.mem_filter.mp hb
  obtain ⟨n, hn⟩ := Option.isSome_iff_exists.mp hsome
  have heq : a.2.appliedHostname = b.2.appliedHostname := heq
  exact hd.not_holds hne ⟨a.2, AList.mem_lookup_iff.mpr ha, .inr hn⟩
    ⟨b.2, AList.mem_lookup_iff.mpr hb, .inr (heq ▸ hn)⟩

/-- What is served can be written into the text of the edge, whatever was requested. -/
theorem Stored.renderEdgeRoutes_ne {service : PublicRouteService} (hs : db.Stored service)
    (hd : db.HostnamesDisjoint) : ∃ targets, db.listApplied.mapM appliedTarget = .ok targets
      ∧ renderEdgeRoutes targets
        ≠ .error (.edgeRuntime { code := "EDGE_ROUTE_SNAPSHOT_INVALID" }) := by
  have hsome : ∀ r ∈ db.listApplied, r.appliedHostname.isSome = true := by
    intro r hr
    obtain ⟨p, row, -, hrow, rfl⟩ := mem_listApplied hr
    exact hrow
  obtain ⟨targets, htargets, hnames, haliases⟩ := mapM_appliedTarget hsome
  have hnodup : (targets.map EdgeRouteTarget.hostname).Nodup := by
    have h := hd.listApplied_nodup
    rw [← hnames] at h
    refine List.Nodup.of_map some ?_
    rwa [List.map_map]
  have hvalid : ∀ t ∈ targets, t.valid = true := by
    intro t ht
    have hmem : some t.hostname ∈ db.listApplied.map (·.appliedHostname) :=
      hnames ▸ List.mem_map_of_mem ht
    obtain ⟨r, hr, hhostname⟩ := List.mem_map.mp hmem
    obtain ⟨p, row, hrow, -, rfl⟩ := mem_listApplied hr
    obtain ⟨subdomain, haccepts⟩ := (hs p row hrow).applied _ hhostname
    obtain ⟨p', halias⟩ := haliases t ht
    rw [EdgeRouteTarget.valid, haccepts.isHostname, halias, isDockerName_projectGatewayAlias]
    rfl
  refine ⟨targets, htargets, ?_⟩
  rw [renderEdgeRoutes_of_valid hvalid hnodup]
  simp only
  split_ifs <;> simp

end RouteDb

namespace RouteHistory

/-- **Stored host names are canonical.** For settings that `from_environment` accepted and a history
the program reaches with them: a stored name, asked for or served, is a host name the edge accepts,
is not the management host name, and is an unreserved label in front of the base domain; the row
meets the checks of its table, and no request fails one; and the text of the edge routes is never
refused for the names that are served. -/
theorem stored_hostnames_canonical {text : TextMethods} {environ : String → Option String}
    {settings : Settings} {h : RouteHistory}
    (_ : Settings.fromEnvironment text environ = .ok settings)
    (hr : ServiceReachable settings.publicRouteService h) :
    (∀ p row, h.db.routes.lookup p = some row → ∀ n ∈ row.hostnames,
      isHostname n = true ∧ n ≠ settings.managementHostname
        ∧ ∃ label, isSubdomain label = true ∧ label ∉ settings.reservedPublicSubdomains
          ∧ label ∉ ["admin", "api", "www", firstLabel settings.managementHostname]
          ∧ n = label ++ "." ++ settings.deploymentBaseDomain)
    ∧ (∀ p row, h.db.routes.lookup p = some row → row.checks = true
      ∧ row.subdomain ∉ settings.reservedPublicSubdomains
      ∧ row.hostname = row.subdomain ++ "." ++ settings.deploymentBaseDomain)
    ∧ (∀ p request now, settings.publicRouteService.set h.db p request now
      ≠ .error .checkViolation)
    ∧ ∃ targets, h.db.listApplied.mapM appliedTarget = .ok targets
      ∧ renderEdgeRoutes targets
        ≠ .error (.edgeRuntime { code := "EDGE_ROUTE_SNAPSHOT_INVALID" }) := by
  have hstored := hr.stored
  have hchecked := hr.reachable.rows.2
  refine ⟨fun p row hrow n hn ↦ ?_, fun p row hrow ↦ ?_, fun p request now ↦ ?_, ?_⟩
  · have haccepts : ∃ label, settings.publicRouteService.Accepts label n := by
      rcases hn with rfl | hn
      · exact ⟨_, (hstored p row hrow).hostname⟩
      · exact (hstored p row hrow).applied n hn
    obtain ⟨label, haccepts⟩ := haccepts
    obtain ⟨hlabel, hreserved, heq, -⟩ := haccepts.spec
    exact ⟨haccepts.isHostname, haccepts.ne_managementHostname, label, hlabel, hreserved,
      fun hmem ↦ hreserved (settings.always_reserved label hmem), heq⟩
  · obtain ⟨-, hreserved, heq, -⟩ := (hstored p row hrow).hostname.spec
    exact ⟨hchecked.routes p row hrow, hreserved, heq⟩
  · exact settings.publicRouteService.set_ne_checkViolation hchecked p request now
  · exact hstored.renderEdgeRoutes_ne hr.reachable.hostnamesDisjoint

theorem sampleManagement_valid : isHostname "heimdall.localhost" = true := by decide

/-- The settings of an empty environment. -/
def sampleSettings : Settings where
  managementHostname := "heimdall.localhost"
  deploymentBaseDomain := "deployments.localhost"
  reservedPublicSubdomains := ["admin", "api", "heimdall", "www"]
  edgeHttpPort := 8088
  projectDatabaseRuntimeHost := "host.docker.internal"
  projectDatabaseRuntimePort := 8088
  managementHostname_valid := sampleManagement_valid
  deploymentBaseDomain_valid := by decide
  management_outside := by decide
  always_reserved := by decide
  edgeHttpPort_valid := by decide

theorem fromEnvironment_sample :
    Settings.fromEnvironment ⟨id, id, fun _ ↦ .ok 8088⟩ (fun _ ↦ none) = .ok sampleSettings := by
  rfl

/-- A project has asked for `app` in front of the base domain. -/
theorem stored_hostnames_canonical_sample : ∃ h row,
    ServiceReachable sampleSettings.publicRouteService h
      ∧ h.db.routes.lookup (.ofNat 1) = some row ∧ row.hostname = "app.deployments.localhost"
      ∧ isHostname row.hostname = true ∧ row.hostname ≠ sampleSettings.managementHostname := by
  obtain ⟨r, db, hset, hrow⟩ : ∃ r db, sampleSettings.publicRouteService.set sampleStart.db
      (.ofNat 1) ⟨"app", by decide⟩ 0 = .ok (r, db)
        ∧ (db.routes.lookup (.ofNat 1)).map RouteRow.hostname
          = some "app.deployments.localhost" := ⟨_, _, rfl, rfl⟩
  obtain ⟨row, hlookup, hhostname⟩ := Option.map_eq_some_iff.mp hrow
  have hr : ServiceReachable sampleSettings.publicRouteService ⟨db, []⟩ :=
    ⟨sampleStart, ⟨rfl, rfl, rfl⟩, .tail .refl (.set _ _ _ _ _ _ hset)⟩
  obtain ⟨hvalid, hne, -⟩ :=
    (stored_hostnames_canonical fromEnvironment_sample hr).1 _ row hlookup _ (.inl rfl)
  exact ⟨_, row, hr, hlookup, hhostname, hvalid, hne⟩

end RouteHistory

end Heimdall
