import Heimdall.Runtime.ReconciliationRows
import Heimdall.Sessions

/-!
# The gate of a deletion

From the request of a deletion on, a project takes no new work: its status stays as it is until its
row is gone, and every transaction that would open work for it looks at the status under the lock of
the project (`DatabaseCall.exec_opens`). So once the work under way has ended nothing of it comes back
(`Database.Quiet`): a worker takes only what waits, and under a claim only what is claimed is changed.
-/

namespace Heimdall

open Effect

namespace Database

/-- There is nothing left of a project. -/
structure Gone (db : Database) (p : Uuid) : Prop where
  status : db.statuses p = none
  deployments : ∀ d row, db.deployments.lookup d = some row → row.projectId ≠ p
  route : db.routes.lookup p = none
  resource : db.databaseResources.lookup p = none

/-- The project is being deleted, or it has been. -/
def Closed (db : Database) (p : Uuid) : Prop := db.statuses p = some .deleting ∨ db.Gone p

/-- No deployment of the project is under way and no reconciliation of it waits for a worker or has
one. -/
structure Quiet (db : Database) (p : Uuid) : Prop where
  deployments : ∀ d row, db.deployments.lookup d = some row → row.projectId = p →
    row.status.isTerminal = true
  jobs : ∀ d row job, db.deployments.lookup d = some row → row.projectId = p →
    db.deploymentJobs.lookup d = some job → job.state ≠ .claimed
  reconciliations : ∀ d row reconciliation, db.deployments.lookup d = some row →
    row.projectId = p → db.reconciliations.lookup d = some reconciliation →
    reconciliation.state ≠ .pending ∧ reconciliation.state ≠ .claimed

variable {db db' : Database} {p : Uuid}

theorem quiet_of_drained (h : db.deletionOperationsDrained p = true) : db.Quiet p := by
  simp only [deletionOperationsDrained, Bool.and_eq_true, List.all_eq_true] at h
  obtain ⟨⟨hdeployments, -⟩, hreconciliations⟩ := h
  have hover (d : Uuid) (row : Deployment) (hrow : db.deployments.lookup d = some row)
      (hp : row.projectId = p) : db.underWay d row = false := by
    simpa [hp] using hdeployments ⟨d, row⟩ (AList.mem_lookup_iff.mp hrow)
  constructor
  · intro d row hrow hp
    have hover := hover d row hrow hp
    simp only [underWay, Bool.or_eq_false_iff, Bool.not_eq_false'] at hover
    exact hover.1
  · intro d row job hrow hp hjob
    have hover := hover d row hrow hp
    simp only [underWay, Bool.or_eq_false_iff, hjob, Option.any_some, beq_eq_false_iff_ne] at hover
    exact hover.2
  · intro d row reconciliation hrow hp hreconciliation
    have hover := hreconciliations ⟨d, reconciliation⟩ (AList.mem_lookup_iff.mp hreconciliation)
    simpa [hrow, hp] using hover

/-- A project that is closed is none that a transaction found open. -/
theorem Closed.not_open (h : db.Closed p) (hstatus : db.statuses p ≠ some .deleting)
    (hthere : ¬ db.Gone p) : False := h.elim hstatus hthere

end Database

/-! ## Transactions that open work -/

namespace RouteDb

variable {db db' : RouteDb} {p : Uuid} {now : Time} {r : PublicRoute}

theorem lockProjectMutation_ok (h : db.lockProjectMutation p = .ok ()) :
    db.projects p ≠ some .deleting := by
  unfold lockProjectMutation at h
  split at h
  · cases h
  · assumption

/-- A route is enabled only while the project is there and not being deleted. -/
theorem setEnabled_live {subdomain hostname : String}
    (h : db.setEnabled p subdomain hostname now = .ok (r, db')) :
    db.projects p ≠ some .deleting
      ∧ ((db.projects p).isSome = true ∨ ∃ row, db.routes.lookup p = some row) := by
  have h := asConflict_ok h
  obtain ⟨⟨⟩, hlock, h⟩ := bind_eq_ok h
  obtain ⟨⟨⟩, -, h⟩ := bind_eq_ok h
  refine ⟨lockProjectMutation_ok hlock, ?_⟩
  split at h
  · obtain ⟨db₁, hroute, h⟩ := bind_eq_ok h
    unfold insertRoute at hroute
    split at hroute
    · cases hroute
    · next hproject => exact .inl (by simpa [Option.isSome_iff_ne_none] using hproject)
  · next row hrow => exact .inr ⟨row, hrow⟩

theorem disable_live (h : db.disable p now = .ok (r, db')) :
    db.projects p ≠ some .deleting ∧ ∃ row, db.routes.lookup p = some row := by
  obtain ⟨⟨⟩, hlock, h⟩ := bind_eq_ok h
  refine ⟨lockProjectMutation_ok hlock, ?_⟩
  split at h
  · cases h
  · next row hrow => exact ⟨row, hrow⟩

end RouteDb

namespace DatabaseCall

open Database

variable {now : ℕ → Time} {db db' : Database} {call : DatabaseCall} {p : Uuid}

/-- The call opens work for a project: it creates a deployment, changes the settings, switches the
route, requests a reconciliation or a database. -/
def opens (db : Database) (p : Uuid) : DatabaseCall → Prop
  | .updateSettings q _ _ _ => q = p
  | .deployment (.create _ request) _ => request.projectId = p
  | .route (.setEnabled q _ _ _) | .route (.disable q _) => q = p
  | .reconciliation (.request d _ _) => p ∈ projectOf db d
  | .resource (.ensureIntent q _) => q = p
  | _ => False

theorem mem_projectOf {d : Uuid} : p ∈ projectOf db d
    ↔ ∃ row, db.deployments.lookup d = some row ∧ row.projectId = p := by
  simp [projectOf]

/-- The status of the project of a deployment, as the reconciliations see it. -/
theorem projectStatus_eq {d : Uuid} {row : Deployment} (hrow : db.deployments.lookup d = some row) :
    (db.reconciliationDb db.statuses).projectStatus d = db.statuses row.projectId := by
  simp [ReconciliationDb.projectStatus, reconciliationDb, hrow]

/-- **The gate.** What opens work for a project commits only while the project is there and not being
deleted. -/
theorem exec_opens (h : call.exec db.statuses now db = .ok db') (ho : call.opens db p) :
    db.statuses p ≠ some .deleting ∧ ¬ db.Gone p := by
  have hthere (hsome : (db.statuses p).isSome = true) : ¬ db.Gone p := fun hgone ↦ by
    rw [hgone.status] at hsome
    cases hsome
  unfold opens at ho
  split at ho
  · next q expectedVersion config secrets =>
    subst ho
    obtain ⟨r, hr, -⟩ := map_eq_ok h
    obtain ⟨old, row, hold, hrow, -, -, -⟩ := ProjectDb.updateSettings_row hr
    have hstatus : db.statuses q = some old.status := by rw [statuses, hold]; rfl
    rw [hstatus]
    exact ⟨fun heq ↦ hrow.live (Option.some.inj heq), hthere (by rw [hstatus]; rfl)⟩
  · next d request eventId =>
    subst ho
    obtain ⟨r, hr, -⟩ := map_eq_ok h
    obtain ⟨r', hr, -⟩ := map_eq_ok hr
    obtain ⟨hlive, hsome, -⟩ := DeploymentDb.create_row hr
    exact ⟨hlive, hthere hsome⟩
  · next q subdomain hostname at_ =>
    subst ho
    obtain ⟨r, hr, -⟩ := map_eq_ok h
    obtain ⟨r', hr, -⟩ := map_eq_ok hr
    obtain ⟨hlive, hsome | ⟨row, hrow⟩⟩ := RouteDb.setEnabled_live hr
    · exact ⟨hlive, hthere hsome⟩
    · exact ⟨hlive, fun hgone ↦ by cases hgone.route.symm.trans hrow⟩
  · next q at_ =>
    subst ho
    obtain ⟨r, hr, -⟩ := map_eq_ok h
    obtain ⟨r', hr, -⟩ := map_eq_ok hr
    obtain ⟨hlive, row, hrow⟩ := RouteDb.disable_live hr
    exact ⟨hlive, fun hgone ↦ by cases hgone.route.symm.trans hrow⟩
  · next d action requestedBy =>
    obtain ⟨row, hrow, rfl⟩ := mem_projectOf.mp ho
    obtain ⟨r, hr, -⟩ := map_eq_ok h
    obtain ⟨⟨r', view⟩, hr, -⟩ := map_eq_ok hr
    cases ReconciliationCall.request_ok hr with
    | request hlive =>
      exact ⟨projectStatus_eq hrow ▸ hlive, fun hgone ↦ hgone.deployments d row hrow rfl⟩
    | move hclaim => cases hclaim
  · next q id =>
    subst ho
    obtain ⟨r, hr, -⟩ := map_eq_ok h
    obtain ⟨hlive, ⟨-, hrow⟩ | ⟨-, hsome, -⟩⟩ := ResourceDb.ensureIntent_ok hr
    · refine ⟨hlive, fun hgone ↦ ?_⟩
      have hnone : (db.resourceDb db.statuses).resources.lookup q = none := hgone.resource
      rw [ResourceDb.getForProject, hnone] at hrow
      cases hrow
    · exact ⟨hlive, hthere hsome⟩
  · exact ho.elim

end DatabaseCall

/-! ## What a transaction does to a closed project -/

namespace Database

variable {db : Database} {p : Uuid}

/-- Only a deletion deletes, and then everything of its project. -/
theorem eraseProject_gone (db : Database) (p : Uuid) : (db.eraseProject p).Gone p := by
  constructor
  · simp [statuses, eraseProject]
  · intro d row hrow hp
    rw [eraseProject, lookup_eraseWhere] at hrow
    split_ifs at hrow with hmine
    rw [hrow] at hmine
    exact hmine (by simpa using hp)
  · exact AList.lookup_erase _ _
  · exact AList.lookup_erase _ _

theorem lookup_eraseProject {q d : Uuid} {row : Deployment} (hq : q ≠ p) :
    (db.eraseProject q).deployments.lookup d = some row ∧ row.projectId = p
      ↔ db.deployments.lookup d = some row ∧ row.projectId = p := by
  rw [eraseProject, lookup_eraseWhere]
  split_ifs with hmine
  · simp only [false_and, false_iff, not_and]
    rintro hrow rfl
    rw [hrow] at hmine
    exact hq (Eq.symm (by simpa using hmine))
  · rfl

theorem Quiet.eraseProject (hquiet : db.Quiet p) (q : Uuid) : (db.eraseProject q).Quiet p := by
  by_cases hq : q = p
  · subst hq
    have hnone := (eraseProject_gone db q).deployments
    exact ⟨fun d row hrow hp ↦ absurd hp (hnone d row hrow),
      fun d row _ hrow hp ↦ absurd hp (hnone d row hrow),
      fun d row _ hrow hp ↦ absurd hp (hnone d row hrow)⟩
  · constructor
    · intro d row hrow hp
      obtain ⟨hrow, -⟩ := (lookup_eraseProject hq).mp ⟨hrow, hp⟩
      exact hquiet.deployments d row hrow hp
    · intro d row job hrow hp hjob
      obtain ⟨hrow, -⟩ := (lookup_eraseProject hq).mp ⟨hrow, hp⟩
      rw [Database.eraseProject, lookup_eraseWhere] at hjob
      split_ifs at hjob
      exact hquiet.jobs d row job hrow hp hjob
    · intro d row reconciliation hrow hp hlookup
      obtain ⟨hrow, -⟩ := (lookup_eraseProject hq).mp ⟨hrow, hp⟩
      rw [Database.eraseProject, lookup_eraseWhere] at hlookup
      split_ifs at hlookup
      exact hquiet.reconciliations d row reconciliation hrow hp hlookup

end Database

namespace DatabaseCall

open Database

variable {now : ℕ → Time} {db db' : Database} {call : DatabaseCall} {p : Uuid}

/-- What is left of a deployment of a closed project: the row it had, still ended if it had ended, and
then a job that nobody has claimed is the one it had. -/
theorem deployment_closed (hconsistent : (db.deploymentDb db.statuses).Consistent)
    (hp : db.Closed p) {call : DeploymentCall} {eventId : ℕ}
    {r : Option DeploymentJobClaim × DeploymentDb}
    (h : call.exec eventId (now 0) (db.deploymentDb db.statuses) = .ok r) {d : Uuid}
    {row : Deployment} (hrow : r.2.deployments.lookup d = some row) (hproject : row.projectId = p) :
    ∃ old, db.deployments.lookup d = some old ∧ old.projectId = p
      ∧ (old.status.isTerminal = true → (∀ job, db.deploymentJobs.lookup d = some job →
        job.state ≠ .claimed) → row.status.isTerminal = true
          ∧ r.2.jobs.lookup d = db.deploymentJobs.lookup d) := by
  -- a row that is not written is still there
  have hkept {e : Uuid} {new : Deployment} {job : DeploymentJobRow} {events : List DeploymentEvent}
      (hw : (db.deploymentDb db.statuses).Writes r.2 e new job events)
      (hwritten : d = e → new.projectId = p → ∃ old, db.deployments.lookup e = some old
        ∧ old.projectId = p ∧ (old.status.isTerminal = true → (∀ job,
          db.deploymentJobs.lookup e = some job → job.state ≠ .claimed) →
          new.status.isTerminal = true ∧ db.deploymentJobs.lookup e = some job)) :
      ∃ old, db.deployments.lookup d = some old ∧ old.projectId = p
        ∧ (old.status.isTerminal = true → (∀ job, db.deploymentJobs.lookup d = some job →
          job.state ≠ .claimed) → row.status.isTerminal = true
            ∧ r.2.jobs.lookup d = db.deploymentJobs.lookup d) := by
    rw [hw.deployments] at hrow
    rw [hw.jobs]
    split_ifs at hrow ⊢ with hd
    · subst hd
      obtain rfl := Option.some.inj hrow
      obtain ⟨old, hold, hsame, hrest⟩ := hwritten rfl hproject
      refine ⟨old, hold, hsame, fun hended hfree ↦ ?_⟩
      obtain ⟨hended', hjob⟩ := hrest hended hfree
      exact ⟨hended', hjob.symm⟩
    · exact ⟨row, hrow, hproject, fun hended _ ↦ ⟨hended, rfl⟩⟩
  obtain ⟨claim, view⟩ := r
  cases DeploymentCall.exec_ok hconsistent h with
  | idle heq =>
    dsimp only at hrow heq ⊢
    rw [heq] at hrow ⊢
    exact ⟨row, hrow, hproject, fun hended _ ↦ ⟨hended, rfl⟩⟩
  | @create id request new job hc =>
    refine hkept hc.writes fun _ hnew ↦ ?_
    obtain ⟨r', hr, heq⟩ := map_eq_ok h
    obtain ⟨hlive, hsome, hdeployments, hrequest, -⟩ := DeploymentDb.create_row hr
    obtain rfl := (Prod.mk.inj heq).2
    have hinserted := hc.writes.deployments id
    rw [if_pos rfl, hdeployments, AList.lookup_insert] at hinserted
    rw [← Option.some.inj hinserted, hrequest] at hnew
    refine (hp.not_open (hnew ▸ hlive) fun hgone ↦ ?_).elim
    rw [show (db.deploymentDb db.statuses).projects request.projectId = none from
      hnew ▸ hgone.status] at hsome
    cases hsome
  | claimNext hc =>
    refine hkept hc.writes fun _ hnew ↦ ⟨_, hc.found, hc.frozen.project ▸ hnew, fun hended ↦ ?_⟩
    rw [hc.processing] at hended
    cases hended
  | work _ hc =>
    refine hkept hc.writes fun _ hnew ↦ ⟨_, hc.found, hc.frozen.project ▸ hnew, fun _ hfree ↦ ?_⟩
    exact absurd (DeploymentDb.holdsClaim_iff.mp hc.held).1 (hfree _ hc.foundJob)
  | reconcile _ hc =>
    exact hkept hc.writes fun _ hnew ↦ ⟨_, hc.found, hc.frozen.project ▸ hnew, fun _ _ ↦
      ⟨hc.ended, hc.foundJob⟩⟩

/-- What is left of a reconciliation of a closed project on which nobody works. -/
theorem reconciliation_closed (hp : db.Closed p) (hquiet : db.Quiet p) {call : ReconciliationCall}
    {r : Option RuntimeReconciliationClaim × ReconciliationDb}
    (h : call.exec (now 0) (db.reconciliationDb db.statuses) = .ok r) {d : Uuid} {row : Deployment}
    (hrow : db.deployments.lookup d = some row) (hproject : row.projectId = p) :
    r.2.reconciliations.lookup d = db.reconciliations.lookup d := by
  have hlive (hlive : (db.reconciliationDb db.statuses).projectStatus d ≠ some .deleting) : False :=
    hp.not_open (hproject ▸ projectStatus_eq hrow ▸ hlive)
      fun hgone ↦ hgone.deployments d row hrow hproject
  have hover := hquiet.reconciliations d row
  obtain ⟨claim, view⟩ := r
  cases ReconciliationCall.exec_ok h with
  | idle => rfl
  | @request e action requestedBy new hopen =>
    by_cases he : d = e
    · exact (hlive (he ▸ hopen)).elim
    · exact AList.lookup_insert_ne he
  | schedule hframe hrows =>
    rcases hrows d with hsame | ⟨-, -, hopen, -⟩
    · exact hsame
    · exact (hlive hopen).elim
  | @claimNext workerId duration token locked claim e old new hold hdue =>
    by_cases he : d = e
    · subst he
      obtain ⟨hpending, hclaimed⟩ := hover old hrow hproject hold
      simp [ReconciliationDb.claimable, hpending, hclaimed] at hdue
    · exact AList.lookup_insert_ne he
  | @move call claim old new hclaim hold hheld =>
    by_cases he : d = claim.reconciliation.deploymentId
    · subst he
      exact absurd (ReconciliationDb.holdsClaim_iff.mp hheld).1
        (hover old hrow hproject hold).2
    · exact AList.lookup_insert_ne he

/-- A route appears only while its project is there. -/
theorem route_gone (hgone : db.Gone p) {call : RouteCall}
    {claim : Option PublicRouteJobClaim} {view : RouteDb}
    (h : call.exec now (db.routeDb db.statuses) = .ok (claim, view)) : view.routes.lookup p = none := by
  have hkept {q : Uuid} {row old : RouteRow} {job : JobRow}
      (hw : (db.routeDb db.statuses).Writes view q row job)
      (hold : (db.routeDb db.statuses).routes.lookup q = some old) : view.routes.lookup p = none := by
    rw [hw.routes]
    split_ifs with hq
    · exact nomatch (hq ▸ hgone.route).symm.trans hold
    · exact hgone.route
  have hrequest {q : Uuid} (hc : (db.routeDb db.statuses).RequestCommit view q)
      (hne : q = p → view = db.routeDb db.statuses) : view.routes.lookup p = none := by
    rcases hc with rfl | ⟨row, job, hw, -⟩
    · exact hgone.route
    · by_cases hq : q = p
      · rw [hne hq]
        exact hgone.route
      · rw [hw.routes, if_neg (Ne.symm hq)]
        exact hgone.route
  cases call with
  | setEnabled q subdomain hostname at_ =>
    obtain ⟨⟨r, db₁⟩, hr, heq⟩ := map_eq_ok h
    obtain rfl := (Prod.mk.inj heq).2
    refine hrequest (RouteDb.setEnabled_ok hr) ?_
    rintro rfl
    obtain ⟨-, hsome | ⟨row, hrow⟩⟩ := RouteDb.setEnabled_live hr
    · exact nomatch (congrArg Option.isSome hgone.status).symm.trans hsome
    · exact nomatch hgone.route.symm.trans hrow
  | disable q at_ =>
    obtain ⟨⟨r, db₁⟩, hr, heq⟩ := map_eq_ok h
    obtain rfl := (Prod.mk.inj heq).2
    refine hrequest (RouteDb.disable_ok hr) ?_
    rintro rfl
    obtain ⟨-, row, hrow⟩ := RouteDb.disable_live hr
    exact nomatch hgone.route.symm.trans hrow
  | disableForDeletion q at_ =>
    obtain ⟨⟨r, db₁⟩, hr, heq⟩ := map_eq_ok h
    obtain rfl := (Prod.mk.inj heq).2
    refine hrequest (RouteDb.disableForDeletion_ok hr) ?_
    rintro rfl
    unfold RouteDb.disableForDeletion at hr
    rw [if_pos (by rw [show (db.routeDb db.statuses).projects q = none from hgone.status]; simp)] at hr
    cases hr
  | claimNext workerId d token locked =>
    have hc := RouteDb.claimNext_ok h
    cases claim with
    | none => exact (congrArg (·.routes.lookup p) hc).trans hgone.route
    | some claim =>
      obtain ⟨-, -, old, row, job, hold, -, -, -, -, -, -, -, -, hw⟩ := hc
      exact hkept hw hold
  | renew claim d =>
    obtain ⟨⟨r, db₁⟩, hr, heq⟩ := map_eq_ok h
    obtain rfl := (Prod.mk.inj heq).2
    obtain ⟨job, row, -, hrow, -, -, -, hw⟩ := RouteDb.renew_ok hr
    exact hkept hw hrow
  | complete claim =>
    obtain ⟨⟨r, db₁⟩, hr, heq⟩ := map_eq_ok h
    obtain rfl := (Prod.mk.inj heq).2
    obtain ⟨job, row, -, hrow, -, -, hw⟩ := (RouteDb.complete_ok hr).exists_rows
    exact hkept hw hrow
  | retry claim availableAt code | deferNotReady claim availableAt code =>
    obtain ⟨⟨r, db₁⟩, hr, heq⟩ := map_eq_ok h
    obtain rfl := (Prod.mk.inj heq).2
    obtain ⟨job, row, -, hrow, -, -, hw⟩ := (RouteDb.reschedule_ok hr).exists_rows
    exact hkept hw hrow
  | fail claim code uncertain =>
    obtain ⟨⟨r, db₁⟩, hr, heq⟩ := map_eq_ok h
    obtain rfl := (Prod.mk.inj heq).2
    obtain ⟨job, row, -, hrow, -, -, hw⟩ := (RouteDb.fail_ok hr).exists_rows
    exact hkept hw hrow
  | wakePending q =>
    obtain ⟨db₁, hr, heq⟩ := map_eq_ok h
    obtain rfl := (Prod.mk.inj heq).2
    rcases RouteDb.wakePending_ok hr with rfl | ⟨job, row, -, hrow, -, -, hw⟩
    · exact hgone.route
    · exact hkept hw hrow

/-- A managed database is requested only while its project is there. -/
theorem resource_gone (hgone : db.Gone p) {call : ResourceCall} {r : ProjectDatabaseResource}
    {view : ResourceDb} (h : call.exec (now 0) (db.resourceDb db.statuses) = .ok (r, view)) :
    view.resources.lookup p = none := by
  have hupdate {r₁ r₂ : ProjectDatabaseResource} {set : ProjectDatabaseRow → ProjectDatabaseRow}
      (h : (db.resourceDb db.statuses).update r₁ (now 0) set = .ok (r₂, view)) :
      view.resources.lookup p = none := by
    obtain ⟨row, hrow, -, -, -, -, rfl⟩ := ResourceDb.update_ok h
    rw [lookup_insert']
    split_ifs with hp
    · exact nomatch (hp ▸ hgone.resource).symm.trans hrow
    · exact hgone.resource
  cases call with
  | ensureIntent q id =>
    obtain ⟨-, ⟨rfl, -⟩ | ⟨-, hsome, -, -, rfl⟩⟩ := ResourceDb.ensureIntent_ok h
    · exact hgone.resource
    · refine (AList.lookup_insert_ne ?_).trans hgone.resource
      rintro rfl
      exact nomatch (congrArg Option.isSome hgone.status).symm.trans hsome
  | beginRetry => exact hupdate h
  | recordSecret => exact hupdate h
  | advance => exact hupdate h
  | markFailed => exact hupdate h

theorem Commits.gone (h : call.Commits db.statuses now db db')
    (hconsistent : (db.deploymentDb db.statuses).Consistent) (hgone : db.Gone p)
    (hfresh : p ∉ call.draws) : db'.Gone p := by
  have hnone (h : (db.statuses p).isSome = true) : False := by
    rw [hgone.status] at h
    cases h
  have hstatus : db'.statuses p = none := by
    rcases h.statuses p with hsame | ⟨name, repositoryUrl, rfl, -⟩ | ⟨-, -, -, -, hsome, -⟩
      | ⟨-, -, hsome, -⟩ | ⟨claim, rfl, hp, hdeleting, -⟩
    · exact hsame.trans hgone.status
    · exact absurd (List.mem_singleton.mpr rfl) hfresh
    · exact (hnone hsome).elim
    · exact (hnone hsome).elim
    · exact (hnone (by rw [hdeleting]; rfl)).elim
  cases h with
  | deployment h =>
    refine ⟨hstatus, fun d row hrow hp ↦ ?_, hgone.route, hgone.resource⟩
    obtain ⟨old, hold, hsame, -⟩ := deployment_closed hconsistent (.inr hgone) h hrow hp
    exact hgone.deployments d old hold hsame
  | route h => exact ⟨hstatus, hgone.deployments, route_gone hgone h, hgone.resource⟩
  | resource h => exact ⟨hstatus, hgone.deployments, hgone.route, resource_gone hgone h⟩
  | deletion h =>
    cases h with
    | @request q c job hproject =>
      unfold markDeleting at hstatus ⊢
      split at hstatus <;> exact ⟨hstatus, hgone.deployments, hgone.route, hgone.resource⟩
    | @finalize claim =>
      have hne : p ≠ claim.job.projectId := by
        rintro rfl
        exact hnone (by simp_all)
      refine ⟨hstatus, fun d row hrow hp ↦ ?_, ?_, ?_⟩
      · exact hgone.deployments d row ((lookup_eraseProject hne.symm).mp ⟨hrow, hp⟩).1 hp
      · exact (AList.lookup_erase_ne hne).trans hgone.route
      · exact (AList.lookup_erase_ne hne).trans hgone.resource
    | _ => exact ⟨hstatus, hgone.deployments, hgone.route, hgone.resource⟩
  | _ => exact ⟨hstatus, hgone.deployments, hgone.route, hgone.resource⟩

theorem Commits.closed (h : call.Commits db.statuses now db db')
    (hconsistent : (db.deploymentDb db.statuses).Consistent) (hp : db.Closed p)
    (hfresh : p ∉ call.draws) : db'.Closed p := by
  rcases hp with hdeleting | hgone
  · rcases h.statuses p with hsame | ⟨name, repositoryUrl, rfl, hnone, -⟩
      | ⟨-, -, -, -, -, hlive, -⟩ | ⟨-, -, -, -, hdeleting'⟩ | ⟨claim, rfl, -, -, rfl⟩
    · exact .inl (hsame.trans hdeleting)
    · exact absurd (List.mem_singleton.mpr rfl) hfresh
    · exact absurd hdeleting hlive
    · exact .inl hdeleting'
    · exact .inr (eraseProject_gone db p)
  · exact .inr (h.gone hconsistent hgone hfresh)

theorem Commits.quiet (h : call.Commits db.statuses now db db')
    (hconsistent : (db.deploymentDb db.statuses).Consistent) (hp : db.Closed p)
    (hquiet : db.Quiet p) : db'.Quiet p := by
  cases h with
  | @deployment call eventId claim view h =>
    have hrest {d : Uuid} {row : Deployment} (hrow : view.deployments.lookup d = some row)
        (hproject : row.projectId = p) : ∃ old, db.deployments.lookup d = some old
          ∧ old.projectId = p ∧ row.status.isTerminal = true
          ∧ view.jobs.lookup d = db.deploymentJobs.lookup d := by
      obtain ⟨old, hold, hsame, hrest⟩ := deployment_closed hconsistent hp h hrow hproject
      exact ⟨old, hold, hsame, hrest (hquiet.deployments d old hold hsame) fun job hjob ↦
        hquiet.jobs d old job hold hsame hjob⟩
    constructor
    · intro d row hrow hproject
      obtain ⟨-, -, -, hended, -⟩ := hrest hrow hproject
      exact hended
    · intro d row job hrow hproject hjob
      obtain ⟨old, hold, hsame, -, hjobs⟩ := hrest hrow hproject
      exact hquiet.jobs d old job hold hsame (hjobs.symm.trans hjob)
    · intro d row reconciliation hrow hproject hlookup
      obtain ⟨old, hold, hsame, -⟩ := hrest hrow hproject
      exact hquiet.reconciliations d old reconciliation hold hsame hlookup
  | reconciliation h =>
    refine ⟨hquiet.deployments, hquiet.jobs, fun d row reconciliation hrow hproject hlookup ↦ ?_⟩
    have hsame := reconciliation_closed hp hquiet h hrow hproject
    exact hquiet.reconciliations d row reconciliation hrow hproject (hsame ▸ hlookup)
  | deletion h =>
    cases h with
    | @request q c job hproject =>
      unfold markDeleting
      split <;> exact ⟨hquiet.deployments, hquiet.jobs, hquiet.reconciliations⟩
    | @finalize claim => exact hquiet.eraseProject claim.job.projectId
    | _ => exact ⟨hquiet.deployments, hquiet.jobs, hquiet.reconciliations⟩
  | _ => exact ⟨hquiet.deployments, hquiet.jobs, hquiet.reconciliations⟩

end DatabaseCall

/-! ## Runs -/

/-- What holds of the database in every run. -/
structure DatabaseHistory.Sane (h : DatabaseHistory) : Prop where
  created : ∀ p, (h.db.statuses p).isSome = true → p ∈ h.created
  consistent : (h.db.deploymentDb h.db.statuses).Consistent

namespace DatabaseHistory

variable {allowed : DatabaseCall → Prop} {h h' : DatabaseHistory} {p : Uuid}

theorem Sane.start : DatabaseHistory.start.Sane := by
  refine ⟨fun p hp ↦ (nomatch hp), ?_, fun d ↦ ?_, ?_, ?_⟩
  · exact fun d row hrow ↦ nomatch hrow
  · exact ⟨fun ⟨_, hrow⟩ ↦ (nomatch hrow), fun ⟨_, hjob⟩ ↦ (nomatch hjob)⟩
  · exact fun d row job hrow ↦ nomatch hrow
  · exact fun d e a b ha ↦ nomatch ha

theorem Sane.commit (hs : h.Sane) {call : DatabaseCall}
    (hc : DatabaseCommit h.db.statuses call h h') : h'.Sane := by
  obtain ⟨now, hcommits⟩ := hc.commits
  refine ⟨fun p hp ↦ ?_, hcommits.consistent hs.consistent⟩
  rw [hc.created, List.mem_append]
  rcases hcommits.statuses p with hsame | ⟨name, repositoryUrl, rfl, -⟩ | ⟨-, -, -, -, hsome, -⟩
    | ⟨-, -, -, hsome, -⟩ | ⟨claim, -, -, -, heq⟩
  · exact .inr (hs.created p (hsame ▸ hp))
  · exact .inl (List.mem_singleton.mpr rfl)
  · exact .inr (hs.created p hsome)
  · exact .inr (hs.created p hsome)
  · rw [heq, (Database.eraseProject_gone h.db p).status] at hp
    cases hp

theorem Sane.steps (hs : h.Sane) (hsteps : Relation.ReflTransGen (Step allowed) h h') : h'.Sane := by
  induction hsteps with
  | refl => exact hs
  | tail _ hstep ih =>
    obtain ⟨call, -, hc⟩ := hstep
    exact ih.commit hc

/-- A project that is closed stays closed, and quiet if it was quiet. -/
theorem steps_closed (hs : h.Sane) (hsteps : Relation.ReflTransGen (Step allowed) h h')
    (hcreated : p ∈ h.created) (hp : h.db.Closed p) :
    p ∈ h'.created ∧ h'.db.Closed p ∧ (h.db.Quiet p → h'.db.Quiet p) := by
  induction hsteps with
  | refl => exact ⟨hcreated, hp, id⟩
  | tail hrest hstep ih =>
    obtain ⟨hcreated, hp, hquiet⟩ := ih
    obtain ⟨call, -, hc⟩ := hstep
    obtain ⟨now, hcommits⟩ := hc.commits
    have hconsistent := (hs.steps hrest).consistent
    refine ⟨?_, hcommits.closed hconsistent hp fun hdrawn ↦ hc.fresh p hdrawn hcreated, fun hq ↦
      hcommits.quiet hconsistent hp (hquiet hq)⟩
    rw [hc.created]
    exact List.mem_append_right _ hcreated

end DatabaseHistory

/-- The scheduler adds no reconciliation of a closed project. -/
theorem DatabaseCall.schedule_closed {now : ℕ → Time} {db db' : Database} {p d : Uuid}
    {candidates : List (Uuid × Time)} (hp : db.Closed p)
    (h : DatabaseCall.exec db.statuses now db (.reconciliation (.scheduleAutomatic candidates))
      = .ok db') (hd : p ∈ projectOf db d) :
    db'.reconciliations.lookup d = db.reconciliations.lookup d := by
  obtain ⟨row, hrow, rfl⟩ := mem_projectOf.mp hd
  obtain ⟨⟨claim, view⟩, hr, rfl⟩ := map_eq_ok h
  cases ReconciliationCall.exec_ok hr with
  | schedule hframe hrows =>
    rcases hrows d with hsame | ⟨-, -, hlive, -⟩
    · exact hsame
    · exact (hp.not_open (projectStatus_eq hrow ▸ hlive) fun hgone ↦
        hgone.deployments d row hrow rfl).elim
  | move hclaim => cases hclaim

/-- A transaction of the program commits. -/
abbrev Sessions.Commit (call : DatabaseCall) (L L' : Sessions) : Prop :=
  Locked.Commit (databaseStore fun _ ↦ True) call L L'

/-- **The gate of a deletion.** Whatever transactions run side by side, a project that is being
deleted stays so until its row is gone; from then on no transaction commits that would open work for
it, and the scheduler adds no reconciliation of it; and once its operations were drained, no deployment
of it is under way and none of its reconciliations waits for a worker or has one. -/
theorem deletion_gate {L L' : Sessions} (hr : Sessions.Reachable (fun _ ↦ True) L)
    (hs : Relation.ReflTransGen (Sessions.Step fun _ ↦ True) L L') {p : Uuid}
    (hp : L.state.db.statuses p = some .deleting) :
    (L'.state.db.statuses p = some .deleting ∨ L'.state.db.statuses p = none)
      ∧ (∀ call L'', Sessions.Commit call L' L'' → ¬ call.opens L'.state.db p)
      ∧ (∀ candidates L'', Sessions.Commit (.reconciliation (.scheduleAutomatic candidates)) L' L'' →
        ∀ d, p ∈ DatabaseCall.projectOf L'.state.db d →
          L''.state.db.reconciliations.lookup d = L'.state.db.reconciliations.lookup d)
      ∧ (L.state.db.deletionOperationsDrained p = true → L'.state.db.Quiet p) := by
  have hsane : L.state.Sane := DatabaseHistory.Sane.start.steps hr.history
  have hcreated : p ∈ L.state.created := hsane.created p (by rw [hp]; rfl)
  obtain ⟨-, hclosed, hquiet⟩ := DatabaseHistory.steps_closed hsane
    (Sessions.steps_history hr.faithful hs) hcreated (.inl hp)
  have hatomic {call : DatabaseCall} {L'' : Sessions} (hc : Sessions.Commit call L' L'') :
      ∃ now, call.exec L'.state.db.statuses now L'.state.db = .ok L''.state.db :=
    (hc.atomic (hr.faithful.steps hs)).2.exec
  refine ⟨?_, fun call L'' hc ho ↦ ?_, fun candidates L'' hc d hd ↦ ?_, fun hdrained ↦
    hquiet (Database.quiet_of_drained hdrained)⟩
  · exact hclosed.imp_right fun hgone ↦ hgone.status
  · obtain ⟨now, hexec⟩ := hatomic hc
    obtain ⟨hlive, hthere⟩ := DatabaseCall.exec_opens hexec ho
    exact hclosed.not_open hlive hthere
  · obtain ⟨now, hexec⟩ := hatomic hc
    exact DatabaseCall.schedule_closed hclosed hexec hd

/-- The project of `sampleDeletion` is closed and quiet. -/
theorem deletion_gate_sample : (sampleDeletion.db.statuses (.ofNat 1) = some .deleting
      ∨ sampleDeletion.db.statuses (.ofNat 1) = none)
    ∧ (∀ call L'', Sessions.Commit call ⟨sampleDeletion, []⟩ L'' →
      ¬ call.opens sampleDeletion.db (.ofNat 1))
    ∧ sampleDeletion.db.Quiet (.ofNat 1) := by
  have hgate := deletion_gate reachable_sampleDeletion .refl (p := .ofNat 1) rfl
  exact ⟨hgate.1, hgate.2.1, hgate.2.2.2 rfl⟩

end Heimdall
