import Heimdall.Effect.Embed
import Heimdall.Effect.Pool
import Heimdall.Projects.Settings

/-!
# Histories of settings

What stands in the document of a project and what stands in the rows of its secrets is written by two
statements. Here any number of updates run at once, over any projects, and each of their operations may
fail; a commit may even be lost on its way back. Projects are created, marked and erased beside them.

An update commits only what it has resolved (`SettingsMade`), and of such a document and its rows it is
known that they have the same secrets under the same names. So they agree in every state that is
reached (`settings_agree`), and the lock of the project has no part in it.
-/

namespace Heimdall

open Effect

/-- The names of a secret entry within its project. -/
def SecretEntry.names (e : SecretEntry) : String × String := (e.serviceName, e.variableName)

/-- The entry of a secret under its own names. -/
def ProjectEnvironmentSecret.entry (s : ProjectEnvironmentSecret) : SecretEntry :=
  .of s.serviceName s.variableName s

/-- The entry that a row stands for. -/
def EnvironmentSecretRow.entry (key : SecretKey) (row : EnvironmentSecretRow) : SecretEntry where
  serviceName := key.2.1
  variableName := key.2.2
  secretReference := row.secretReference
  secretVersion := row.secretVersion
  secretFingerprint := row.secretFingerprint

theorem ProjectDb.EnvironmentSecretRow.Of.entry {row : EnvironmentSecretRow}
    {s : ProjectEnvironmentSecret} (h : EnvironmentSecretRow.Of row s) : row.entry s.key = s.entry := by
  obtain ⟨hreference, hversion, hfingerprint⟩ := h
  rw [EnvironmentSecretRow.entry, hreference, hversion, hfingerprint]
  rfl

namespace ProjectDb

/-- The secret entries of the document of a project. -/
def entries (db : ProjectDb) (p : Uuid) : List SecretEntry :=
  match (db.projects.lookup p).bind ProjectRow.deploymentConfig with
  | some config => secretEntries config
  | none => []

/-- The document of a project and its rows have the same secrets, each under one name. -/
structure Agrees (db : ProjectDb) (p : Uuid) : Prop where
  nodup : ((db.entries p).map SecretEntry.names).Nodup
  row : ∀ e ∈ db.entries p, ∃ row,
    db.environmentSecrets.lookup (p, e.names) = some row ∧ row.entry (p, e.names) = e
  entry : ∀ names row, db.environmentSecrets.lookup (p, names) = some row →
    row.entry (p, names) ∈ db.entries p

variable {db db' : ProjectDb} {p : Uuid}

theorem entries_eq (h : (db'.projects.lookup p).map (fun row ↦ (row.configVersion, row.deploymentConfig))
    = (db.projects.lookup p).map fun row ↦ (row.configVersion, row.deploymentConfig)) :
    db'.entries p = db.entries p := by
  have hconfig := congrArg (fun o ↦ o.bind (Prod.snd (α := ℕ))) h
  simp only [Option.bind_map] at hconfig
  rw [entries, entries]
  exact congrArg (fun config : Option Json.Value ↦ match config with
    | some config => secretEntries config
    | none => []) hconfig

theorem Agrees.congr (h : db.Agrees p) (hentries : db'.entries p = db.entries p)
    (hrows : ∀ names, db'.environmentSecrets.lookup (p, names)
      = db.environmentSecrets.lookup (p, names)) : db'.Agrees p := by
  constructor
  · rw [hentries]
    exact h.nodup
  · intro e he
    rw [hrows]
    exact h.row e (hentries ▸ he)
  · intro names row hrow
    rw [hentries]
    exact h.entry names row (hrows names ▸ hrow)

theorem Agrees.of_none (hentries : db.entries p = [])
    (hrows : ∀ names, db.environmentSecrets.lookup (p, names) = none) : db.Agrees p := by
  constructor
  · rw [hentries]
    exact List.nodup_nil
  · intro e he
    rw [hentries] at he
    cases he
  · intro names row hrow
    rw [hrows] at hrow
    cases hrow

end ProjectDb

/-! ## What is resolved -/

theorem ProjectSettingsUpdate.environment_nodup (request : ProjectSettingsUpdate)
    {config : ServiceConfig} (hconfig : config ∈ request.services) :
    (config.environment.map EnvironmentVariableInput.name).Nodup :=
  (ServiceConfig.isValid_cases (ProjectSettingsUpdate.service_isValid hconfig)).2.2

section Resolved

variable {p : Uuid} {n : String} {vs : List EnvironmentVariableInput} {es : List EnvironmentEntry}

/-- The secrets of a service have the names of its variables, each once. -/
theorem nodup_entries (h : List.Forall₂ (EnvironmentEntry.Belongs p n) vs es)
    (hnames : (vs.map EnvironmentVariableInput.name).Nodup) :
    ((es.filterMap (EnvironmentEntry.entry? n)).map SecretEntry.names).Nodup
      ∧ ∀ e ∈ es.filterMap (EnvironmentEntry.entry? n),
        e.serviceName = n ∧ e.variableName ∈ vs.map EnvironmentVariableInput.name := by
  induction h with
  | nil => exact ⟨List.nodup_nil, fun e he ↦ by cases he⟩
  | @cons v e vs es hve _ ih =>
    obtain ⟨hv, hnames⟩ := List.nodup_cons.mp hnames
    obtain ⟨hnodup, hmem⟩ := ih hnames
    cases e with
    | plain name value =>
      refine ⟨hnodup, fun e he ↦ ⟨(hmem e he).1, List.mem_cons_of_mem _ (hmem e he).2⟩⟩
    | secret name s =>
      obtain ⟨rfl, -, -⟩ := hve
      constructor
      · refine List.nodup_cons.mpr ⟨fun hin ↦ ?_, hnodup⟩
        obtain ⟨e, he, heq⟩ := List.mem_map.mp hin
        have hname : e.variableName = v.name := (Prod.mk.inj heq).2
        exact hv (hname ▸ (hmem e he).2)
      · intro e he
        rcases List.mem_cons.mp he with rfl | he
        · exact ⟨rfl, List.mem_cons_self⟩
        · exact ⟨(hmem e he).1, List.mem_cons_of_mem _ (hmem e he).2⟩

/-- An entry is the entry of the secret it is made of. -/
theorem entries_of_secrets (h : List.Forall₂ (EnvironmentEntry.Belongs p n) vs es) :
    es.filterMap (EnvironmentEntry.entry? n)
      = (es.filterMap EnvironmentEntry.secret?).map ProjectEnvironmentSecret.entry := by
  induction h with
  | nil => rfl
  | @cons v e vs es hve _ ih =>
    cases e with
    | plain name value => exact ih
    | secret name s =>
      obtain ⟨rfl, -, hkey⟩ := hve
      have hservice : s.serviceName = n := congrArg (·.2.1) hkey
      have hvariable : s.variableName = v.name := congrArg (·.2.2) hkey
      have hentry : SecretEntry.of n v.name s = s.entry := by
        rw [ProjectEnvironmentSecret.entry, hservice, hvariable]
      exact congrArg₂ List.cons hentry ih

end Resolved

namespace ResolvesTo

variable {p : Uuid} {request : ProjectSettingsUpdate} {services : List ResolvedService}

theorem names_eq (h : ResolvesTo p request services) :
    services.map (·.config.name) = request.services.map ServiceConfig.name := by
  unfold ResolvesTo at h
  generalize request.services = configs at h
  induction h with
  | nil => rfl
  | cons hs _ ih => exact congrArg₂ List.cons (congrArg ServiceConfig.name hs.1) ih

theorem projectId_eq (h : ResolvesTo p request services) {s : ProjectEnvironmentSecret}
    (hs : s ∈ environmentSecrets services) : s.projectId = p := by
  obtain ⟨service, hservice, hs⟩ := List.mem_flatMap.mp hs
  obtain ⟨e, he, hsome⟩ := List.mem_filterMap.mp hs
  obtain ⟨config, -, hbelongs⟩ := exists_of_mem_right h hservice
  cases e with
  | plain name value => cases hsome
  | secret name s' =>
    obtain rfl := Option.some.inj hsome
    exact congrArg Prod.fst (mem_secrets hbelongs he).1

/-- The document has the entries of the rows. -/
theorem secretEntries_eq (h : ResolvesTo p request services) (routes : List RouteConfig) :
    secretEntries (deploymentConfig services routes)
      = (environmentSecrets services).map ProjectEnvironmentSecret.entry := by
  rw [secretEntries_deploymentConfig, environmentSecrets, List.map_flatMap]
  refine List.flatMap_congr fun service hservice ↦ ?_
  obtain ⟨config, -, rfl, hentries⟩ := exists_of_mem_right h hservice
  exact entries_of_secrets hentries

/-- No two secrets of a request have the same names. -/
theorem nodup_names (h : ResolvesTo p request services) (routes : List RouteConfig) :
    ((secretEntries (deploymentConfig services routes)).map SecretEntry.names).Nodup := by
  rw [secretEntries_deploymentConfig, List.map_flatMap, List.nodup_flatMap]
  have hentries (service : ResolvedService) (hservice : service ∈ services) :=
    exists_of_mem_right h hservice
  constructor
  · intro service hservice
    obtain ⟨config, hconfig, rfl, hbelongs⟩ := hentries service hservice
    exact (nodup_entries hbelongs (request.environment_nodup hconfig)).1
  · have hnodup : (services.map (·.config.name)).Nodup := h.names_eq ▸ request.names_nodup
    -- entries of different services differ in the name of the service
    refine (List.pairwise_map.mp hnodup).imp_of_mem fun {a b} ha hb hne x hxa hxb ↦ hne ?_
    obtain ⟨config, hconfig, rfl, hbelongs⟩ := hentries a ha
    obtain ⟨config', hconfig', rfl, hbelongs'⟩ := hentries b hb
    obtain ⟨e, he, rfl⟩ := List.mem_map.mp hxa
    obtain ⟨e', he', heq⟩ := List.mem_map.mp hxb
    have hname := ((nodup_entries hbelongs (request.environment_nodup hconfig)).2 e he).1
    have hname' := ((nodup_entries hbelongs' (request.environment_nodup hconfig')).2 e' he').1
    rw [← hname, ← hname']
    exact (congrArg Prod.fst heq).symm

theorem nodup_keys (h : ResolvesTo p request services) :
    ((environmentSecrets services).map ProjectEnvironmentSecret.key).Nodup := by
  have hnames := h.nodup_names []
  rw [h.secretEntries_eq, List.map_map] at hnames
  refine List.Nodup.of_map Prod.snd ?_
  rw [List.map_map]
  exact hnames

end ResolvesTo

/-- What an update may commit: a document and rows that are made of the same services. -/
def SettingsMade (p : Uuid) (config : Json.Value) (secrets : List ProjectEnvironmentSecret) : Prop :=
  ∃ request services, ResolvesTo p request services
    ∧ config = deploymentConfig services request.routes ∧ secrets = environmentSecrets services

/-- A commit of such a document and such rows leaves the project in agreement. -/
theorem SettingsMade.agrees {db db' : ProjectDb} {p : Uuid} {old row : ProjectRow}
    {config : Json.Value} {secrets : List ProjectEnvironmentSecret} (h : SettingsMade p config secrets)
    (hcommit : ProjectDb.SettingsCommit db db' p old row config secrets) : db'.Agrees p := by
  obtain ⟨request, services, hresolves, rfl, rfl⟩ := h
  have hentries : db'.entries p = (environmentSecrets services).map ProjectEnvironmentSecret.entry := by
    rw [ProjectDb.entries, hcommit.projects, AList.lookup_insert, Option.bind_some, hcommit.config]
    exact hresolves.secretEntries_eq _
  have hkey (s : ProjectEnvironmentSecret) (hs : s ∈ environmentSecrets services) :
      (p, s.entry.names) = s.key := by
    rw [← hresolves.projectId_eq hs]
    rfl
  constructor
  · rw [hentries, ← hresolves.secretEntries_eq request.routes]
    exact hresolves.nodup_names _
  · intro e he
    rw [hentries] at he
    obtain ⟨s, hs, rfl⟩ := List.mem_map.mp he
    obtain ⟨secretRow, hrow, hof⟩ := hcommit.stored s hs
    rw [hkey s hs]
    exact ⟨secretRow, hrow, hof.entry⟩
  · intro names secretRow hrow
    rw [hentries]
    by_cases hmem : (p, names) ∈ (environmentSecrets services).map ProjectEnvironmentSecret.key
    · obtain ⟨s, hs, heq⟩ := List.mem_map.mp hmem
      obtain ⟨secretRow', hrow', hof⟩ := hcommit.stored s hs
      rw [heq, hrow] at hrow'
      obtain rfl := Option.some.inj hrow'
      rw [← heq, hof.entry]
      exact List.mem_map_of_mem hs
    · rw [hcommit.deleted (p, names) rfl hmem] at hrow
      cases hrow

/-! ## Updates among others -/

/-- What an operation of an update does to the tables. The secret store and the locks answer anything;
any operation may raise, and a commit may raise although it has been made. -/
inductive SettingsReact (db : ProjectDb) : (o : SettingsOp) → Except Exc o.Ans → ProjectDb → Prop
  | raise (o : SettingsOp) (x : Exc) : SettingsReact db o (.error x) db
  | get {p : Uuid} {project : Project} (h : db.get p = .ok project) :
    SettingsReact db (.get p) (.ok project) db
  | getEnvironmentSecret (p : Uuid) (serviceName variableName : String) :
    SettingsReact db (.getEnvironmentSecret p serviceName variableName)
      (.ok (db.getEnvironmentSecret p serviceName variableName)) db
  | updateSettings {p : Uuid} {expectedVersion : ℕ} {config : Json.Value}
    {secrets : List ProjectEnvironmentSecret} {now : Time} {project : Project} {db' : ProjectDb}
    (h : db.updateSettings p expectedVersion config secrets now = .ok (project, db'))
    (r : Except Exc Project) (hr : r = .ok project ∨ ∃ x, r = .error x) :
    SettingsReact db (.updateSettings p expectedVersion config secrets) r db'
  | lock (p : Uuid) : SettingsReact db (.lock p) (.ok ()) db
  | unlock (p : Uuid) : SettingsReact db (.unlock p) (.ok ()) db
  | now (t : Time) : SettingsReact db .now (.ok t) db
  | secret (o : SecretOp) (a : o.Ans) : SettingsReact db (.secret o) (.ok a) db

/-- What happens to the tables beside the updates, when only some projects may be erased. -/
inductive SettingsOther (erasable : Set Uuid) (db : ProjectDb) : ProjectDb → Prop
  | create {id : Uuid} {name repositoryUrl : String} {now : Time} {project : Project}
    {db' : ProjectDb} (h : db.create id name repositoryUrl now = .ok (project, db')) :
    SettingsOther erasable db db'
  /-- A status, or the database of a project: the documents, their versions and the secrets stay. -/
  | keep {db' : ProjectDb} (hsecrets : db'.environmentSecrets = db.environmentSecrets)
    (hconfig : ∀ p, (db'.projects.lookup p).map (fun row ↦ (row.configVersion, row.deploymentConfig))
      = (db.projects.lookup p).map fun row ↦ (row.configVersion, row.deploymentConfig)) :
    SettingsOther erasable db db'
  /-- A project is erased. -/
  | erase {db' : ProjectDb} (p : Uuid) (hp : p ∈ erasable) (hprojects : db'.projects = db.projects.erase p)
    (hsecrets : ∀ key, db'.environmentSecrets.lookup key
      = if key.1 = p then none else db.environmentSecrets.lookup key) : SettingsOther erasable db db'

/-- Updates under names, for any services, projects and requests. -/
def settingsRules (erasable : Set Uuid) :
    Pool.Rules ℕ ProjectDb SettingsOp SettingsOp.Ans Exc Project where
  step _ := SettingsReact
  spawn _ program := ∃ (service : ProjectService) (p : Uuid) (request : ProjectSettingsUpdate),
    program = service.updateSettings p request
  die _ db db' := db' = db
  other := SettingsOther erasable

def SettingsGuar (_ : ProjectDb) : (o : SettingsOp) → Except Exc o.Ans → ProjectDb → Prop
  | .updateSettings p _ config secrets, _, _ => SettingsMade p config secrets
  | _, _, _ => True

def settingsProof : Pool.Proof ℕ ProjectDb SettingsOp SettingsOp.Ans Exc where
  inv db := ∀ p, db.Agrees p
  rely _ _ _ := True
  guar _ := SettingsGuar
  idle _ _ := True

theorem SettingsReact.agrees {db db' : ProjectDb} {o : SettingsOp} {a : Except Exc o.Ans}
    (hr : SettingsReact db o a db') (hguar : SettingsGuar db o a db') (hdb : ∀ p, db.Agrees p) :
    ∀ p, db'.Agrees p := by
  cases hr with
  | @updateSettings p expectedVersion config secrets now project db' h _ _ =>
    obtain ⟨request, services, hresolves, -, hsecrets⟩ := id hguar
    have hproject : ∀ s ∈ secrets, s.projectId = p := fun s hs ↦
      hresolves.projectId_eq (hsecrets ▸ hs)
    obtain ⟨old, row, -, -, hcommit⟩ :=
      ProjectDb.updateSettings_ok h (hsecrets ▸ hresolves.nodup_keys) hproject
    intro q
    by_cases hq : q = p
    · subst hq
      exact hguar.agrees hcommit
    · refine (hdb q).congr ?_ fun names ↦ hcommit.kept (q, names) hq
      rw [ProjectDb.entries, ProjectDb.entries, hcommit.projects, AList.lookup_insert_ne hq]
  | _ => exact hdb

theorem SettingsOther.agrees {erasable : Set Uuid} {db db' : ProjectDb} (h : SettingsOther erasable db db')
    (hdb : ∀ p, db.Agrees p) : ∀ p, db'.Agrees p := by
  intro q
  cases h with
  | @create id name repositoryUrl now project db' h =>
    obtain ⟨hfree, row, -, -, hconfig, rfl⟩ := ProjectDb.create_ok h
    refine (hdb q).congr ?_ fun _ ↦ rfl
    by_cases hq : q = id
    · subst hq
      rw [ProjectDb.entries, ProjectDb.entries, hfree, AList.lookup_insert, Option.bind_some, hconfig]
      rfl
    · rw [ProjectDb.entries, ProjectDb.entries, AList.lookup_insert_ne hq]
  | keep hsecrets hconfig =>
    refine (hdb q).congr ?_ fun _ ↦ by rw [hsecrets]
    rw [ProjectDb.entries_eq (hconfig q)]
  | erase p _ hprojects hsecrets =>
    by_cases hq : q = p
    · subst hq
      refine .of_none ?_ fun names ↦ by rw [hsecrets, if_pos rfl]
      rw [ProjectDb.entries, hprojects, AList.lookup_erase]
      rfl
    · refine (hdb q).congr ?_ fun names ↦ by rw [hsecrets, if_neg hq]
      rw [ProjectDb.entries, ProjectDb.entries, hprojects, AList.lookup_erase_ne hq]

/-! ## What an update commits -/

section Update

variable {i : ℕ} {db : ProjectDb} {p : Uuid} {service : ProjectService}

/-- The setting of an update. -/
abbrev settingsSetting (i : ℕ) : Setting ProjectDb SettingsOp SettingsOp.Ans Exc :=
  settingsProof.setting (settingsRules ∅) i

theorem wp_settingsOp (o : SettingsOp) (Q : Except Exc o.Ans → ProjectDb → Prop) :
    wp (settingsSetting i) (SettingsApi.op o) Q db
      = ∀ db₁, (settingsSetting i).rely db db₁ → ∀ r db₂, SettingsReact db₁ o r db₂ →
        SettingsGuar db₁ o r db₂ ∧ Q r db₂ :=
  wp_op o Q db

/-- A program that goes through a list, when each element is good for itself. -/
theorem wp_mapM_each {α β : Type} {f : α → SettingsApi β} {xs : List α} {Post : α → β → Prop}
    (hf : ∀ a ∈ xs, ∀ db', wp (settingsSetting i) (f a) (fun r _ ↦ ∀ b, r = .ok b → Post a b) db') :
    wp (settingsSetting i) (xs.mapM f) (fun r _ ↦ ∀ bs, r = .ok bs → List.Forall₂ Post xs bs) db := by
  have h := @wp_mapM ProjectDb SettingsOp SettingsOp.Ans Exc α β (settingsSetting i) f xs db db
    (fun _ _ ↦ True) (fun a b _ ↦ Post a b) (fun _ ↦ trivial) (fun _ _ _ _ _ ↦ trivial)
    (fun _ _ _ _ h _ ↦ h) (fun a ha db' _ ↦ wp_mono (hf a ha db') fun _ _ h ↦ ⟨trivial, h⟩) trivial
  exact wp_mono h fun _ _ hr ↦ hr.2

theorem wp_store {α : Type} (program : SecretProg α) :
    wp (settingsSetting i) (SettingsApi.store program) (fun _ _ ↦ True) db := by
  rw [SettingsApi.store]
  induction program generalizing db with
  | pure a => trivial
  | raise x => trivial
  | call o k ih => exact fun _ _ r _ _ ↦ ⟨trivial, ih (r.map fun a ↦ a)⟩

theorem wp_store_bind {α β : Type} {program : SecretProg α} {f : α → SettingsApi β}
    {Q : Except Exc β → ProjectDb → Prop} (hok : ∀ a db', wp (settingsSetting i) (f a) Q db')
    (herror : ∀ x db', Q (.error x) db') :
    wp (settingsSetting i) (SettingsApi.store program >>= f) Q db := by
  rw [wp_bind]
  refine wp_mono (wp_store program) fun r db' _ ↦ ?_
  cases r with
  | error x => exact herror x db'
  | ok a => exact hok a db'

theorem SettingsReact.environmentSecret {serviceName variableName : String} {db' : ProjectDb}
    {current : Option ProjectEnvironmentSecret}
    (h : SettingsReact db (.getEnvironmentSecret p serviceName variableName) (.ok current) db') :
    current = db.getEnvironmentSecret p serviceName variableName := by
  cases h
  rfl

theorem getEnvironmentSecret_key {serviceName variableName : String} {s : ProjectEnvironmentSecret}
    (h : db.getEnvironmentSecret p serviceName variableName = some s) :
    s.key = (p, serviceName, variableName) := by
  obtain ⟨row, -, rfl⟩ := Option.map_eq_some_iff.mp h
  rfl

theorem resolveVariable_wp (now : Time) (n : String) {v : EnvironmentVariableInput}
    (hv : v.isValid = true) : wp (settingsSetting i) (service.resolveVariable p now n v)
      (fun r _ ↦ ∀ e, r = .ok e → EnvironmentEntry.Belongs p n v e) db := by
  rw [ProjectService.resolveVariable]
  split
  · next hkind =>
    intro e he
    obtain rfl := Except.ok.inj he
    obtain ⟨value, hvalue⟩ := EnvironmentVariableInput.value_of_plain hv hkind
    exact ⟨rfl, hkind, by rw [hvalue]; rfl⟩
  · next hkind =>
    rw [wp_bind, wp_settingsOp]
    refine fun db₁ _ r db₂ hreact ↦ ⟨trivial, ?_⟩
    rcases r with x | current
    · intro e he
      cases he
    rw [andThen_ok]
    split
    · split
      · intro e he
        cases he
      · intro e he
        obtain rfl := Except.ok.inj he
        exact ⟨rfl, hkind, getEnvironmentSecret_key hreact.environmentSecret.symm⟩
    · split
      · intro e he
        cases he
      · extract_lets version
        -- whatever the store does, only the names of the row matter
        generalize FileSecretStore.create _ version _ = program
        refine wp_store_bind ?_ ?_
        · intro stored db₃ e he
          obtain rfl := Except.ok.inj he
          exact ⟨rfl, hkind, rfl⟩
        · intro x db₃ e he
          cases he

theorem resolveService_wp (now : Time) {config : ServiceConfig} (hconfig : config.isValid = true) :
    wp (settingsSetting i) (service.resolveService p now config)
      (fun r _ ↦ ∀ s, r = .ok s → ResolvedService.Belongs p config s) db := by
  rw [ProjectService.resolveService, wp_bind]
  have hvariables := (ServiceConfig.isValid_cases hconfig).2.1
  refine wp_mono (wp_mapM_each fun v hv db' ↦ resolveVariable_wp now config.name (hvariables v hv))
    fun r s hr ↦ ?_
  rcases r with x | es
  · intro s hs
    cases hs
  · intro s hs
    obtain rfl := Except.ok.inj hs
    exact ⟨rfl, hr es rfl⟩

theorem resolveConfiguration_wp (request : ProjectSettingsUpdate) :
    wp (settingsSetting i) (service.resolveConfiguration p request)
      (fun r _ ↦ ∀ a, r = .ok a → SettingsMade p a.1 a.2) db := by
  rw [ProjectService.resolveConfiguration, wp_bind, wp_settingsOp]
  refine fun db₁ _ r db₂ _ ↦ ⟨trivial, ?_⟩
  rcases r with x | now
  · intro a ha
    cases ha
  rw [andThen_ok, wp_bind]
  refine wp_mono (wp_mapM_each fun config hconfig db' ↦
    resolveService_wp now (ProjectSettingsUpdate.service_isValid hconfig)) fun r s hr ↦ ?_
  rcases r with x | services
  · intro a ha
    cases ha
  · intro a ha
    obtain rfl := Except.ok.inj ha
    exact ⟨request, services, hr services rfl, rfl, rfl⟩

theorem updateSettingsLocked_wp (request : ProjectSettingsUpdate) :
    wp (settingsSetting i) (service.updateSettingsLocked p request) (fun _ _ ↦ True) db := by
  rw [ProjectService.updateSettingsLocked, wp_bind, SettingsApi.project, wp_tryCatch, wp_settingsOp]
  refine fun db₁ _ r db₂ _ ↦ ⟨trivial, ?_⟩
  rcases r with x | current
  · rw [orElse_error]
    split <;> trivial
  rw [orElse_ok, andThen_ok]
  split
  · trivial
  split
  · trivial
  rw [wp_bind]
  refine wp_mono (resolveConfiguration_wp request) fun r db₃ hr ↦ ?_
  rcases r with x | ⟨config, secrets⟩
  · trivial
  · rw [andThen_ok, wp_settingsOp]
    exact fun _ _ r db₅ _ ↦ ⟨hr _ rfl, trivial⟩

/-- Whatever the answers are, an update commits only what it has resolved. -/
theorem updateSettings_wp (request : ProjectSettingsUpdate) :
    wp (settingsSetting i) (service.updateSettings p request) (fun _ _ ↦ True) db := by
  rw [ProjectService.updateSettings, wp_tryCatch]
  have hbody : wp (settingsSetting i)
      (if service.secretStore then do
        SettingsApi.op (.lock p)
        Prog.tryFinally (service.updateSettingsLocked p request) (SettingsApi.op (.unlock p))
      else service.updateSettingsLocked p request) (fun _ _ ↦ True) db := by
    split
    · rw [wp_bind, wp_settingsOp]
      refine fun db₁ _ r db₂ _ ↦ ⟨trivial, ?_⟩
      rcases r with x | ⟨⟩
      · trivial
      rw [andThen_ok, wp_tryFinally]
      refine wp_mono (updateSettingsLocked_wp request) fun r db₃ _ ↦ ?_
      rw [wp_settingsOp]
      refine fun db₄ _ r' db₅ _ ↦ ⟨trivial, ?_⟩
      rcases r' with x | ⟨⟩
      · trivial
      · rw [andThen_ok, wp_ofExcept]
        trivial
    · exact updateSettingsLocked_wp request
  refine wp_mono hbody fun r db' _ ↦ ?_
  cases r with
  | error x => rw [orElse_error]; trivial
  | ok project => rw [orElse_ok]; trivial

end Update

/-! ## Every state -/

variable {erasable : Set Uuid} {pool pool' : Pool ℕ ProjectDb SettingsOp SettingsOp.Ans Exc Project}

theorem settingsProof_valid : settingsProof.Valid (settingsRules erasable) where
  refl _ _ := trivial
  trans _ _ _ _ _ _ := trivial
  idle _ _ _ h _ := h
  spawn i program db hprogram _ _ := by
    obtain ⟨service, p, request, rfl⟩ := hprogram
    exact updateSettings_wp request
  run _ _ _ _ _ hdb hstep hguar := ⟨hstep.agrees hguar hdb, fun _ _ ↦ trivial⟩
  die _ db db' hdb hdie := by
    obtain rfl : db' = db := hdie
    exact ⟨hdb, trivial, fun _ _ ↦ trivial⟩
  other _ _ hdb hother := ⟨hother.agrees hdb, fun _ ↦ trivial⟩

/-- The pools of updates that are reached from empty tables. -/
def SettingsReachable (erasable : Set Uuid)
    (pool : Pool ℕ ProjectDb SettingsOp SettingsOp.Ans Exc Project) : Prop :=
  Relation.ReflTransGen (Pool.Step (settingsRules erasable)) ⟨.empty, []⟩ pool

theorem SettingsReachable.sound (hr : SettingsReachable erasable pool) :
    Pool.Sound settingsProof (settingsRules erasable) pool := by
  have hempty (p : Uuid) : ProjectDb.empty.Agrees p := .of_none rfl fun _ ↦ rfl
  exact (Pool.Sound.initial hempty fun _ ↦ trivial).steps settingsProof_valid hr

/-- **The two places agree**: in every state that any number of updates reach, the document of every
project and its rows have the same secrets. -/
theorem settings_agree (hr : SettingsReachable erasable pool) (p : Uuid) : pool.state.Agrees p :=
  hr.sound.inv p

/-! ## Versions -/

namespace ProjectDb

/-- Later the project has a higher version, or its document and all its secrets are what they were. -/
def Versioned (p : Uuid) (db db' : ProjectDb) : Prop :=
  ∀ row, db.projects.lookup p = some row → ∃ row', db'.projects.lookup p = some row'
    ∧ (row.configVersion < row'.configVersion
      ∨ row'.configVersion = row.configVersion ∧ row'.deploymentConfig = row.deploymentConfig
        ∧ ∀ names, db'.environmentSecrets.lookup (p, names)
          = db.environmentSecrets.lookup (p, names))

variable {db db' db'' : ProjectDb} {p : Uuid}

theorem Versioned.refl (p : Uuid) (db : ProjectDb) : Versioned p db db :=
  fun row hrow ↦ ⟨row, hrow, .inr ⟨rfl, rfl, fun _ ↦ rfl⟩⟩

theorem Versioned.trans (h : Versioned p db db') (h' : Versioned p db' db'') :
    Versioned p db db'' := by
  intro row hrow
  obtain ⟨row', hrow', hstep⟩ := h row hrow
  obtain ⟨row'', hrow'', hstep'⟩ := h' row' hrow'
  refine ⟨row'', hrow'', ?_⟩
  rcases hstep with hlt | ⟨hversion, hconfig, hrows⟩
  · refine .inl (hlt.trans_le ?_)
    rcases hstep' with hlt' | ⟨hversion', -, -⟩
    · exact hlt'.le
    · exact hversion'.ge
  · rcases hstep' with hlt' | ⟨hversion', hconfig', hrows'⟩
    · exact .inl (hversion ▸ hlt')
    · exact .inr ⟨hversion'.trans hversion, hconfig'.trans hconfig,
        fun names ↦ (hrows' names).trans (hrows names)⟩

/-- A transaction that leaves the row of the project and its secrets alone. -/
theorem Versioned.of_eq (hrow : db'.projects.lookup p = db.projects.lookup p)
    (hrows : ∀ names, db'.environmentSecrets.lookup (p, names)
      = db.environmentSecrets.lookup (p, names)) : Versioned p db db' :=
  fun row h ↦ ⟨row, hrow.trans h, .inr ⟨rfl, rfl, hrows⟩⟩

end ProjectDb

theorem SettingsReact.versioned {db db' : ProjectDb} {o : SettingsOp} {a : Except Exc o.Ans}
    (hr : SettingsReact db o a db') (hguar : SettingsGuar db o a db') (p : Uuid) :
    ProjectDb.Versioned p db db' := by
  cases hr with
  | @updateSettings q expectedVersion config secrets now project db' h _ _ =>
    obtain ⟨request, services, hresolves, -, hsecrets⟩ := id hguar
    have hproject : ∀ s ∈ secrets, s.projectId = q := fun s hs ↦
      hresolves.projectId_eq (hsecrets ▸ hs)
    obtain ⟨old, row', -, -, hcommit⟩ :=
      ProjectDb.updateSettings_ok h (hsecrets ▸ hresolves.nodup_keys) hproject
    by_cases hq : p = q
    · subst hq
      intro row hrow
      obtain rfl := Option.some.inj (hrow.symm.trans hcommit.found)
      refine ⟨row', by rw [hcommit.projects, AList.lookup_insert], .inl ?_⟩
      rw [hcommit.version]
      exact Nat.lt_succ_self _
    · refine .of_eq ?_ fun names ↦ hcommit.kept (p, names) hq
      rw [hcommit.projects, AList.lookup_insert_ne hq]
  | _ => exact .refl p db

theorem SettingsOther.versioned {db db' : ProjectDb} (h : SettingsOther erasable db db') {p : Uuid}
    (hp : p ∉ erasable) : ProjectDb.Versioned p db db' := by
  cases h with
  | @create id name repositoryUrl now project db' h =>
    obtain ⟨hfree, row', -, -, -, rfl⟩ := ProjectDb.create_ok h
    intro row hrow
    have hne : p ≠ id := by
      rintro rfl
      rw [hfree] at hrow
      cases hrow
    exact ⟨row, (AList.lookup_insert_ne hne).trans hrow, .inr ⟨rfl, rfl, fun _ ↦ rfl⟩⟩
  | keep hsecrets hconfig =>
    intro row hrow
    have hsome := hconfig p
    rw [hrow, Option.map_some] at hsome
    obtain ⟨row', hrow', heq⟩ := Option.map_eq_some_iff.mp hsome
    obtain ⟨hversion, hdocument⟩ := Prod.mk.inj heq
    exact ⟨row', hrow', .inr ⟨hversion, hdocument, fun _ ↦ by rw [hsecrets]⟩⟩
  | erase q hq hprojects hsecrets =>
    have hne : p ≠ q := fun heq ↦ hp (heq ▸ hq)
    refine .of_eq ?_ fun names ↦ by rw [hsecrets, if_neg hne]
    rw [hprojects, AList.lookup_erase_ne hne]

/-- **The version stands for the settings**: from a state that is reached to any later one, the version
of a project that is not erased never goes down, and while it stays the document and the secrets do. -/
theorem settings_versioned (hr : SettingsReachable erasable pool)
    (hs : Relation.ReflTransGen (Pool.Step (settingsRules erasable)) pool pool') {p : Uuid}
    (hp : p ∉ erasable) : ProjectDb.Versioned p pool.state pool'.state := by
  refine hr.sound.relates settingsProof_valid (ProjectDb.Versioned.refl p) (fun _ _ _ ↦ .trans)
    (fun i db o r db' _ hstep hguar ↦ hstep.versioned hguar p) (fun i db db' _ hdie ↦ ?_)
    (fun db db' _ hother ↦ hother.versioned hp) hs
  obtain rfl : db' = db := hdie
  exact .refl p _

/-! ## A run with one update -/

/-- A service without variables behind the root path. -/
def shopUpdate : ProjectSettingsUpdate where
  services := [{
    name := "api", build := ⟨".", "Dockerfile"⟩, internalPort := 8000,
    environment := [{ name := "MODE", value := some "on" }] }]
  routes := [⟨"/", "api"⟩]
  expectedVersion := 0
  valid := by decide

def shopRow : ProjectRow where
  name := "shop"
  repositoryUrl := "https://github.com/acme/shop"
  branch := "main"
  status := .draft
  configVersion := 0
  deploymentConfig := none
  createdAt := 0
  updatedAt := 0

/-- The document the update makes. -/
def shopDocument : Json.Value :=
  deploymentConfig (shopUpdate.services.map (⟨·, [.plain "MODE" "on"]⟩)) shopUpdate.routes

/-- The tables after the project has been created, and after the update has been committed. -/
def shopCreated : ProjectDb := { ProjectDb.empty with
  projects := ProjectDb.empty.projects.insert (.ofNat 1) shopRow }

def shopCommitted : ProjectDb := { shopCreated with
  projects := shopCreated.projects.insert (.ofNat 1) { shopRow with
    deploymentConfig := some shopDocument, configVersion := 1, status := .ready } }

theorem SettingsReact.pool_step {db db' : ProjectDb} {o : SettingsOp} {r : Except Exc o.Ans}
    (h : SettingsReact db o r db') (k : Except Exc o.Ans → SettingsApi Project) :
    Pool.Step (settingsRules ∅) ⟨db, [(0, .call o k)]⟩ ⟨db', [(0, k r)]⟩ :=
  .run db db' [] [] 0 o k r h

theorem shop_created : SettingsReachable ∅ ⟨shopCreated, []⟩ := by
  have hcreated : ProjectDb.empty.create (.ofNat 1) "shop" "https://github.com/acme/shop" 0
      = .ok ({ shopRow with id := .ofNat 1 }, shopCreated) := rfl
  exact .single (.other _ _ _ (.create hcreated))

theorem shop_committed : ∃ threads,
    Relation.ReflTransGen (Pool.Step (settingsRules ∅)) ⟨shopCreated, []⟩ ⟨shopCommitted, threads⟩ := by
  have hget : SettingsReact shopCreated (.get (.ofNat 1))
      (.ok { shopRow with id := .ofNat 1 }) shopCreated := .get rfl
  have hcommitted : shopCreated.updateSettings (.ofNat 1) 0 shopDocument [] 0
      = .ok ({ shopRow with
        id := .ofNat 1, deploymentConfig := some shopDocument, configVersion := 1
        status := .ready }, shopCommitted) := rfl
  -- the commit is made, and the connection is lost before the answer
  have hcommit : SettingsReact shopCreated (.updateSettings (.ofNat 1) 0 shopDocument [])
      (.error .database) shopCommitted := .updateSettings hcommitted _ (.inr ⟨_, rfl⟩)
  exact ⟨_, .head (.spawn _ _ 0
      ((⟨false⟩ : ProjectService).updateSettings (.ofNat 1) shopUpdate) (by simp) ⟨_, _, _, rfl⟩) <|
    .head (hget.pool_step _) <| .head ((SettingsReact.now 0).pool_step _) <|
    .head (hcommit.pool_step _) .refl⟩

theorem settings_agree_sample : shopCommitted.Agrees (.ofNat 1) := by
  obtain ⟨threads, hs⟩ := shop_committed
  exact settings_agree (shop_created.trans hs) _

theorem settings_versioned_sample : ProjectDb.Versioned (.ofNat 1) shopCreated shopCommitted := by
  obtain ⟨threads, hs⟩ := shop_committed
  exact settings_versioned shop_created hs (Set.notMem_empty _)

end Heimdall
