import Heimdall.Errors
import Heimdall.Text.Names
import Heimdall.Text.Uuid

/-!
# The text of the edge routes

`renderEdgeRoutes` turns the served routes into the nginx file of the edge. It sorts by host name,
so the text depends on the routes alone and not on the order they come in (`renderEdgeRoutes_perm`),
and it rejects anything that would not be a plain name, so the text has no carriage return
(`renderEdgeRoutes_noCarriageReturn`) and reading it back as text changes nothing.
-/

namespace Heimdall

/-- A route of the edge: a host name and the gateway that serves it. -/
structure EdgeRouteTarget where
  projectId : Uuid
  hostname : String
  gatewayAlias : String
deriving DecidableEq

def maxRoutes : ℕ := 1000

def maxConfigBytes : ℕ := 1048576

/-- `_NO_ROUTES_CONFIG`. -/
def noRoutesConfig : String := "# No active public project routes.\n"

def projectGatewayName (p : Uuid) : String := "hm-p" ++ p.hex12 ++ "-gateway"

def projectGatewayAlias (p : Uuid) : String := projectGatewayName p

/-- The section of one route. -/
def edgeSection (route : EdgeRouteTarget) : String :=
  let upstream := "hm_edge_p" ++ route.projectId.hex12
  String.intercalate "\n" [
    "upstream " ++ upstream ++ " \x7b",
    "    zone " ++ upstream ++ " 64k;",
    "    resolver 127.0.0.11 valid=10s ipv6=off;",
    "    server " ++ route.gatewayAlias ++ ":8080 resolve;",
    "\x7d",
    "",
    "server \x7b",
    "    listen 80;",
    "    server_name " ++ route.hostname ++ ";",
    "",
    "    location / \x7b",
    "        proxy_pass http://" ++ upstream ++ ";",
    "        proxy_http_version 1.1;",
    "        proxy_set_header Connection \"\";",
    "        proxy_set_header Host $host;",
    "        proxy_set_header X-Forwarded-For $remote_addr;",
    "        proxy_set_header X-Forwarded-Host $host;",
    "        proxy_set_header X-Forwarded-Proto $scheme;",
    "    \x7d",
    "\x7d",
    ""]

/-- `sorted(routes, key=lambda item: item.hostname)`. -/
def sortByHostname (routes : List EdgeRouteTarget) : List EdgeRouteTarget :=
  routes.insertionSort fun a b ↦ a.hostname ≤ b.hostname

/-- The names of a route are canonical. -/
def EdgeRouteTarget.valid (route : EdgeRouteTarget) : Bool :=
  isHostname route.hostname && isDockerName 127 route.gatewayAlias

/-- The loop over the sorted routes, with the host names seen so far. -/
def edgeSections (seen : List String) : List EdgeRouteTarget → Except Exc (List String)
  | [] => .ok []
  | route :: routes =>
    if !route.valid || seen.contains route.hostname then
      .error (.edgeRuntime { code := "EDGE_ROUTE_SNAPSHOT_INVALID" })
    else do
      let sections ← edgeSections (route.hostname :: seen) routes
      .ok (edgeSection route :: sections)

def renderEdgeRoutes (routes : List EdgeRouteTarget) : Except Exc String :=
  if routes.length > maxRoutes then
    .error (.edgeRuntime { code := "EDGE_ROUTE_LIMIT_EXCEEDED" })
  else do
    let sections ← edgeSections [] (sortByHostname routes)
    let rendered := String.intercalate "\n"
      ("# Generated by Heimdall Routing Worker. Do not edit.\n" :: sections)
    if rendered.utf8ByteSize > maxConfigBytes then
      .error (.edgeRuntime { code := "EDGE_ROUTE_CONFIG_TOO_LARGE" })
    else .ok rendered

/-! ## Order -/

theorem edgeSections_ok {seen : List String} {routes : List EdgeRouteTarget}
    {sections : List String} (h : edgeSections seen routes = .ok sections) :
    sections = routes.map edgeSection ∧ (∀ route ∈ routes, route.valid = true)
      ∧ (∀ route ∈ routes, route.hostname ∉ seen) ∧ (routes.map EdgeRouteTarget.hostname).Nodup := by
  induction routes generalizing seen sections with
  | nil =>
    cases h
    simp
  | cons route routes ih =>
    unfold edgeSections at h
    split at h
    · cases h
    · rename_i hcond
      simp only [Bool.or_eq_true, Bool.not_eq_true', List.contains_iff_mem, not_or,
        Bool.not_eq_false] at hcond
      cases hrest : edgeSections (route.hostname :: seen) routes with
      | error x => simp [hrest, bind, Except.bind] at h
      | ok rest =>
        simp only [hrest, bind, Except.bind, Except.ok.injEq] at h
        obtain ⟨rfl, hvalid, hseen, hnodup⟩ := ih hrest
        subst h
        refine ⟨rfl, ?_, ?_, ?_⟩
        · exact List.forall_mem_cons.mpr ⟨hcond.1, hvalid⟩
        · refine List.forall_mem_cons.mpr ⟨hcond.2, fun r hr hmem ↦ hseen r hr ?_⟩
          exact List.mem_cons_of_mem _ hmem
        · rw [List.map_cons, List.nodup_cons]
          refine ⟨fun hmem ↦ ?_, hnodup⟩
          obtain ⟨r, hr, heq⟩ := List.mem_map.mp hmem
          exact hseen r hr (heq ▸ List.mem_cons_self)

theorem edgeSections_of_valid {seen : List String} {routes : List EdgeRouteTarget}
    (hvalid : ∀ route ∈ routes, route.valid = true)
    (hseen : ∀ route ∈ routes, route.hostname ∉ seen)
    (hnodup : (routes.map EdgeRouteTarget.hostname).Nodup) :
    edgeSections seen routes = .ok (routes.map edgeSection) := by
  induction routes generalizing seen with
  | nil => rfl
  | cons route routes ih =>
    rw [List.map_cons, List.nodup_cons] at hnodup
    have hcond : ¬ ((!route.valid || seen.contains route.hostname) = true) := by
      simpa [hvalid route List.mem_cons_self] using hseen route List.mem_cons_self
    have hrest : edgeSections (route.hostname :: seen) routes = .ok (routes.map edgeSection) := by
      refine ih (fun r hr ↦ hvalid r (List.mem_cons_of_mem _ hr)) (fun r hr hmem ↦ ?_) hnodup.2
      rcases List.mem_cons.mp hmem with heq | hmem
      · exact hnodup.1 (heq ▸ List.mem_map_of_mem hr)
      · exact hseen r (List.mem_cons_of_mem _ hr) hmem
    rw [edgeSections, if_neg hcond, hrest]
    rfl

theorem sortByHostname_perm (routes : List EdgeRouteTarget) :
    (sortByHostname routes).Perm routes := List.perm_insertionSort _ routes

theorem sortByHostname_sorted (routes : List EdgeRouteTarget) :
    (sortByHostname routes).Pairwise fun a b ↦ a.hostname ≤ b.hostname := by
  have htotal : Std.Total fun a b : EdgeRouteTarget ↦ a.hostname ≤ b.hostname :=
    ⟨fun a b ↦ le_total a.hostname b.hostname⟩
  have htrans : IsTrans EdgeRouteTarget fun a b ↦ a.hostname ≤ b.hostname :=
    ⟨fun _ _ _ ↦ le_trans⟩
  exact List.pairwise_insertionSort _ routes

/-- Routes with distinct host names have one sorted order. -/
theorem sortByHostname_eq_of_perm {routes routes' : List EdgeRouteTarget}
    (h : routes.Perm routes') (hnodup : (routes.map EdgeRouteTarget.hostname).Nodup) :
    sortByHostname routes = sortByHostname routes' := by
  have hperm : (sortByHostname routes).Perm (sortByHostname routes') :=
    (sortByHostname_perm routes).trans (h.trans (sortByHostname_perm routes').symm)
  refine List.Perm.eq_of_pairwise ?_ (sortByHostname_sorted _) (sortByHostname_sorted _) hperm
  intro a b ha hb hab hba
  have ha' : a ∈ routes := (sortByHostname_perm routes).mem_iff.mp ha
  have hb' : b ∈ routes := h.mem_iff.mpr ((sortByHostname_perm routes').mem_iff.mp hb)
  exact List.inj_on_of_nodup_map hnodup ha' hb' (le_antisymm hab hba)

theorem renderEdgeRoutes_ok {routes : List EdgeRouteTarget} {text : String}
    (h : renderEdgeRoutes routes = .ok text) :
    routes.length ≤ maxRoutes
      ∧ edgeSections [] (sortByHostname routes) = .ok ((sortByHostname routes).map edgeSection)
      ∧ text = String.intercalate "\n" ("# Generated by Heimdall Routing Worker. Do not edit.\n"
          :: (sortByHostname routes).map edgeSection)
      ∧ text.utf8ByteSize ≤ maxConfigBytes := by
  unfold renderEdgeRoutes at h
  split at h
  · cases h
  · rename_i hlen
    cases hsections : edgeSections [] (sortByHostname routes) with
    | error x => simp [hsections, bind, Except.bind] at h
    | ok sections =>
      simp only [hsections, bind, Except.bind] at h
      split at h
      · cases h
      · rename_i hsize
        cases h
        obtain ⟨rfl, -⟩ := edgeSections_ok hsections
        exact ⟨Nat.le_of_not_lt hlen, rfl, rfl, Nat.le_of_not_lt hsize⟩

/-- Routes with canonical names and distinct host names are never an invalid snapshot. -/
theorem renderEdgeRoutes_of_valid {routes : List EdgeRouteTarget}
    (hvalid : ∀ route ∈ routes, route.valid = true)
    (hnodup : (routes.map EdgeRouteTarget.hostname).Nodup) :
    renderEdgeRoutes routes
      = if routes.length > maxRoutes then
          .error (.edgeRuntime { code := "EDGE_ROUTE_LIMIT_EXCEEDED" })
        else
          let rendered := String.intercalate "\n"
            ("# Generated by Heimdall Routing Worker. Do not edit.\n"
              :: (sortByHostname routes).map edgeSection)
          if rendered.utf8ByteSize > maxConfigBytes then
            .error (.edgeRuntime { code := "EDGE_ROUTE_CONFIG_TOO_LARGE" })
          else .ok rendered := by
  have hsections : edgeSections [] (sortByHostname routes)
      = .ok ((sortByHostname routes).map edgeSection) := by
    refine edgeSections_of_valid (fun r hr ↦ hvalid r ?_) (by simp) ?_
    · exact (sortByHostname_perm routes).mem_iff.mp hr
    · exact ((sortByHostname_perm routes).map _).nodup_iff.mpr hnodup
  rw [renderEdgeRoutes, hsections]
  rfl

theorem renderEdgeRoutes_nodup {routes : List EdgeRouteTarget} {text : String}
    (h : renderEdgeRoutes routes = .ok text) : (routes.map EdgeRouteTarget.hostname).Nodup := by
  obtain ⟨-, hsections, -⟩ := renderEdgeRoutes_ok h
  obtain ⟨-, -, -, hnodup⟩ := edgeSections_ok hsections
  exact ((sortByHostname_perm routes).map _).nodup_iff.mp hnodup

/-- **The text does not depend on the order of the routes.** -/
theorem renderEdgeRoutes_perm {routes routes' : List EdgeRouteTarget} {text : String}
    (h : routes.Perm routes') (hok : renderEdgeRoutes routes = .ok text) :
    renderEdgeRoutes routes' = .ok text := by
  have hsort := sortByHostname_eq_of_perm h (renderEdgeRoutes_nodup hok)
  rw [renderEdgeRoutes] at hok ⊢
  rw [← h.length_eq, ← hsort]
  exact hok

/-! ## Carriage returns -/

/-- The text has no carriage return. -/
def NoCarriageReturn (s : String) : Prop := '\r' ∉ s.toList

instance (s : String) : Decidable (NoCarriageReturn s) :=
  inferInstanceAs (Decidable ('\r' ∉ s.toList))

@[simp] theorem noCarriageReturn_append {s t : String} :
    NoCarriageReturn (s ++ t) ↔ NoCarriageReturn s ∧ NoCarriageReturn t := by
  simp [NoCarriageReturn]

theorem noCarriageReturn_intercalate {sep : String} {texts : List String}
    (hsep : NoCarriageReturn sep) (h : ∀ t ∈ texts, NoCarriageReturn t) :
    NoCarriageReturn (String.intercalate sep texts) := by
  induction texts with
  | nil => exact (by decide : NoCarriageReturn "")
  | cons t texts ih =>
    obtain ⟨ht, hrest⟩ := List.forall_mem_cons.mp h
    cases texts with
    | nil =>
      rw [String.intercalate_singleton]
      exact ht
    | cons t' texts =>
      rw [String.intercalate_cons_cons]
      simp only [noCarriageReturn_append]
      exact ⟨⟨ht, hsep⟩, ih hrest⟩

theorem uuid_noCarriageReturn (u : Uuid) : NoCarriageReturn u.hex12 := by
  intro hmem
  simp only [Uuid.hex12, String.toList_ofList, Uuid.chars] at hmem
  obtain ⟨d, -, hd⟩ := List.mem_map.mp (List.mem_of_mem_take hmem)
  have key : ∀ d : Fin 16, Uuid.digitChar d ≠ '\r' := by decide
  exact key d hd

theorem mem_splitOn (sep : Char) {c : Char} {cs : List Char} (h : c ∈ cs) :
    c = sep ∨ ∃ part ∈ cs.splitOn sep, c ∈ part := by
  have hjoin : ∀ parts : List (List Char), c ∈ [sep].intercalate parts →
      c = sep ∨ ∃ part ∈ parts, c ∈ part := by
    intro parts
    induction parts with
    | nil => simp
    | cons part parts ih =>
      cases parts with
      | nil =>
        simp only [List.intercalate_singleton, List.mem_singleton, exists_eq_left]
        exact .inr
      | cons part' parts =>
        intro hmem
        rw [List.intercalate_cons_cons, List.mem_append, List.mem_append] at hmem
        rcases hmem with (hpart | hsep) | hrest
        · exact .inr ⟨part, List.mem_cons_self, hpart⟩
        · exact .inl (List.mem_singleton.mp hsep)
        · rcases ih hrest with rfl | ⟨p, hp, hc⟩
          · exact .inl rfl
          · exact .inr ⟨p, List.mem_cons_of_mem _ hp, hc⟩
  have hcs : [sep].intercalate (cs.splitOn sep) = cs := List.intercalate_splitOn sep
  exact hjoin _ (hcs.symm ▸ h)

theorem isHostname_noCarriageReturn {s : String} (h : isHostname s = true) :
    NoCarriageReturn s := by
  intro hmem
  simp only [isHostname, Bool.and_eq_true, List.all_eq_true] at h
  rcases mem_splitOn '.' hmem with hdot | ⟨label, hlabel, hc⟩
  · exact absurd hdot (by decide)
  · have hall := h.2 label hlabel
    simp only [isLabel, Bool.and_eq_true, List.all_eq_true] at hall
    exact absurd (hall.1.1.2 _ hc) (by decide)

theorem isDockerName_noCarriageReturn {bound : ℕ} {s : String} (h : isDockerName bound s = true) :
    NoCarriageReturn s := by
  intro hmem
  unfold isDockerName at h
  split at h
  · rename_i hnil
    exact absurd (hnil ▸ hmem) List.not_mem_nil
  · rename_i c cs hcons
    simp only [Bool.and_eq_true, List.all_eq_true] at h
    rcases List.mem_cons.mp (hcons ▸ hmem) with rfl | hmem
    · exact absurd h.1.1 (by decide)
    · exact absurd (h.1.2 _ hmem) (by decide)

theorem edgeSection_noCarriageReturn {route : EdgeRouteTarget} (h : route.valid = true) :
    NoCarriageReturn (edgeSection route) := by
  simp only [EdgeRouteTarget.valid, Bool.and_eq_true] at h
  have hhost := isHostname_noCarriageReturn h.1
  have halias := isDockerName_noCarriageReturn h.2
  have hid := uuid_noCarriageReturn route.projectId
  unfold edgeSection
  refine noCarriageReturn_intercalate (by decide) ?_
  simp only [List.forall_mem_cons, noCarriageReturn_append, hhost, halias, hid, and_true]
  decide

theorem renderEdgeRoutes_noCarriageReturn {routes : List EdgeRouteTarget} {text : String}
    (h : renderEdgeRoutes routes = .ok text) : NoCarriageReturn text := by
  obtain ⟨-, hsections, rfl, -⟩ := renderEdgeRoutes_ok h
  obtain ⟨-, hvalid, -⟩ := edgeSections_ok hsections
  refine noCarriageReturn_intercalate (by decide) fun t ht ↦ ?_
  rcases List.mem_cons.mp ht with rfl | ht
  · decide
  · obtain ⟨route, hroute, rfl⟩ := List.mem_map.mp ht
    exact edgeSection_noCarriageReturn (hvalid route hroute)

theorem renderEdgeRoutes_bounded {routes : List EdgeRouteTarget} {text : String}
    (h : renderEdgeRoutes routes = .ok text) : text.utf8ByteSize ≤ maxConfigBytes :=
  (renderEdgeRoutes_ok h).2.2.2

end Heimdall
