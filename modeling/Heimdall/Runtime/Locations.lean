import Heimdall.Edge.Reading
import Heimdall.Runtime.Gateway

/-!
# The locations of a gateway

nginx answers a request from the location that has its path exactly, or else from the one with the
longest prefix of it (`Selects`). A route becomes one location or two (`routeLocations`), which
`render_nginx_config` writes and nginx reads back (`read_renderNginxConfig`). The selected location
is one of the longest route that contains the path (`gateway_selects`).
-/

namespace Heimdall

open Nginx

/-! ## Selection -/

structure Location where
  exact : Bool
  path : String
  /-- What requests are passed to. -/
  pass : Option String
deriving DecidableEq

/-- What the arguments and the body of a block make of a location. -/
def locationOf : List String × List Directive → Option Location
  | (["=", path], body) => some ⟨true, path, (settings "proxy_pass" body).flatten.head?⟩
  | (["^~", path], body) | ([path], body) =>
    some ⟨false, path, (settings "proxy_pass" body).flatten.head?⟩
  | _ => none

/-- The locations of the servers of a configuration. -/
def serverLocations (config : List Directive) : List Location :=
  (blocks "server" config).flatMap fun server ↦ (blocks "location" server.2).filterMap locationOf

def Location.Prefix (l : Location) (path : String) : Prop :=
  l.exact = false ∧ l.path.toList <+: path.toList

def Location.Equals (l : Location) (path : String) : Prop := l.exact = true ∧ l.path = path

/-- `l` is selected for a path: it has the path exactly, or no location does and none has a longer
prefix of it. -/
def Selects (ls : List Location) (path : String) (l : Location) : Prop :=
  l ∈ ls ∧ (l.Equals path
    ∨ (∀ l' ∈ ls, ¬ l'.Equals path) ∧ l.Prefix path
      ∧ ∀ l' ∈ ls, l'.Prefix path → l'.path.length ≤ l.path.length)

/-! ## Routes -/

/-- A path contains another: it is a prefix of it that ends where a segment ends. -/
def SegmentPrefix (p path : List Char) : Prop :=
  ∃ rest, path = p ++ rest ∧ (rest = [] ∨ rest.head? = some '/' ∨ p.getLast? = some '/')

def RuntimeRoute.Contains (route : RuntimeRoute) (path : String) : Prop :=
  SegmentPrefix route.path.toList path.toList

/-- Where the requests for a route go. -/
def upstreamUrl (d : Deployment) (service : RuntimeService) : String :=
  "http://" ++ (service.name ++ "-g-" ++ d.id.hex12 ++ ":" ++ toString service.internalPort)

/-- The locations of a route to a service. -/
def locationsOf (d : Deployment) (service : RuntimeService) (route : RuntimeRoute) : List Location :=
  if route.path = "/" then [⟨false, "/", some (upstreamUrl d service)⟩]
  else [⟨true, route.path, some (upstreamUrl d service)⟩,
    ⟨false, route.path ++ "/", some (upstreamUrl d service)⟩]

variable {d : Deployment} {runtime : RuntimeDeployment}

theorem RuntimeDeployment.exists_service {route : RuntimeRoute} (h : route ∈ runtime.routes) :
    ∃ service ∈ runtime.services, service.name = route.service
      ∧ runtime.services.find? (·.name == route.service) = some service := by
  obtain ⟨service, hservice, hname⟩ := List.mem_map.mp (runtime.routes_known route h)
  obtain ⟨found, hfound⟩ : ∃ found, runtime.services.find? (·.name == route.service) = some found := by
    refine Option.isSome_iff_exists.mp (List.find?_isSome.mpr ⟨service, hservice, ?_⟩)
    simp [hname]
  have hfoundName := List.find?_some hfound
  exact ⟨found, List.mem_of_find?_eq_some hfound, by simpa using hfoundName, hfound⟩

/-- The locations of a deployment, in the order they are written. -/
def gatewayLocations (d : Deployment) (runtime : RuntimeDeployment) : List Location :=
  (runtime.routes.insertionSort fun a b ↦ b.path.length ≤ a.path.length).flatMap fun route ↦
    match runtime.services.find? (·.name == route.service) with
    | some service => locationsOf d service route
    | none => []

theorem mem_gatewayLocations {l : Location} : l ∈ gatewayLocations d runtime ↔
    ∃ route ∈ runtime.routes, ∃ service ∈ runtime.services, service.name = route.service
      ∧ l ∈ locationsOf d service route := by
  rw [gatewayLocations, List.mem_flatMap]
  have hmem : ∀ route, route ∈ runtime.routes.insertionSort
      (fun a b ↦ b.path.length ≤ a.path.length) ↔ route ∈ runtime.routes :=
    fun route ↦ (List.perm_insertionSort _ _).mem_iff
  constructor
  · rintro ⟨route, hroute, hl⟩
    rw [hmem] at hroute
    obtain ⟨service, hservice, hname, hfind⟩ := RuntimeDeployment.exists_service hroute
    rw [hfind] at hl
    exact ⟨route, hroute, service, hservice, hname, hl⟩
  · rintro ⟨route, hroute, service, hservice, hname, hl⟩
    obtain ⟨found, hfound, hfoundName, hfind⟩ := RuntimeDeployment.exists_service hroute
    obtain rfl : found = service :=
      List.inj_on_of_nodup_map runtime.names_nodup hfound hservice (hfoundName.trans hname.symm)
    refine ⟨route, (hmem route).mpr hroute, ?_⟩
    rw [hfind]
    exact hl

/-! ## The selected location -/

theorem RuntimeRoute.path_cons (route : RuntimeRoute) : ∃ cs, route.path.toList = '/' :: cs := by
  have h := route.path_valid
  unfold isHttpPath at h
  split at h
  · exact ⟨_, ‹_›⟩
  · cases h

/-- Each route has one location that is a prefix. -/
def RuntimeRoute.prefixPath (route : RuntimeRoute) : String :=
  if route.path = "/" then "/" else route.path ++ "/"

theorem RuntimeRoute.prefixPath_injective {a b : RuntimeRoute}
    (h : a.prefixPath = b.prefixPath) : a.path = b.path := by
  have hne : ∀ route : RuntimeRoute, route.path ++ "/" ≠ "/" := by
    intro route heq
    obtain ⟨cs, hcs⟩ := route.path_cons
    have hlist := congrArg String.toList heq
    rw [String.toList_append, hcs] at hlist
    simp at hlist
  unfold prefixPath at h
  split at h <;> split at h
  · rename_i ha hb
    rw [ha, hb]
  · exact absurd h.symm (hne b)
  · exact absurd h (hne a)
  · have hlist := congrArg String.toList h
    rw [String.toList_append, String.toList_append] at hlist
    exact String.toList_injective (List.append_cancel_right hlist)

theorem mem_locationsOf {service : RuntimeService} {route : RuntimeRoute} {l : Location} :
    l ∈ locationsOf d service route ↔
      (l = ⟨false, route.prefixPath, some (upstreamUrl d service)⟩
        ∨ route.path ≠ "/" ∧ l = ⟨true, route.path, some (upstreamUrl d service)⟩) := by
  unfold locationsOf RuntimeRoute.prefixPath
  split
  · simp [*]
  · simp [*, or_comm]

/-- Only the root ends with a slash. -/
theorem RuntimeRoute.path_eq_root {route : RuntimeRoute}
    (h : route.path.toList.getLast? = some '/') : route.path = "/" := by
  have hvalid := route.path_valid
  unfold isHttpPath at hvalid
  split at hvalid
  · rename_i cs hcs
    rw [Bool.or_eq_true, List.isEmpty_iff] at hvalid
    rcases hvalid with rfl | hparts
    · exact String.toList_injective hcs
    · exfalso
      have hlast : ∀ parts : List (List Char), parts ≠ [] →
          (∀ part ∈ parts, part ≠ [] ∧ ∀ c ∈ part, isHttpPathChar c = true) →
          ∃ c, (['/'].intercalate parts).getLast? = some c ∧ isHttpPathChar c = true := by
        intro parts hne hall
        induction parts with
        | nil => exact absurd rfl hne
        | cons part parts ih =>
          obtain ⟨hpart, hparts⟩ := List.forall_mem_cons.mp hall
          cases parts with
          | nil =>
            rw [List.intercalate_singleton, List.getLast?_eq_some_getLast hpart.1]
            exact ⟨_, rfl, hpart.2 _ (List.getLast_mem _)⟩
          | cons part' parts =>
            obtain ⟨c, hc, hchar⟩ := ih (by simp) hparts
            refine ⟨c, ?_, hchar⟩
            rw [List.intercalate_cons_cons, List.getLast?_append, hc, Option.some_or]
      obtain ⟨c, hc, hchar⟩ := hlast (cs.splitOn '/') (List.splitOn_ne_nil _ _) (by
        intro part hpart
        have hgood := List.all_eq_true.mp hparts part hpart
        simpa using hgood)
      have hjoin : ['/'].intercalate (cs.splitOn '/') = cs := List.intercalate_splitOn '/'
      rw [hjoin] at hc
      rw [hcs, List.getLast?_cons, hc] at h
      obtain rfl : c = '/' := by simpa using h
      exact absurd hchar (by decide)
  · cases hvalid

theorem RuntimeRoute.contains_iff {route : RuntimeRoute} {path : String} :
    route.Contains path ↔ route.path = path ∨ route.prefixPath.toList <+: path.toList := by
  unfold prefixPath
  constructor
  · rintro ⟨rest, hrest, hempty | hslash | hroot⟩
    · rw [hempty, List.append_nil] at hrest
      exact .inl (String.toList_injective hrest.symm)
    · right
      split
      next hroot =>
        rw [hrest, hroot]
        exact List.prefix_append _ _
      next =>
        obtain ⟨cs, rfl⟩ : ∃ cs, rest = '/' :: cs := by
          cases rest with
          | nil => cases hslash
          | cons c cs => exact ⟨cs, by rw [Option.some.inj hslash]⟩
        exact ⟨cs, by rw [hrest, String.toList_append, List.append_assoc]; rfl⟩
    · right
      rw [if_pos (route.path_eq_root hroot), hrest, route.path_eq_root hroot]
      exact List.prefix_append _ _
  · rintro (rfl | hpre)
    · exact ⟨[], (List.append_nil _).symm, .inl rfl⟩
    · split at hpre
      next hroot =>
        obtain ⟨rest, hrest⟩ := hpre
        exact ⟨rest, by rw [hroot, hrest], .inr (.inr (by rw [hroot]; rfl))⟩
      next =>
        obtain ⟨rest, hrest⟩ := hpre
        refine ⟨'/' :: rest, ?_, .inr (.inl rfl)⟩
        rw [← hrest, String.toList_append, List.append_assoc]
        rfl

theorem RuntimeRoute.length_pos (route : RuntimeRoute) : 0 < route.path.length := by
  obtain ⟨cs, hcs⟩ := route.path_cons
  rw [← String.length_toList, hcs]
  exact Nat.succ_pos _

theorem RuntimeRoute.Contains.length_le {route : RuntimeRoute} {path : String}
    (h : route.Contains path) : route.path.length ≤ path.length := by
  obtain ⟨rest, hrest, -⟩ := h
  rw [← String.length_toList, ← String.length_toList, hrest, List.length_append]
  exact Nat.le_add_right _ _

/-- A longer prefix belongs to a longer route. -/
theorem RuntimeRoute.length_le_of_prefixPath {a b : RuntimeRoute}
    (h : a.prefixPath.length ≤ b.prefixPath.length) : a.path.length ≤ b.path.length := by
  have ha := a.length_pos
  have hb := b.length_pos
  have hslash : "/".length = 1 := rfl
  unfold prefixPath at h
  split at h <;> split at h <;> simp_all only [String.length_append] <;> omega

section Selection

variable {route : RuntimeRoute} {service : RuntimeService} {path : String} {l : Location}

/-- A route is known by its path and a service by its name. -/
theorem RuntimeDeployment.pair_unique {route' : RuntimeRoute} {service' : RuntimeService}
    (hroute : route ∈ runtime.routes) (hroute' : route' ∈ runtime.routes)
    (hservice : service ∈ runtime.services) (hservice' : service' ∈ runtime.services)
    (hname : service.name = route.service) (hname' : service'.name = route'.service)
    (hpath : route.path = route'.path) : route = route' ∧ service = service' := by
  obtain rfl := List.inj_on_of_nodup_map runtime.paths_nodup hroute hroute' hpath
  exact ⟨rfl, List.inj_on_of_nodup_map runtime.names_nodup hservice hservice'
    (hname.trans hname'.symm)⟩

/-- A request for the path of a route, other than the root. -/
theorem selects_exact (hroute : route ∈ runtime.routes) (hservice : service ∈ runtime.services)
    (hname : service.name = route.service) (hroot : route.path ≠ "/") :
    Selects (gatewayLocations d runtime) route.path l
      ↔ l = ⟨true, route.path, some (upstreamUrl d service)⟩ := by
  have hmem : (⟨true, route.path, some (upstreamUrl d service)⟩ : Location)
      ∈ gatewayLocations d runtime :=
    mem_gatewayLocations.mpr ⟨route, hroute, service, hservice, hname,
      mem_locationsOf.mpr (.inr ⟨hroot, rfl⟩)⟩
  constructor
  · rintro ⟨hl, ⟨hexact, hpath⟩ | ⟨hnone, -⟩⟩
    · obtain ⟨route', hroute', service', hservice', hname', hl⟩ := mem_gatewayLocations.mp hl
      rcases mem_locationsOf.mp hl with rfl | ⟨-, rfl⟩
      · cases hexact
      · obtain ⟨rfl, rfl⟩ := RuntimeDeployment.pair_unique hroute' hroute hservice' hservice hname'
          hname hpath
        rfl
    · exact absurd ⟨rfl, rfl⟩ (hnone _ hmem)
  · rintro rfl
    exact ⟨hmem, .inl ⟨rfl, rfl⟩⟩

/-- Any other request. -/
theorem selects_prefix (hroute : route ∈ runtime.routes) (hservice : service ∈ runtime.services)
    (hname : service.name = route.service)
    (hother : ∀ route' ∈ runtime.routes, route'.path = path → route'.path = "/")
    (hpre : route.prefixPath.toList <+: path.toList)
    (hlongest : ∀ route' ∈ runtime.routes, route'.prefixPath.toList <+: path.toList →
      route'.prefixPath.length ≤ route.prefixPath.length) :
    Selects (gatewayLocations d runtime) path l
      ↔ l = ⟨false, route.prefixPath, some (upstreamUrl d service)⟩ := by
  have hmem : (⟨false, route.prefixPath, some (upstreamUrl d service)⟩ : Location)
      ∈ gatewayLocations d runtime :=
    mem_gatewayLocations.mpr ⟨route, hroute, service, hservice, hname, mem_locationsOf.mpr (.inl rfl)⟩
  have hnone : ∀ l' ∈ gatewayLocations d runtime, ¬ l'.Equals path := by
    rintro l' hl' ⟨hexact, hpath⟩
    obtain ⟨route', hroute', service', -, -, hl'⟩ := mem_gatewayLocations.mp hl'
    rcases mem_locationsOf.mp hl' with rfl | ⟨hroot, rfl⟩
    · cases hexact
    · exact hroot (hother route' hroute' hpath)
  constructor
  · rintro ⟨hl, hequals | ⟨-, ⟨hexact, hpath⟩, hmax⟩⟩
    · exact absurd hequals (hnone l hl)
    · obtain ⟨route', hroute', service', hservice', hname', hl⟩ := mem_gatewayLocations.mp hl
      rcases mem_locationsOf.mp hl with rfl | ⟨-, rfl⟩
      · -- two prefixes of one length are the same text
        have hlen : route'.prefixPath.length = route.prefixPath.length :=
          le_antisymm (hlongest route' hroute' hpath) (hmax _ hmem ⟨rfl, hpre⟩)
        have hsame : route'.prefixPath = route.prefixPath := by
          have hlists : route'.prefixPath.toList.length = route.prefixPath.toList.length := by
            rw [String.length_toList, String.length_toList, hlen]
          have hpart := List.prefix_of_prefix_length_le hpath hpre hlists.le
          exact String.toList_injective (hpart.eq_of_length hlists)
        obtain ⟨rfl, rfl⟩ := RuntimeDeployment.pair_unique hroute' hroute hservice' hservice hname'
          hname (RuntimeRoute.prefixPath_injective hsame)
        rfl
      · cases hexact
  · rintro rfl
    refine ⟨hmem, .inr ⟨hnone, ⟨rfl, hpre⟩, fun l' hl' hpath ↦ ?_⟩⟩
    obtain ⟨route', hroute', service', -, -, hl'⟩ := mem_gatewayLocations.mp hl'
    rcases mem_locationsOf.mp hl' with rfl | ⟨-, rfl⟩
    · exact hlongest route' hroute' hpath.2
    · cases hpath.1

/-- The route with the longest prefix of a path. -/
theorem RuntimeDeployment.exists_longest (runtime : RuntimeDeployment)
    (habsolute : "/".toList <+: path.toList) :
    ∃ route ∈ runtime.routes, route.prefixPath.toList <+: path.toList
      ∧ ∀ route' ∈ runtime.routes, route'.prefixPath.toList <+: path.toList →
        route'.prefixPath.length ≤ route.prefixPath.length := by
  obtain ⟨root, hroot, hpath⟩ := List.mem_map.mp runtime.root_mem
  have hrootPath : root.prefixPath = "/" := if_pos hpath
  obtain ⟨route, hroute, hmax⟩ := (runtime.routes.toFinset.filter fun route ↦
    route.prefixPath.toList <+: path.toList).exists_max_image (fun route ↦ route.prefixPath.length)
      ⟨root, Finset.mem_filter.mpr ⟨List.mem_toFinset.mpr hroot, hrootPath ▸ habsolute⟩⟩
  simp only [Finset.mem_filter, List.mem_toFinset] at hroute hmax
  exact ⟨route, hroute.1, hroute.2, fun route' h hpre ↦ hmax route' ⟨h, hpre⟩⟩

/-- **One location is selected for a path**, and it leads to the service of the longest route that
contains the path. -/
theorem exists_selects (d : Deployment) (runtime : RuntimeDeployment)
    (habsolute : "/".toList <+: path.toList) :
    ∃ l, (∀ l', Selects (gatewayLocations d runtime) path l' ↔ l' = l)
      ∧ ∃ route ∈ runtime.routes, route.Contains path
        ∧ (∀ route' ∈ runtime.routes, route'.Contains path → route'.path.length ≤ route.path.length)
        ∧ ∃ service ∈ runtime.services, service.name = route.service
          ∧ l.pass = some (upstreamUrl d service) := by
  by_cases hexact : ∃ route ∈ runtime.routes, route.path = path ∧ route.path ≠ "/"
  · obtain ⟨route, hroute, rfl, hroot⟩ := hexact
    obtain ⟨service, hservice, hname, -⟩ := RuntimeDeployment.exists_service hroute
    exact ⟨_, fun _ ↦ selects_exact hroute hservice hname hroot, route, hroute,
      RuntimeRoute.contains_iff.mpr (.inl rfl), fun _ _ h ↦ h.length_le, service, hservice, hname, rfl⟩
  · have hother : ∀ route ∈ runtime.routes, route.path = path → route.path = "/" := by
      intro route hroute hpath
      by_contra hroot
      exact hexact ⟨route, hroute, hpath, hroot⟩
    obtain ⟨route, hroute, hpre, hlongest⟩ := runtime.exists_longest habsolute
    obtain ⟨service, hservice, hname, -⟩ := RuntimeDeployment.exists_service hroute
    refine ⟨_, fun _ ↦ selects_prefix hroute hservice hname hother hpre hlongest, route, hroute,
      RuntimeRoute.contains_iff.mpr (.inr hpre), fun route' hroute' hcontains ↦ ?_, service, hservice,
      hname, rfl⟩
    refine RuntimeRoute.length_le_of_prefixPath (hlongest route' hroute' ?_)
    rcases RuntimeRoute.contains_iff.mp hcontains with hpath | hpre'
    · have hroot := hother route' hroute' hpath
      rw [RuntimeRoute.prefixPath, if_pos hroot, ← hpath, hroot]
    · exact hpre'

end Selection

/-! ## The text -/

def proxyHeaders : List Directive :=
  [.simple "proxy_set_header" ["Host", "$host"],
    .simple "proxy_set_header" ["X-Forwarded-For", "$proxy_add_x_forwarded_for"],
    .simple "proxy_set_header" ["X-Forwarded-Proto", "$scheme"]]

def locationBlock (args : List String) (url : String) : Directive :=
  .block "location" args (.simple "proxy_pass" [url] :: proxyHeaders)

def routeBlocks (d : Deployment) (service : RuntimeService) (route : RuntimeRoute) :
    List Directive :=
  if route.path = "/" then [locationBlock ["/"] (upstreamUrl d service)]
  else [locationBlock ["=", route.path] (upstreamUrl d service),
    locationBlock ["^~", route.path ++ "/"] (upstreamUrl d service)]

theorem isPlain_of_mem_chars {u : Uuid} {c : Char} (h : c ∈ u.chars) : isPlain c = true := by
  obtain ⟨d, -, rfl⟩ := List.mem_map.mp h
  have key : ∀ d : Fin 16, isPlain (Uuid.digitChar d) = true := by decide
  exact key d

theorem isWord_str (u : Uuid) : IsWord u.str := by
  rw [Uuid.str, IsWord, String.toList_ofList]
  refine ⟨by simp, fun c hc ↦ ?_⟩
  simp only [List.mem_append, List.mem_cons] at hc
  obtain hc | rfl | hc | rfl | hc | rfl | hc | rfl | hc := hc
  · exact isPlain_of_mem_chars (List.mem_of_mem_take hc)
  · decide
  · exact isPlain_of_mem_chars (List.mem_of_mem_drop (List.mem_of_mem_take hc))
  · decide
  · exact isPlain_of_mem_chars (List.mem_of_mem_drop (List.mem_of_mem_take hc))
  · decide
  · exact isPlain_of_mem_chars (List.mem_of_mem_drop (List.mem_of_mem_take hc))
  · decide
  · exact isPlain_of_mem_chars (List.mem_of_mem_drop hc)

theorem isWord_of_isServiceName {s : String} (h : isServiceName s = true) : IsWord s := by
  unfold isServiceName at h
  split at h
  · cases h
  · rename_i c cs hcons
    simp only [Bool.and_eq_true, List.all_eq_true] at h
    rw [IsWord, hcons]
    refine ⟨by simp, List.forall_mem_cons.mpr ⟨?_, fun c' hc' ↦ ?_⟩⟩
    · exact isPlain_of Char.isLower (by decide) h.1.1
    · exact isPlain_of (fun c ↦ isLowerAlnum c || c == '-') (by decide) (h.2 c' hc')

theorem isWord_of_isHttpPath {s : String} (h : isHttpPath s = true) : IsWord s := by
  unfold isHttpPath at h
  split at h
  · rename_i cs hcs
    rw [IsWord, hcs]
    refine ⟨by simp, List.forall_mem_cons.mpr ⟨by decide, fun c hc ↦ ?_⟩⟩
    rw [Bool.or_eq_true, List.isEmpty_iff] at h
    rcases h with rfl | hparts
    · cases hc
    · rcases mem_splitOn '/' hc with rfl | ⟨part, hpart, hc⟩
      · decide
      · have hgood := List.all_eq_true.mp hparts part hpart
        rw [Bool.and_eq_true] at hgood
        exact isPlain_of isHttpPathChar (by decide) (List.all_eq_true.mp hgood.2 c hc)
  · cases h

theorem isWord_toString (n : ℕ) : IsWord (toString n) := by
  rw [IsWord, Nat.toString_eq_ofList_toDigits, String.toList_ofList]
  refine ⟨Nat.toDigits_ne_nil, fun c hc ↦ ?_⟩
  exact isPlain_of Char.isDigit (by decide) (Nat.isDigit_of_mem_toDigits (by decide) (by decide) hc)

theorem isWord_upstreamUrl (d : Deployment) (service : RuntimeService) :
    IsWord (service.name ++ "-g-" ++ d.id.hex12 ++ ":" ++ toString service.internalPort) := by
  have hservice := isWord_of_isServiceName service.name_valid
  exact (((hservice.append (by decide)).append (isWord_hex12 _)).append (by decide)).append
    (isWord_toString _)

/-- A location is read as its block when its first line is. -/
theorem lex_nginxLocation {location upstream : String} {port : ℕ} (args : List String)
    (hlocation : lex .blank ("    location " ++ location ++ " \x7b").toList
      = (.word "location" :: (args.map .word ++ [.opening]), .blank))
    (hurl : IsWord (upstream ++ ":" ++ toString port)) :
    lex .blank (nginxLocation location upstream port).toList
      = (tokens [locationBlock args ("http://" ++ (upstream ++ ":" ++ toString port))], .blank) := by
  have hpass : "        proxy_pass http://" ++ upstream ++ ":" ++ toString port ++ ";"
      = "        proxy_pass http://" ++ (upstream ++ ":" ++ toString port) ++ ";" := by
    simp only [String.append_assoc]
  have hflat : tokens [locationBlock args ("http://" ++ (upstream ++ ":" ++ toString port))]
      = [.word "location" :: (args.map .word ++ [.opening]),
          [.word "proxy_pass", .word ("http://" ++ (upstream ++ ":" ++ toString port)), .semicolon],
          [.word "proxy_set_header", .word "Host", .word "$host", .semicolon],
          [.word "proxy_set_header", .word "X-Forwarded-For", .word "$proxy_add_x_forwarded_for",
            .semicolon],
          [.word "proxy_set_header", .word "X-Forwarded-Proto", .word "$scheme", .semicolon],
          [.closing]].flatten := by
    simp [tokens, locationBlock, Directive.tokens, proxyHeaders]
  rw [hflat, nginxLocation, hpass]
  apply lex_lines
  simp only [List.forall₂_cons]
  exact ⟨hlocation, lex_proxyPass hurl, by decide, by decide, by decide, by decide, .nil⟩

/-- The texts of a route are read as its blocks. -/
theorem exists_routeLocations {route : RuntimeRoute} {service : RuntimeService}
    (hfind : runtime.services.find? (·.name == route.service) = some service) :
    ∃ texts, routeLocations d runtime route = some texts
      ∧ List.Forall₂ (fun text b ↦ lex .blank text.toList = (tokens [b], .blank)) texts
        (routeBlocks d service route) := by
  have hurl := isWord_upstreamUrl d service
  have hpath := isWord_of_isHttpPath route.path_valid
  rw [routeLocations, hfind, Option.bind_eq_bind, Option.bind_some, routeBlocks]
  split
  · refine ⟨_, rfl, .cons (lex_nginxLocation ["/"] ?_ hurl) .nil⟩
    decide
  · refine ⟨_, rfl, .cons (lex_nginxLocation ["=", route.path] ?_ hurl)
      (.cons (lex_nginxLocation ["^~", route.path ++ "/"] ?_ hurl) .nil)⟩
    · have hline : "    location " ++ ("= " ++ route.path) ++ " \x7b"
          = "    location = " ++ route.path ++ " \x7b" := by
        rw [← String.append_assoc]
        rfl
      rw [hline]
      exact lex_line [.word "location", .word "="] [.opening] hpath (by decide) fun _ ↦ rfl
    · have hline : "    location " ++ ("^~ " ++ route.path ++ "/") ++ " \x7b"
          = "    location ^~ " ++ (route.path ++ "/") ++ " \x7b" := by
        have hhead : "    location ^~ " = "    location " ++ "^~ " := rfl
        rw [hhead]
        simp only [String.append_assoc]
      rw [hline]
      exact lex_line [.word "location", .word "^~"] [.opening] (hpath.append (by decide)) (by decide)
        fun _ ↦ rfl

/-- The texts of the routes are read as their blocks. -/
theorem exists_mapM_routeLocations (d : Deployment) {routes : List RuntimeRoute}
    (h : routes ⊆ runtime.routes) :
    ∃ texts, routes.mapM (routeLocations d runtime) = some texts
      ∧ List.Forall₂ (fun text b ↦ lex .blank text.toList = (tokens [b], .blank)) texts.flatten
        (routes.flatMap fun route ↦ match runtime.services.find? (·.name == route.service) with
          | some service => routeBlocks d service route
          | none => []) := by
  induction routes with
  | nil => exact ⟨[], rfl, .nil⟩
  | cons route routes ih =>
    obtain ⟨service, -, -, hfind⟩ := RuntimeDeployment.exists_service (h List.mem_cons_self)
    obtain ⟨texts, htexts, hread⟩ := exists_routeLocations (d := d) hfind
    obtain ⟨others, hothers, hreadOthers⟩ := ih (List.subset_of_cons_subset h)
    refine ⟨texts :: others, ?_, ?_⟩
    · rw [List.mapM_cons, htexts, hothers]
      rfl
    · rw [List.flatten_cons, List.flatMap_cons, hfind]
      exact List.rel_append hread hreadOthers

/-- The blocks of the locations of a deployment. -/
def gatewayBlocks (d : Deployment) (runtime : RuntimeDeployment) : List Directive :=
  (runtime.routes.insertionSort fun a b ↦ b.path.length ≤ a.path.length).flatMap fun route ↦
    match runtime.services.find? (·.name == route.service) with
    | some service => routeBlocks d service route
    | none => []

def gatewayConfig (d : Deployment) (runtime : RuntimeDeployment) : List Directive :=
  [.block "server" []
    ([.simple "listen" ["8080"], .simple "server_name" ["_"],
      .simple "proxy_hide_header" ["X-Heimdall-Deployment-Id"],
      .simple "add_header" ["X-Heimdall-Deployment-Id", d.id.str, "always"]]
    ++ gatewayBlocks d runtime)]

theorem lex_marker (d : Deployment) :
    lex .blank ("    add_header X-Heimdall-Deployment-Id \"" ++ d.id.str ++ "\" always;").toList
      = ([.word "add_header", .word "X-Heimdall-Deployment-Id", .word d.id.str, .word "always",
        .semicolon], .blank) := by
  have hid := isWord_str d.id
  rw [String.toList_append, String.toList_append, List.append_assoc]
  have hpre : lex .blank "    add_header X-Heimdall-Deployment-Id \"".toList
      = ([.word "add_header", .word "X-Heimdall-Deployment-Id"], .quoted []) := by decide
  have hquoted : ∀ cs, lex (.quoted cs) "\" always;".toList
      = ([.word (String.ofList cs), .word "always", .semicolon], .blank) := fun _ ↦ rfl
  have hpost := hquoted d.id.str.toList
  rw [String.ofList_toList] at hpost
  exact lex_around hpre hid.2 hid.1 hpost

/-- **What nginx reads off the configuration of a gateway.** -/
theorem read_renderNginxConfig (d : Deployment) (runtime : RuntimeDeployment) :
    ∃ text, renderNginxConfig d runtime = some text
      ∧ read text = some (gatewayConfig d runtime) := by
  obtain ⟨texts, htexts, hread⟩ := exists_mapM_routeLocations d
    (List.perm_insertionSort (fun a b ↦ b.path.length ≤ a.path.length) runtime.routes).subset
  rw [renderNginxConfig, htexts]
  refine ⟨_, rfl, read_of_lex ?_⟩
  have hlocations : List.Forall₂ (fun line ts ↦ lex .blank line.toList = (ts, .blank))
      texts.flatten ((gatewayBlocks d runtime).map fun b ↦ tokens [b]) :=
    List.forall₂_map_right_iff.mpr hread
  have hlines : List.Forall₂ (fun line ts ↦ lex .blank line.toList = (ts, .blank))
      ("server \x7b" :: "    listen 8080;" :: "    server_name _;"
        :: "    proxy_hide_header X-Heimdall-Deployment-Id;"
        :: ("    add_header X-Heimdall-Deployment-Id \"" ++ d.id.str ++ "\" always;")
        :: (texts.flatten ++ ["\x7d", ""]))
      ([.word "server", .opening] :: [.word "listen", .word "8080", .semicolon]
        :: [.word "server_name", .word "_", .semicolon]
        :: [.word "proxy_hide_header", .word "X-Heimdall-Deployment-Id", .semicolon]
        :: [.word "add_header", .word "X-Heimdall-Deployment-Id", .word d.id.str, .word "always",
          .semicolon]
        :: ((gatewayBlocks d runtime).map (fun b ↦ tokens [b]) ++ [[.closing], []])) :=
    .cons (by decide) <| .cons (by decide) <| .cons (by decide) <| .cons (by decide) <|
      .cons (lex_marker d) <| List.rel_append hlocations (.cons (by decide) (.cons (by decide) .nil))
  have hflat : ((gatewayBlocks d runtime).map Directive.tokens).flatten
      = tokens (gatewayBlocks d runtime) := by
    have hblocks := tokens_flatMap (fun b ↦ [b]) (gatewayBlocks d runtime)
    rw [List.flatMap_singleton'] at hblocks
    simp only [hblocks, tokens, List.append_nil]
  have hmarker : lex .blank (deploymentMarker d.id ++ "\n").toList = ([], .blank) := by
    rw [deploymentMarker, String.toList_append, String.toList_append, List.append_assoc]
    have hpre : lex .blank "# deployment: ".toList = ([], .comment) := by decide
    have hpost : lex (LexState.comment.extend d.id.str.toList) "\n".toList = ([], .blank) := rfl
    exact lex_around hpre (isWord_str d.id).2 (isWord_str d.id).1 hpost
  have hfirst := lex_lines hlines
  rw [List.append_assoc]
  change lex .blank ("\n".intercalate (deploymentMarker d.id :: "server \x7b" :: _)).toList = _
  rw [String.intercalate_cons_cons, String.toList_append, lex_append, hmarker]
  refine (congrArg (fun r : List Token × LexState ↦ ([] ++ r.1, r.2)) hfirst).trans ?_
  simp [gatewayConfig, tokens, Directive.tokens, hflat]

/-- Read back, the configuration has the locations of the deployment. -/
theorem serverLocations_gatewayConfig (d : Deployment) (runtime : RuntimeDeployment) :
    serverLocations (gatewayConfig d runtime) = gatewayLocations d runtime := by
  have hbody : serverLocations (gatewayConfig d runtime)
      = (blocks "location" (gatewayBlocks d runtime)).filterMap locationOf := by
    have hserver : serverLocations (gatewayConfig d runtime)
        = (blocks "location" (gatewayBlocks d runtime)).filterMap locationOf ++ [] := rfl
    rw [hserver, List.append_nil]
  rw [hbody, gatewayBlocks, blocks_flatMap, List.filterMap_flatMap, gatewayLocations]
  refine List.flatMap_congr fun route _ ↦ ?_
  cases runtime.services.find? (·.name == route.service) with
  | none => rfl
  | some service =>
    simp only [routeBlocks, locationsOf]
    split <;> rfl

theorem nodup_gatewayLocations (d : Deployment) (runtime : RuntimeDeployment) :
    (gatewayLocations d runtime).Nodup := by
  rw [gatewayLocations, List.nodup_flatMap]
  constructor
  · intro route _
    split
    next service _ =>
      unfold locationsOf
      split <;> simp
    next => exact List.nodup_nil
  · -- locations of different routes have different paths
    have hpaths : ((runtime.routes.insertionSort fun a b ↦ b.path.length ≤ a.path.length).map
        RuntimeRoute.path).Nodup :=
      ((List.perm_insertionSort _ _).map _).nodup_iff.mpr runtime.paths_nodup
    refine (List.pairwise_map.mp hpaths).imp fun {a b} hne l ha hb ↦ hne ?_
    have hroute : ∀ route : RuntimeRoute, (l ∈ match
        runtime.services.find? (·.name == route.service) with
        | some service => locationsOf d service route
        | none => []) → l.path = if l.exact then route.path else route.prefixPath := by
      intro route hl
      split at hl
      · rcases mem_locationsOf.mp hl with rfl | ⟨-, rfl⟩ <;> rfl
      · cases hl
    have hsame := (hroute a ha).symm.trans (hroute b hb)
    split at hsame
    · exact hsame
    · exact RuntimeRoute.prefixPath_injective hsame

/-- **One location is selected for a path**, and it leads to the service and the port of the longest
route that contains the path. -/
theorem gateway_selects (d : Deployment) (runtime : RuntimeDeployment) :
    ∃ text config, renderNginxConfig d runtime = some text ∧ read text = some config
      ∧ (serverLocations config).Nodup
      ∧ ∀ path : String, "/".toList <+: path.toList →
        ∃ l, (∀ l', Selects (serverLocations config) path l' ↔ l' = l)
          ∧ ∃ route ∈ runtime.routes, route.Contains path
            ∧ (∀ route' ∈ runtime.routes, route'.Contains path →
              route'.path.length ≤ route.path.length)
            ∧ ∃ service ∈ runtime.services, service.name = route.service
              ∧ l.pass = some (upstreamUrl d service) := by
  obtain ⟨text, htext, hread⟩ := read_renderNginxConfig d runtime
  refine ⟨text, gatewayConfig d runtime, htext, hread, ?_, fun path habsolute ↦ ?_⟩
  · rw [serverLocations_gatewayConfig]
    exact nodup_gatewayLocations d runtime
  · rw [serverLocations_gatewayConfig]
    exact exists_selects d runtime habsolute

theorem gateway_selects_sample : ∃ config l,
    (∀ l', Selects (serverLocations config) "/users/1" l' ↔ l' = l)
      ∧ ∃ service ∈ sampleServices.services, l.pass = some (upstreamUrl sampleCandidate service) := by
  obtain ⟨_, config, -, -, -, hselects⟩ := gateway_selects sampleCandidate sampleServices
  obtain ⟨l, hl, _, -, -, -, service, hservice, -, hpass⟩ := hselects "/users/1" (by decide)
  exact ⟨config, l, hl, service, hservice, hpass⟩

end Heimdall
