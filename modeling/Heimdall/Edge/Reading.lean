import Heimdall.Edge.Routes
import Heimdall.Text.Nginx

/-!
# Reading the text of the edge routes

nginx reads a host name off the `server_name` of a server, the name of an upstream off the
`proxy_pass` of its location and an address off the server line of that upstream. Read in this way
the text of the edge routes serves each route's host name from its own gateway, and nothing else
(`renderEdgeRoutes_read`).
-/

namespace Heimdall

open Nginx

/-! ## What a configuration serves -/

/-- The host names a configuration has servers for. -/
def serverNames (config : List Directive) : List String :=
  (blocks "server" config).flatMap fun server ↦ (settings "server_name" server.2).flatten

def upstreamNames (config : List Directive) : List String :=
  (blocks "upstream" config).flatMap Prod.fst

/-- The address behind an upstream. -/
def upstreamAddress (config : List Directive) (name : String) : Option String := do
  let upstream ← (blocks "upstream" config).find? fun upstream ↦ upstream.1 = [name]
  let server ← (settings "server" upstream.2).head?
  server.head?

/-- The address a server passes requests to. -/
def proxyAddress (config : List Directive) (server : List Directive) : Option String := do
  let location ← (blocks "location" server).find? fun location ↦ location.1 = ["/"]
  let pass ← (settings "proxy_pass" location.2).head?
  let url ← pass.head?
  if "http://".toList <+: url.toList then
    upstreamAddress config (String.ofList (url.toList.drop 7))
  else none

/-- The host names of the servers, each with the address its requests go to. -/
def servedHosts (config : List Directive) : List (String × Option String) :=
  (blocks "server" config).flatMap fun server ↦
    (settings "server_name" server.2).flatten.map fun name ↦ (name, proxyAddress config server.2)

/-! ## The directives of a section -/

def upstreamName (route : EdgeRouteTarget) : String := "hm_edge_p" ++ route.projectId.hex12

def upstreamBlock (route : EdgeRouteTarget) : Directive :=
  .block "upstream" [upstreamName route]
    [.simple "zone" [upstreamName route, "64k"],
      .simple "resolver" ["127.0.0.11", "valid=10s", "ipv6=off"],
      .simple "server" [route.gatewayAlias ++ ":8080", "resolve"]]

def serverBlock (route : EdgeRouteTarget) : Directive :=
  .block "server" []
    [.simple "listen" ["80"], .simple "server_name" [route.hostname],
      .block "location" ["/"]
        [.simple "proxy_pass" ["http://" ++ upstreamName route],
          .simple "proxy_http_version" ["1.1"], .simple "proxy_set_header" ["Connection", ""],
          .simple "proxy_set_header" ["Host", "$host"],
          .simple "proxy_set_header" ["X-Forwarded-For", "$remote_addr"],
          .simple "proxy_set_header" ["X-Forwarded-Host", "$host"],
          .simple "proxy_set_header" ["X-Forwarded-Proto", "$scheme"]]]

def edgeDirectives (route : EdgeRouteTarget) : List Directive :=
  [upstreamBlock route, serverBlock route]

variable {route : EdgeRouteTarget}

/-- The characters of a hexadecimal number. -/
theorem isWord_hex12 (u : Uuid) : IsWord u.hex12 := by
  rw [Uuid.hex12, IsWord, String.toList_ofList]
  refine ⟨?_, fun c hc ↦ ?_⟩
  · have hlen : (u.chars.take 12).length = 12 := by simp [Uuid.chars, u.length_digits]
    exact List.ne_nil_of_length_pos (by omega)
  · obtain ⟨d, -, rfl⟩ := List.mem_map.mp (List.mem_of_mem_take hc)
    have key : ∀ d : Fin 16, isPlain (Uuid.digitChar d) = true := by decide
    exact key d

theorem isWord_of_isHostname {s : String} (h : isHostname s = true) : IsWord s := by
  refine ⟨?_, fun c hc ↦ ?_⟩
  · intro hnil
    rw [String.toList_eq_nil_iff.mp hnil] at h
    exact absurd h (by decide)
  · simp only [isHostname, Bool.and_eq_true, List.all_eq_true] at h
    rcases mem_splitOn '.' hc with rfl | ⟨label, hlabel, hc⟩
    · decide
    · have hall := h.2 label hlabel
      simp only [isLabel, Bool.and_eq_true, List.all_eq_true] at hall
      exact isPlain_of (fun c ↦ isLowerAlnum c || c == '-') (by decide) (hall.1.1.2 c hc)

theorem isWord_of_isDockerName {bound : ℕ} {s : String} (h : isDockerName bound s = true) :
    IsWord s := by
  unfold isDockerName at h
  split at h
  · cases h
  · rename_i c cs hcons
    simp only [Bool.and_eq_true, List.all_eq_true] at h
    rw [IsWord, hcons]
    refine ⟨by simp, List.forall_mem_cons.mpr ⟨?_, fun c' hc' ↦ ?_⟩⟩
    · exact isPlain_of Char.isAlphanum (by decide) h.1.1
    · exact isPlain_of isDockerChar (by decide) (h.1.2 c' hc')

theorem isWord_upstreamName (route : EdgeRouteTarget) : IsWord (upstreamName route) :=
  .append (by decide) (isWord_hex12 _)

/-- Lines with a word that is longer than the part that is put in. -/
theorem lex_server {s : String} (h : IsWord s) :
    lex .blank ("    server " ++ s ++ ":8080 resolve;").toList
      = ([.word "server", .word (s ++ ":8080"), .word "resolve", .semicolon], .blank) := by
  have hline : "    server " ++ s ++ ":8080 resolve;" = "    server " ++ (s ++ ":8080") ++ " resolve;" := by
    rw [String.append_assoc, String.append_assoc, String.append_assoc]
    rfl
  rw [hline]
  exact lex_line [.word "server"] [.word "resolve", .semicolon] (h.append (by decide)) (by decide)
    fun _ ↦ rfl

theorem lex_proxyPass {s : String} (h : IsWord s) :
    lex .blank ("        proxy_pass http://" ++ s ++ ";").toList
      = ([.word "proxy_pass", .word ("http://" ++ s), .semicolon], .blank) := by
  have hline : "        proxy_pass http://" ++ s ++ ";" = "        proxy_pass " ++ ("http://" ++ s) ++ ";" := by
    rw [← String.append_assoc]
    rfl
  rw [hline]
  exact lex_line [.word "proxy_pass"] [.semicolon] (.append (by decide) h) (by decide) fun _ ↦ rfl

/-- The tokens of each line of a section. -/
def sectionTokens (route : EdgeRouteTarget) : List (List Token) :=
  [[.word "upstream", .word (upstreamName route), .opening],
    [.word "zone", .word (upstreamName route), .word "64k", .semicolon],
    [.word "resolver", .word "127.0.0.11", .word "valid=10s", .word "ipv6=off", .semicolon],
    [.word "server", .word (route.gatewayAlias ++ ":8080"), .word "resolve", .semicolon],
    [.closing], [],
    [.word "server", .opening],
    [.word "listen", .word "80", .semicolon],
    [.word "server_name", .word route.hostname, .semicolon], [],
    [.word "location", .word "/", .opening],
    [.word "proxy_pass", .word ("http://" ++ upstreamName route), .semicolon],
    [.word "proxy_http_version", .word "1.1", .semicolon],
    [.word "proxy_set_header", .word "Connection", .word "", .semicolon],
    [.word "proxy_set_header", .word "Host", .word "$host", .semicolon],
    [.word "proxy_set_header", .word "X-Forwarded-For", .word "$remote_addr", .semicolon],
    [.word "proxy_set_header", .word "X-Forwarded-Host", .word "$host", .semicolon],
    [.word "proxy_set_header", .word "X-Forwarded-Proto", .word "$scheme", .semicolon],
    [.closing], [.closing], []]

theorem lex_edgeSection (h : route.valid = true) :
    lex .blank (edgeSection route).toList = (tokens (edgeDirectives route), .blank) := by
  rw [EdgeRouteTarget.valid, Bool.and_eq_true] at h
  have hupstream := isWord_upstreamName route
  have hflat : tokens (edgeDirectives route) = (sectionTokens route).flatten := rfl
  rw [hflat, edgeSection]
  apply lex_lines
  simp only [sectionTokens, List.forall₂_cons]
  refine ⟨lex_line [.word "upstream"] [.opening] hupstream (by decide) fun _ ↦ rfl,
    lex_line [.word "zone"] [.word "64k", .semicolon] hupstream (by decide) fun _ ↦ rfl, by decide,
    lex_server (isWord_of_isDockerName h.2), by decide, by decide, by decide, by decide,
    lex_line [.word "server_name"] [.semicolon] (isWord_of_isHostname h.1) (by decide) fun _ ↦ rfl,
    by decide, by decide, lex_proxyPass hupstream, by decide, by decide, by decide, by decide,
    by decide, by decide, by decide, by decide, by decide, .nil⟩

/-! ## The whole text -/

variable {routes : List EdgeRouteTarget} {text : String}

theorem read_renderEdgeRoutes (h : renderEdgeRoutes routes = .ok text) :
    read text = some ((sortByHostname routes).flatMap edgeDirectives) := by
  obtain ⟨-, hsections, rfl, -⟩ := renderEdgeRoutes_ok h
  obtain ⟨-, hvalid, -⟩ := edgeSections_ok hsections
  refine read_of_lex ?_
  have hlines : List.Forall₂ (fun line ts ↦ lex .blank line.toList = (ts, .blank))
      ((sortByHostname routes).map edgeSection)
      ((sortByHostname routes).map fun route ↦ tokens (edgeDirectives route)) := by
    rw [List.forall₂_map_left_iff, List.forall₂_map_right_iff]
    exact List.forall₂_same.mpr fun route hroute ↦ lex_edgeSection (hvalid route hroute)
  have hheader : lex .blank "# Generated by Heimdall Routing Worker. Do not edit.\n".toList
      = ([], .blank) := by decide
  rw [lex_lines (.cons hheader hlines), tokens_flatMap]
  rfl

theorem blocks_flatMap {α : Type} (name : String) (f : α → List Directive) (xs : List α) :
    blocks name (xs.flatMap f) = xs.flatMap fun x ↦ blocks name (f x) := by
  rw [blocks, List.filterMap_flatMap]
  rfl

theorem blocks_upstream (routes : List EdgeRouteTarget) :
    blocks "upstream" (routes.flatMap edgeDirectives) = routes.map fun route ↦
      ([upstreamName route], [.simple "zone" [upstreamName route, "64k"],
        .simple "resolver" ["127.0.0.11", "valid=10s", "ipv6=off"],
        .simple "server" [route.gatewayAlias ++ ":8080", "resolve"]]) := by
  rw [blocks_flatMap, List.map_eq_flatMap]
  rfl

/-- The body of a route's server. -/
def serverBody (route : EdgeRouteTarget) : List Directive :=
  match serverBlock route with
  | .block _ _ body => body
  | .simple _ _ => []

theorem blocks_server (routes : List EdgeRouteTarget) :
    blocks "server" (routes.flatMap edgeDirectives)
      = routes.map fun route ↦ ([], serverBody route) := by
  rw [blocks_flatMap, List.map_eq_flatMap]
  rfl

/-- Each route's upstream is found under its name. -/
theorem upstreamAddress_of_mem (hnodup : (routes.map upstreamName).Nodup) (hroute : route ∈ routes) :
    upstreamAddress (routes.flatMap edgeDirectives) (upstreamName route)
      = some (route.gatewayAlias ++ ":8080") := by
  rw [upstreamAddress, blocks_upstream]
  induction routes with
  | nil => cases hroute
  | cons first routes ih =>
    rw [List.map_cons, List.nodup_cons] at hnodup
    rw [List.map_cons, List.find?_cons]
    rcases List.mem_cons.mp hroute with rfl | hroute
    · simp [settings]
    · have hne : upstreamName first ≠ upstreamName route := fun heq ↦
        hnodup.1 (heq ▸ List.mem_map_of_mem hroute)
      simpa [hne] using ih hnodup.2 hroute

theorem proxyAddress_serverBody (config : List Directive) (route : EdgeRouteTarget) :
    proxyAddress config (serverBody route) = upstreamAddress config (upstreamName route) := by
  have hurl : ("http://" ++ upstreamName route).toList
      = "http://".toList ++ (upstreamName route).toList := String.toList_append
  have hdrop : String.ofList (("http://" ++ upstreamName route).toList.drop 7)
      = upstreamName route := by
    have hlen : "http://".toList.length = 7 := by decide
    rw [hurl, ← hlen, List.drop_left, String.ofList_toList]
  have hpre : "http://".toList <+: ("http://" ++ upstreamName route).toList := by
    rw [hurl]
    exact List.prefix_append _ _
  have hpass : proxyAddress config (serverBody route)
      = if "http://".toList <+: ("http://" ++ upstreamName route).toList then
          upstreamAddress config
            (String.ofList (("http://" ++ upstreamName route).toList.drop 7))
        else none := rfl
  rw [hpass, if_pos hpre, hdrop]

theorem servedHosts_eq (hnodup : (routes.map upstreamName).Nodup) :
    servedHosts (routes.flatMap edgeDirectives)
      = routes.map fun route ↦ (route.hostname, some (route.gatewayAlias ++ ":8080")) := by
  rw [servedHosts, blocks_server, List.flatMap_map, List.map_eq_flatMap]
  refine List.flatMap_congr fun route hroute ↦ ?_
  have haddress := upstreamAddress_of_mem hnodup hroute
  rw [← proxyAddress_serverBody] at haddress
  rw [← haddress]
  rfl

theorem serverNames_eq (routes : List EdgeRouteTarget) :
    serverNames (routes.flatMap edgeDirectives) = routes.map EdgeRouteTarget.hostname := by
  rw [serverNames, blocks_server, List.flatMap_map, List.map_eq_flatMap]
  rfl

theorem upstreamNames_eq (routes : List EdgeRouteTarget) :
    upstreamNames (routes.flatMap edgeDirectives) = routes.map upstreamName := by
  rw [upstreamNames, blocks_upstream, List.flatMap_map, List.map_eq_flatMap]

theorem upstreamName_nodup (h : (routes.map fun route ↦ route.projectId.hex12).Nodup) :
    (routes.map upstreamName).Nodup := by
  have hmap : routes.map upstreamName
      = (routes.map fun route ↦ route.projectId.hex12).map ("hm_edge_p" ++ ·) := by
    rw [List.map_map]
    rfl
  rw [hmap]
  refine h.map fun a b hab ↦ ?_
  have hlists := congrArg String.toList hab
  rw [String.toList_append, String.toList_append] at hlists
  exact String.toList_injective (List.append_cancel_left hlists)

/-- **The text of the edge routes**: it does not depend on the order of the routes, and what nginx
reads off it serves each host name from the gateway of its route, through an upstream of its own. -/
theorem renderEdgeRoutes_read (h : renderEdgeRoutes routes = .ok text)
    (hids : (routes.map fun route ↦ route.projectId.hex12).Nodup) :
    (∀ routes', routes.Perm routes' → renderEdgeRoutes routes' = .ok text)
    ∧ ∃ config, read text = some config
      ∧ (servedHosts config).Perm
        (routes.map fun route ↦ (route.hostname, some (route.gatewayAlias ++ ":8080")))
      ∧ (serverNames config).Perm (routes.map EdgeRouteTarget.hostname) ∧ (serverNames config).Nodup
      ∧ (upstreamNames config).Perm (routes.map upstreamName) ∧ (upstreamNames config).Nodup := by
  have hsort := sortByHostname_perm routes
  have hupstreams : ((sortByHostname routes).map upstreamName).Nodup :=
    (hsort.map _).nodup_iff.mpr (upstreamName_nodup hids)
  refine ⟨fun _ hperm ↦ renderEdgeRoutes_perm hperm h, _, read_renderEdgeRoutes h, ?_, ?_, ?_, ?_, ?_⟩
  · rw [servedHosts_eq hupstreams]
    exact hsort.map _
  · rw [serverNames_eq]
    exact hsort.map _
  · rw [serverNames_eq]
    exact (hsort.map _).nodup_iff.mpr (renderEdgeRoutes_nodup h)
  · rw [upstreamNames_eq]
    exact hsort.map _
  · rw [upstreamNames_eq]
    exact hupstreams

/-! ### Two routes -/

def sampleTargets : List EdgeRouteTarget :=
  [⟨.ofNat (2 ^ 127), "b.deployments.localhost", projectGatewayAlias (.ofNat (2 ^ 127))⟩,
    ⟨.ofNat (2 ^ 126), "a.deployments.localhost", projectGatewayAlias (.ofNat (2 ^ 126))⟩]

theorem sampleTargets_rendered : ∃ text, renderEdgeRoutes sampleTargets = .ok text := by
  rw [renderEdgeRoutes_of_valid (List.all_eq_true.mp (by decide)) (by decide), if_neg (by decide)]
  refine ⟨_, if_neg ?_⟩
  decide +kernel

theorem renderEdgeRoutes_read_sample : ∃ text config, renderEdgeRoutes sampleTargets = .ok text
    ∧ read text = some config
    ∧ (servedHosts config).Perm
      (sampleTargets.map fun route ↦ (route.hostname, some (route.gatewayAlias ++ ":8080"))) := by
  obtain ⟨text, htext⟩ := sampleTargets_rendered
  obtain ⟨config, hconfig, hserved, -⟩ := (renderEdgeRoutes_read htext (by decide)).2
  exact ⟨text, config, htext, hconfig, hserved⟩

end Heimdall
