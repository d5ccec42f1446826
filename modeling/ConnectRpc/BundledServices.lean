import ConnectRpc.GeneratedService
import ConnectRpc.Service

/-!
# The bundled services

Two services come with the library, one for health and one for reflection. Each can be installed
on a router in one call, which registers its methods and gives their routes limits of their own,
in place of those of the service as a whole.

`bundled_services` says what a router is after that: it serves as the chain of the servers in
front of what it was, the limits of the new routes are the small ones, whatever the service has,
and those of every other route are what they were. The limits can be changed afterwards, and the
later call wins.
-/

namespace ConnectRpc

open Lib

variable {crate : ServiceCrate} {X : Type}

/-! ## Limits -/

/-- The default limit on the body of a request. -/
def DEFAULT_MAX_REQUEST_BODY_SIZE : ℕ := 4 * 1024 * 1024

/-- `Limits::default`. -/
def Limits.default : Limits where
  maxRequestBodySize := DEFAULT_MAX_REQUEST_BODY_SIZE
  maxMessageSize := DEFAULT_MAX_MESSAGE_SIZE
  elementMemoryLimit := DecodeOptions.new.elementMemoryLimit

/-- The largest message that the routes of both services accept. -/
def MAX_REQUEST_BYTES : ℕ := 16 * 1024

/-- `request_limits`, the same for both services. -/
def requestLimits : Limits :=
  { Limits.default with
    maxRequestBodySize := MAX_REQUEST_BYTES + HEADER_SIZE
    maxMessageSize := MAX_REQUEST_BYTES
    elementMemoryLimit := 4 * MAX_REQUEST_BYTES }

/-- `Router::has_method`. -/
def Router.hasMethod (r : Router X) (path : String) : Bool :=
  decide (routeKey path ∈ r.methods)

/-! ## The services -/

/-- `grpc.health.v1.Health`, with its two methods. -/
def healthService (input : crate.Ty)
    (check : RequestContext X → ServiceRequest crate input → Code Empty (HandlerResponse Encodable))
    (watch : RequestContext X → ServiceRequest crate input →
      Code Empty (HandlerResponse BodyStream)) : GeneratedService crate X where
  fullName := "grpc.health.v1.Health"
  methods := [⟨"Check", false, false, none, .unary input check⟩,
    ⟨"Watch", false, true, none, .serverStream input watch⟩]

/-- `grpc.reflection.v1.ServerReflection`, or that of another version. -/
def reflectionService (version : String) (input : crate.Ty)
    (info : RequestContext X → InboundStream (StreamMessage crate input) →
      StreamCode (StreamMessage crate input) (HandlerResponse BodyStream)) :
    GeneratedService crate X where
  fullName := s!"grpc.reflection.{version}.ServerReflection"
  methods := [⟨"ServerReflectionInfo", true, true, none, .bidiStream input info⟩]

/-- The procedures of a service, as its `_SPEC` constants have them. -/
def GeneratedService.procedures (service : GeneratedService crate X) : List String :=
  service.methods.map fun m => (m.spec service.fullName).procedure

/-- `connectrpc_health::apply_request_limits`: every procedure gets the limits; `none` is a
panic. -/
def applyHealthLimits (procedures : List String) (r : Router X) (limits : Limits) :
    Option (Router X) :=
  procedures.foldlM (fun r procedure => r.withRouteLimits procedure limits) r

/-- One round of the loop of `connectrpc_reflection::apply_request_limits`. -/
def applyReflectionLimit (limits : Limits) (state : Router X × Bool) (procedure : String) :
    Option (Router X × Bool) :=
  if state.1.hasMethod procedure then
    (state.1.withRouteLimits procedure limits).map (·, true)
  else some state

/-- `connectrpc_reflection::apply_request_limits`: every procedure that is registered gets the
limits; it is a panic if none is. -/
def applyReflectionLimits (procedures : List String) (r : Router X) (limits : Limits) :
    Option (Router X) :=
  (procedures.foldlM (applyReflectionLimit limits) (r, false)).bind fun state =>
    if state.2 then some state.1 else none

section Installing

variable (cr : Crates) (debug : Bool)

/-- `install_static`, without the checker; `none` is a panic. -/
def installStatic (health : GeneratedService crate X) (r : Router X) : Option (Router X) :=
  (health.register cr debug r).bind (applyHealthLimits health.procedures · requestLimits)

/-- `install`, with both versions. -/
def installReflection (v1 v1alpha : GeneratedService crate X) (r : Router X) : Option (Router X) :=
  ((v1.register cr debug r).bind (v1alpha.register cr debug)).bind
    (applyReflectionLimits (v1.procedures ++ v1alpha.procedures) · requestLimits)

end Installing

/-! ## Routes with limits -/

/-- A dispatcher that tells limits of some paths. -/
def Dispatcher.limited (d : Dispatcher X) (paths : List String) (limits : Limits) : Dispatcher X :=
  { d with
    lookup := fun path =>
      if path ∈ paths then (d.lookup path).map fun desc => { desc with limits := some limits }
      else d.lookup path }

/-- A route that is registered can be given limits, which changes nothing else. -/
theorem Router.withRouteLimits_law (r : Router X) (procedure : String) (limits : Limits) :
    ((r.withRouteLimits procedure limits).isSome = true ↔ routeKey procedure ∈ r.methods) ∧
    ∀ r', r.withRouteLimits procedure limits = some r' →
      r'.allowOverrides = r.allowOverrides ∧ (∀ path, path ∈ r'.methods ↔ path ∈ r.methods) ∧
        r'.dispatcher = r.dispatcher.limited [routeKey procedure] limits := by
  rw [withRouteLimits]
  rcases hlookup : r.methods.lookup (routeKey procedure) with _ | m
  · refine ⟨iff_of_false (by simp) (AList.lookup_eq_none.mp hlookup), fun r' h => ?_⟩
    cases h
  · have hmem : routeKey procedure ∈ r.methods := by
      rw [← AList.lookup_isSome, hlookup]
      rfl
    refine ⟨iff_of_true rfl hmem, fun r' h => ?_⟩
    obtain rfl := Option.some.inj h
    refine ⟨rfl, fun path => ?_, ?_⟩
    · rw [AList.mem_insert]
      constructor
      · rintro (rfl | h)
        · exact hmem
        · exact h
      · exact Or.inr
    · have hmethod : ∀ path, methodAt
          ⟨r.methods.insert (routeKey procedure) ⟨m.method, m.spec, some limits⟩, r.allowOverrides⟩
          path = r.methodAt path := methodAt_update hlookup rfl
      rw [dispatcher, Dispatcher.limited, dispatcher]
      simp only [hmethod, List.mem_singleton]
      congr 1
      funext path
      by_cases hpath : path = routeKey procedure
      · subst hpath
        rw [if_pos rfl, AList.lookup_insert, hlookup, Option.map_some, Option.map_some,
          Option.map_some]
        rcases m with ⟨handler | handler | handler | handler, spec, limits'⟩
        all_goals rfl
      · rw [if_neg hpath, AList.lookup_insert_ne hpath]

/-- Paths may be told of one after the other. -/
theorem Dispatcher.limited_limited (d : Dispatcher X) (paths paths' : List String)
    (limits : Limits) :
    (d.limited paths limits).limited paths' limits = d.limited (paths ++ paths') limits := by
  simp only [limited, List.mem_append]
  congr 1
  funext path
  by_cases hpath : path ∈ paths
  · by_cases hpath' : path ∈ paths'
    · rw [if_pos hpath', if_pos hpath, if_pos (.inl hpath), Option.map_map]
      rfl
    · rw [if_neg hpath', if_pos hpath, if_pos (.inl hpath)]
  · by_cases hpath' : path ∈ paths'
    · rw [if_pos hpath', if_neg hpath, if_pos (.inr hpath')]
    · rw [if_neg hpath', if_neg hpath, if_neg (by tauto)]

/-- **The later limits win.** -/
theorem Dispatcher.limited_later (d : Dispatcher X) (paths : List String) (limits limits' : Limits) :
    (d.limited paths limits).limited paths limits' = d.limited paths limits' := by
  simp only [limited]
  congr 1
  funext path
  by_cases hpath : path ∈ paths
  · rw [if_pos hpath, if_pos hpath, if_pos hpath, Option.map_map]
    rfl
  · rw [if_neg hpath, if_neg hpath, if_neg hpath]

/-- Limits for no path are none. -/
theorem Dispatcher.limited_nil (d : Dispatcher X) (limits : Limits) : d.limited [] limits = d := by
  simp [limited]

/-! ## Installation -/

/-- A router whose routes can all be given limits. -/
theorem applyHealthLimits_law (limits : Limits) : ∀ {procedures : List String} {r : Router X},
    ((applyHealthLimits procedures r limits).isSome = true ↔
      ∀ procedure ∈ procedures, routeKey procedure ∈ r.methods) ∧
    ∀ r', applyHealthLimits procedures r limits = some r' →
      r'.dispatcher = r.dispatcher.limited (procedures.map routeKey) limits := by
  intro procedures
  induction procedures with
  | nil =>
    intro r
    refine ⟨by simp [applyHealthLimits], fun r' h => ?_⟩
    obtain rfl := Option.some.inj h
    exact (Dispatcher.limited_nil _ _).symm
  | cons procedure procedures ih =>
    intro r
    obtain ⟨hsome, hlimited⟩ := r.withRouteLimits_law procedure limits
    rw [applyHealthLimits, List.foldlM_cons]
    rcases hfirst : r.withRouteLimits procedure limits with _ | r₁
    · rw [hfirst] at hsome
      refine ⟨iff_of_false (by simp) fun h => ?_, fun r' h => by cases h⟩
      exact absurd (hsome.mpr (h procedure List.mem_cons_self)) (by simp)
    · obtain ⟨-, hmem, hdispatcher⟩ := hlimited r₁ hfirst
      obtain ⟨hrest, hlimits⟩ := @ih r₁
      rw [hfirst] at hsome
      rw [applyHealthLimits] at hrest
      refine ⟨?_, fun r' h => ?_⟩
      · rw [Option.bind_eq_bind, Option.bind_some, hrest, List.forall_mem_cons]
        simp only [hmem]
        exact ⟨fun h => ⟨hsome.mp rfl, h⟩, fun h => h.2⟩
      · rw [hlimits r' h, hdispatcher, Dispatcher.limited_limited]
        rfl

/-- The loop over the reflection routes gives limits to those that are registered. -/
theorem applyReflectionLimit_law (limits : Limits) :
    ∀ {procedures : List String} {r : Router X} {applied : Bool}, ∃ r',
      procedures.foldlM (applyReflectionLimit limits) (r, applied) =
        some (r', applied || procedures.any r.hasMethod) ∧
      r'.dispatcher =
        r.dispatcher.limited ((procedures.filter r.hasMethod).map routeKey) limits := by
  intro procedures
  induction procedures with
  | nil =>
    intro r applied
    exact ⟨r, by simp, (Dispatcher.limited_nil _ _).symm⟩
  | cons procedure procedures ih =>
    intro r applied
    obtain ⟨hsome, hlimited⟩ := r.withRouteLimits_law procedure limits
    rw [List.foldlM_cons, applyReflectionLimit]
    by_cases hmethod : r.hasMethod procedure = true
    · obtain ⟨r₁, hfirst⟩ := Option.isSome_iff_exists.mp (hsome.mpr (of_decide_eq_true hmethod))
      obtain ⟨-, hmem, hdispatcher⟩ := hlimited r₁ hfirst
      have hsame : r₁.hasMethod = r.hasMethod := by
        funext path
        simp only [Router.hasMethod, hmem]
      obtain ⟨r', hrest, hlimits⟩ := @ih r₁ true
      refine ⟨r', ?_, ?_⟩
      · rw [if_pos hmethod, hfirst, Option.map_some, Option.bind_eq_bind, Option.bind_some, hrest,
          List.any_cons, hmethod, Bool.true_or, Bool.true_or, Bool.or_true]
      · rw [hlimits, hdispatcher, hsame, Dispatcher.limited_limited,
          List.filter_cons_of_pos hmethod]
        rfl
    · obtain ⟨r', hrest, hlimits⟩ := @ih r applied
      refine ⟨r', ?_, ?_⟩
      · rw [if_neg hmethod, Option.bind_eq_bind, Option.bind_some, hrest, List.any_cons,
          Bool.eq_false_iff.mpr hmethod, Bool.false_or]
      · rw [hlimits, List.filter_cons_of_neg hmethod]

/-- Some reflection route must be registered, and then all that are get the limits. -/
theorem applyReflectionLimits_law (limits : Limits) {procedures : List String} {r : Router X} :
    ((applyReflectionLimits procedures r limits).isSome = true ↔
      ∃ procedure ∈ procedures, routeKey procedure ∈ r.methods) ∧
    ∀ r', applyReflectionLimits procedures r limits = some r' →
      r'.dispatcher =
        r.dispatcher.limited ((procedures.filter r.hasMethod).map routeKey) limits := by
  obtain ⟨r₁, hloop, hdispatcher⟩ := @applyReflectionLimit_law X limits procedures r false
  have hany : procedures.any r.hasMethod = true ↔
      ∃ procedure ∈ procedures, routeKey procedure ∈ r.methods := by
    simp [List.any_eq_true, Router.hasMethod]
  rw [applyReflectionLimits, hloop, Option.bind_some, Bool.false_or, ← hany]
  by_cases happlied : procedures.any r.hasMethod = true
  · rw [if_pos happlied]
    refine ⟨iff_of_true rfl happlied, fun r' h => ?_⟩
    obtain rfl := Option.some.inj h
    exact hdispatcher
  · rw [if_neg happlied]
    exact ⟨iff_of_false (by simp) happlied, fun r' h => by cases h⟩

/-- The keys of the procedures of a service are the paths of its methods. -/
theorem GeneratedService.map_routeKey_procedures (service : GeneratedService crate X) :
    service.procedures.map routeKey = service.paths := by
  rw [procedures, paths, List.map_map]
  exact List.map_congr_left fun m _ => routeKey_spec service.fullName m

/-- A server knows the paths of its methods. -/
theorem GeneratedService.server_lookup_isSome {service : GeneratedService crate X}
    (hnodup : (service.methods.map ServiceMethod.name).Nodup) (path : String) :
    (service.server.lookup path).isSome = true ↔ path ∈ service.paths := by
  have htold : service.server.lookup path = (service.find path).bind _ :=
    arm_eq hnodup (fun m => some (m.descriptor service.fullName)) path
  have hsome : (service.server.lookup path).isSome = (service.find path).isSome := by
    rw [htold]
    cases service.find path with
    | none => rfl
    | some m => rfl
  rw [hsome, find, List.find?_isSome, paths, List.mem_map]
  simp

/-- Servers in front of a dispatcher leave the other paths as they were. -/
theorem serversBefore_lookup : ∀ {services : List (GeneratedService crate X)},
    (∀ service ∈ services, (service.methods.map ServiceMethod.name).Nodup) →
      ∀ (d : Dispatcher X) (path : String),
        (((serversBefore d services).lookup path).isSome = true ↔
          path ∈ pathsOf services ∨ (d.lookup path).isSome = true) ∧
        (path ∉ pathsOf services → (serversBefore d services).lookup path = d.lookup path) := by
  intro services
  induction services with
  | nil =>
    intro _ d path
    simp [serversBefore, pathsOf]
  | cons service services ih =>
    intro hnodup d path
    have hserver := service.server_lookup_isSome (hnodup service List.mem_cons_self) path
    obtain ⟨hsome, hother⟩ := ih (fun s hs => hnodup s (List.mem_cons_of_mem _ hs))
      (service.server.chain d) path
    have hpaths : path ∈ pathsOf (service :: services) ↔
        path ∈ service.paths ∨ path ∈ pathsOf services := by
      rw [pathsOf, List.flatMap_cons, List.mem_append]
      rfl
    rw [serversBefore, List.foldl_cons]
    rw [serversBefore] at hsome hother
    refine ⟨?_, fun hnot => ?_⟩
    · rw [hsome, hpaths, Dispatcher.chain_lookup, Option.isSome_or, Bool.or_eq_true, hserver]
      tauto
    · rw [hpaths, not_or] at hnot
      have hnone : service.server.lookup path = none := by
        rw [← Option.not_isSome_iff_eq_none, hserver]
        exact hnot.1
      rw [hother hnot.2, Dispatcher.chain_lookup, hnone, Option.none_or]

/-- **What it means that services are installed**, by a function that registers them and gives
their routes limits, which another function changes. -/
structure Installs (services : List (GeneratedService crate X))
    (install : Router X → Option (Router X)) (apply : Router X → Limits → Option (Router X)) :
    Prop where
  /-- it panics exactly where overrides are not allowed and a path is taken -/
  panics : ∀ r, (∃ r', install r = some r') ↔
    r.allowOverrides = true ∨ ∀ path ∈ pathsOf services, path ∉ r.methods
  /-- the servers are in front of what the router was -/
  serves : ∀ r r', install r = some r' → r'.dispatcher =
    (serversBefore r.dispatcher services).limited (pathsOf services) requestLimits
  /-- their routes have the small limits, and other routes have those that they had -/
  limits : ∀ r r', install r = some r' → ∀ (s : Service X) (req : HttpRequest X),
    { s with dispatcher := r'.dispatcher }.limitsOf req =
      if Service.routePath req.path ∈ pathsOf services then requestLimits
      else { s with dispatcher := r.dispatcher }.limitsOf req
  /-- the later limits win -/
  later : ∀ r r', install r = some r' → ∀ limits, ∃ r'', apply r' limits = some r'' ∧
    r''.dispatcher = (serversBefore r.dispatcher services).limited (pathsOf services) limits

/-- **Services are installed** if their paths are distinct and the routes that are registered can
be given limits. -/
theorem installs_of (cr : Crates) (debug : Bool) (hlawful : crate.Lawful)
    {services : List (GeneratedService crate X)}
    (hnodup : ∀ service ∈ services, (service.methods.map ServiceMethod.name).Nodup)
    (hpaths : (pathsOf services).Nodup) {apply : Router X → Limits → Option (Router X)}
    (happly : ∀ r limits, (∀ path ∈ pathsOf services, path ∈ r.methods) → ∃ r',
      apply r limits = some r' ∧ r'.dispatcher = r.dispatcher.limited (pathsOf services) limits) :
    Installs services (fun r => (r.addServices cr debug services).bind (apply · requestLimits))
      apply := by
  have hadded : ∀ {r r₁ : Router X}, r.addServices cr debug services = some r₁ →
      r₁.dispatcher = serversBefore r.dispatcher services ∧
        ∀ path ∈ pathsOf services, path ∈ r₁.methods := by
    intro r r₁ h
    have hdispatcher := generated_registration_dispatcher cr debug hlawful hnodup h
    refine ⟨hdispatcher, fun path hpath => ?_⟩
    rw [← Router.lookup_isSome, hdispatcher, (serversBefore_lookup hnodup _ path).1]
    exact .inl hpath
  have hserves : ∀ r r' : Router X, (r.addServices cr debug services).bind (apply · requestLimits) = some r' →
      r'.dispatcher =
        (serversBefore r.dispatcher services).limited (pathsOf services) requestLimits := by
    intro r r' h
    obtain ⟨r₁, hregister, happlied⟩ := Option.bind_eq_some_iff.mp h
    obtain ⟨hdispatcher, hmem⟩ := hadded hregister
    obtain ⟨r₂, hr₂, hlimited⟩ := happly r₁ requestLimits hmem
    rw [hr₂] at happlied
    obtain rfl := Option.some.inj happlied
    rw [hlimited, hdispatcher]
  refine ⟨fun r => ?_, hserves, fun r r' h s req => ?_, fun r r' h limits => ?_⟩
  · have hsome := @addServices_isSome _ _ cr debug services r
    rw [and_iff_right hpaths] at hsome
    rw [← hsome, Option.isSome_iff_exists]
    constructor
    · rintro ⟨r', h⟩
      obtain ⟨r₁, hregister, -⟩ := Option.bind_eq_some_iff.mp h
      exact ⟨r₁, hregister⟩
    · rintro ⟨r₁, hregister⟩
      obtain ⟨r', happlied, -⟩ := happly r₁ requestLimits (hadded hregister).2
      exact ⟨r', by rw [hregister, Option.bind_some, happlied]⟩
  · obtain ⟨hsome, hother⟩ :=
      serversBefore_lookup hnodup r.dispatcher (Service.routePath req.path)
    simp only [Service.limitsOf, Service.descriptor, hserves r r' h, Dispatcher.limited]
    by_cases hpath : Service.routePath req.path ∈ pathsOf services
    · obtain ⟨desc, hdesc⟩ := Option.isSome_iff_exists.mp (hsome.mpr (.inl hpath))
      rw [if_pos hpath, if_pos hpath, hdesc]
      rfl
    · rw [if_neg hpath, if_neg hpath, hother hpath]
  · have hdispatcher := hserves r r' h
    have hmem : ∀ path ∈ pathsOf services, path ∈ r'.methods := by
      intro path hpath
      have hsome := (serversBefore_lookup hnodup r.dispatcher path).1.mpr (.inl hpath)
      rw [← Router.lookup_isSome, hdispatcher, Dispatcher.limited]
      simpa only [if_pos hpath, Option.isSome_map] using hsome
    obtain ⟨r'', happlied, hlimited⟩ := happly r' limits hmem
    exact ⟨r'', happlied, by rw [hlimited, hdispatcher, Dispatcher.limited_later]⟩

/-- The health service is installed by its function. -/
theorem installs_health (cr : Crates) (debug : Bool) (hlawful : crate.Lawful)
    (healthInput : crate.Ty)
    (check : RequestContext X → ServiceRequest crate healthInput →
      Code Empty (HandlerResponse Encodable))
    (watch : RequestContext X → ServiceRequest crate healthInput →
      Code Empty (HandlerResponse BodyStream)) :
    let health := healthService healthInput check watch
    Installs [health] (installStatic cr debug health) (applyHealthLimits health.procedures) := by
  intro health
  have hinstalls := @installs_of crate X cr debug hlawful [health] ?_ ?_
    (applyHealthLimits health.procedures) ?_
  · have hsame : installStatic cr debug health = fun r =>
        (r.addServices cr debug [health]).bind
          (applyHealthLimits health.procedures · requestLimits) := by
      funext r
      simp [installStatic, Router.addServices]
    rw [hsame]
    exact hinstalls
  · intro service hservice
    obtain rfl := List.mem_singleton.mp hservice
    have hnames : health.methods.map ServiceMethod.name = ["Check", "Watch"] := rfl
    rw [hnames]
    decide
  · have hpaths : pathsOf [health] =
        ["grpc.health.v1.Health/Check", "grpc.health.v1.Health/Watch"] := rfl
    rw [hpaths]
    decide
  · intro r limits hmem
    have hpaths : pathsOf [health] = health.paths := by simp [pathsOf]
    rw [hpaths, ← health.map_routeKey_procedures] at hmem ⊢
    obtain ⟨hsome, hlimited⟩ := @applyHealthLimits_law X limits health.procedures r
    obtain ⟨r', h⟩ := Option.isSome_iff_exists.mp
      (hsome.mpr fun procedure hprocedure => hmem _ (List.mem_map_of_mem hprocedure))
    exact ⟨r', h, hlimited r' h⟩

/-- The reflection service is installed by its function, under both of its names. -/
theorem installs_reflection (cr : Crates) (debug : Bool) (hlawful : crate.Lawful)
    (reflectionInput : crate.Ty)
    (info : RequestContext X → InboundStream (StreamMessage crate reflectionInput) →
      StreamCode (StreamMessage crate reflectionInput) (HandlerResponse BodyStream)) :
    let v1 := reflectionService "v1" reflectionInput info
    let v1alpha := reflectionService "v1alpha" reflectionInput info
    Installs [v1, v1alpha] (installReflection cr debug v1 v1alpha)
      (applyReflectionLimits (v1.procedures ++ v1alpha.procedures)) := by
  intro v1 v1alpha
  have hinstalls := @installs_of crate X cr debug hlawful [v1, v1alpha] ?_ ?_
    (applyReflectionLimits (v1.procedures ++ v1alpha.procedures)) ?_
  · have hsame : installReflection cr debug v1 v1alpha = fun r =>
        (r.addServices cr debug [v1, v1alpha]).bind
          (applyReflectionLimits (v1.procedures ++ v1alpha.procedures) · requestLimits) := by
      funext r
      simp [installReflection, Router.addServices]
    rw [hsame]
    exact hinstalls
  · intro service hservice
    simp only [List.mem_cons, List.not_mem_nil, or_false] at hservice
    have hnames : service.methods.map ServiceMethod.name = ["ServerReflectionInfo"] := by
      rcases hservice with rfl | rfl
      · rfl
      · rfl
    rw [hnames]
    exact List.nodup_singleton _
  · have hpaths : pathsOf [v1, v1alpha] =
        ["grpc.reflection.v1.ServerReflection/ServerReflectionInfo",
          "grpc.reflection.v1alpha.ServerReflection/ServerReflectionInfo"] := rfl
    rw [hpaths]
    decide
  · intro r limits hmem
    have hpaths : pathsOf [v1, v1alpha] =
        (v1.procedures ++ v1alpha.procedures).map routeKey := by
      rw [List.map_append, v1.map_routeKey_procedures, v1alpha.map_routeKey_procedures]
      simp [pathsOf]
    rw [hpaths] at hmem ⊢
    have hall : ∀ procedure ∈ v1.procedures ++ v1alpha.procedures,
        r.hasMethod procedure = true :=
      fun procedure h => decide_eq_true (hmem _ (List.mem_map_of_mem h))
    obtain ⟨hsome, hlimited⟩ :=
      @applyReflectionLimits_law X limits (v1.procedures ++ v1alpha.procedures) r
    obtain ⟨r', h⟩ := Option.isSome_iff_exists.mp (hsome.mpr
      ⟨_, List.mem_append_left _ (List.mem_singleton_self _), hmem _ (List.mem_map_of_mem
        (List.mem_append_left _ (List.mem_singleton_self _)))⟩)
    refine ⟨r', h, ?_⟩
    rw [hlimited r' h, List.filter_eq_self.mpr hall]

/-- **The bundled services.** Both are installed by their functions: their routes are served by
their servers under limits of their own, all other routes are as they were, and limits that are
applied later win. -/
theorem bundled_services (cr : Crates) (debug : Bool) (hlawful : crate.Lawful)
    (healthInput reflectionInput : crate.Ty)
    (check : RequestContext X → ServiceRequest crate healthInput →
      Code Empty (HandlerResponse Encodable))
    (watch : RequestContext X → ServiceRequest crate healthInput →
      Code Empty (HandlerResponse BodyStream))
    (info : RequestContext X → InboundStream (StreamMessage crate reflectionInput) →
      StreamCode (StreamMessage crate reflectionInput) (HandlerResponse BodyStream)) :
    let health := healthService healthInput check watch
    let v1 := reflectionService "v1" reflectionInput info
    let v1alpha := reflectionService "v1alpha" reflectionInput info
    Installs [health] (installStatic cr debug health) (applyHealthLimits health.procedures) ∧
      Installs [v1, v1alpha] (installReflection cr debug v1 v1alpha)
        (applyReflectionLimits (v1.procedures ++ v1alpha.procedures)) :=
  ⟨installs_health cr debug hlawful healthInput check watch,
    installs_reflection cr debug hlawful reflectionInput info⟩

/-- A health service that answers nothing of interest. -/
def quietHealth : GeneratedService emptyCrate Unit :=
  healthService () (fun _ _ => .answer (.ok ⟨fun _ => .ok (.contiguous []), .empty, .empty, none⟩))
    (fun _ _ => .answer (.ok ⟨[], .empty, .empty, none⟩))

/-- A new router with it, and the limits of one of its routes. -/
theorem bundled_services_new : ∃ r', installStatic .std true quietHealth Router.new = some r' ∧
    (r'.dispatcher.lookup "grpc.health.v1.Health/Check").bind (·.limits) = some requestLimits := by
  obtain ⟨hinstalls, -⟩ := bundled_services .std true emptyCrate_lawful () ()
    (fun (_ : RequestContext Unit) _ =>
      .answer (.ok ⟨fun _ => .ok (.contiguous []), .empty, .empty, none⟩))
    (fun _ _ => .answer (.ok ⟨[], .empty, .empty, none⟩))
    (fun _ _ => .answer (.ok ⟨[], .empty, .empty, none⟩))
  obtain ⟨r', h⟩ := (hinstalls.panics Router.new).mpr (.inr fun path _ hmem => by cases hmem)
  refine ⟨r', h, ?_⟩
  rw [hinstalls.serves Router.new r' h]
  rfl

end ConnectRpc
