import ConnectRpc.GeneratedService
import ConnectRpc.GetRoundTrip
import ConnectRpc.HeaderPrecedence

/-!
# Generated clients

A generated client passes the constant of a method, turned to the side of the client, to the entry
point for the shape of the method. This file follows the path of such a request to the services.

The constant is accepted by the entry points for its shape and by no others
(`checkClientSpec_clientSpec`), and wherever a request made from it arrives, under whatever path
the services are mounted, it reaches the implementation of this very method and of no other one
(`generated_client_routed`).
-/

namespace ConnectRpc

open Lib

variable {crate : ServiceCrate} {X : Type}

/-! ## Entry points -/

/-- A shape as the kind of a route. -/
def StreamType.kind : StreamType → MethodKind
  | unary => .unary
  | clientStream => .clientStreaming
  | serverStream => .serverStreaming
  | bidiStream => .bidiStreaming

/-- The shape that an entry point is for. -/
def EntryPoint.streamType : EntryPoint → StreamType
  | unary | unaryGet => .unary
  | serverStream => .serverStream
  | clientStream => .clientStream
  | bidiStream => .bidiStream

/-- What an entry point calls itself. -/
def EntryPoint.callName : EntryPoint → String
  | unaryGet => "call_unary_get"
  | entry => entry.streamType.entryPoint

/-- The entry point that the generated client calls for a method. -/
def ServiceMethod.clientEntry (m : ServiceMethod crate X) : EntryPoint :=
  if m.clientStreaming ∧ ¬m.serverStreaming then .clientStream
  else if m.clientStreaming ∧ m.serverStreaming then .bidiStream
  else if m.serverStreaming then .serverStream
  else .unary

/-- `Spec::with_origin(SpecOrigin::Client)`, on the constant of a method. -/
def ServiceMethod.clientSpec (serviceName : String) (m : ServiceMethod crate X) : CallSpec where
  procedure := (m.spec serviceName).procedure
  streamType := (m.spec serviceName).streamType
  origin := .client

/-- `PathAndQuery::path`. -/
def PathAndQuery.path (pq : PathAndQuery) : String :=
  let path := pq.data.takeWhile (· ≠ '?')
  if path = [] then "/" else .ofList path

/-- The path of a base that requests are put under. -/
def ClientConfig.basePath (config : ClientConfig) : String :=
  .ofList (trimEnd (· = '/') config.baseUri.path.toList)

section Requests

variable (cr : Crates) (ur : UriCrates)

/-- The constant of a method is accepted by the entry points for its shape, and by no others. -/
theorem checkClientSpec_clientSpec (serviceName : String) (m : ServiceMethod crate X)
    (expected : StreamType) (entryPoint : String) :
    checkClientSpec ur (m.clientSpec serviceName) expected entryPoint = .ok () ↔
      (m.spec serviceName).streamType = expected := by
  have hformed : procedureIsWellFormed (m.clientSpec serviceName).procedure = true := by
    have htext : (m.clientSpec serviceName).procedure.toList =
        '/' :: (serviceName.toList ++ '/' :: m.name.toList) := by
      simp [ServiceMethod.clientSpec, ServiceMethod.spec, toString]
    simp [procedureIsWellFormed, htext]
  rw [checkClientSpec]
  by_cases hshape : (m.clientSpec serviceName).streamType = expected
  · rw [if_neg (not_not_intro hshape), if_neg (show ¬(m.clientSpec serviceName).origin ≠ .client from not_not_intro rfl),
      if_neg (by simp [hformed])]
    exact iff_of_true rfl hshape
  · rw [if_pos hshape]
    exact iff_of_false (fun h => by cases h) hshape

/-- The entry point that the generated client calls for a method accepts its constant. -/
theorem ServiceMethod.checkClientSpec_clientEntry (serviceName : String)
    (m : ServiceMethod crate X) :
    checkClientSpec ur (m.clientSpec serviceName) m.clientEntry.streamType
      m.clientEntry.callName = .ok () := by
  apply (checkClientSpec_clientSpec ur serviceName m _ _).mpr
  rw [spec, clientEntry]
  cases m.clientStreaming with
  | false => cases m.serverStreaming <;> rfl
  | true => cases m.serverStreaming <;> rfl

/-- A request is made with a spec that was accepted, for its path under that of the base. -/
theorem EntryPoint.request_uri {config : ClientConfig} {spec : CallSpec} {message : ClientMessage}
    {options : CallOptions} {entry : EntryPoint} {creq : ClientRequest}
    (h : entry.request cr ur config spec message options = .ok creq) :
    checkClientSpec ur spec entry.streamType entry.callName = .ok () ∧
      ∃ query, procedureUri ur config spec.procedure query = .ok creq.uri := by
  cases entry with
  | unary =>
    obtain ⟨_, hspec, h⟩ := exists_of_bind_ok h
    obtain ⟨_, -, h⟩ := exists_of_bind_ok h
    obtain ⟨uri, huri, h⟩ := exists_of_bind_ok h
    obtain ⟨_, -, h⟩ := exists_of_bind_ok h
    obtain ⟨_, -, h⟩ := exists_of_bind_ok h
    obtain ⟨_, -, rfl⟩ := finishRequest_ok cr h
    exact ⟨orError_eq_ok hspec, none, orError_eq_ok huri⟩
  | unaryGet =>
    obtain ⟨_, hspec, h⟩ := exists_of_bind_ok h
    obtain ⟨-, -, h⟩ := exists_of_bind_ok h
    obtain ⟨_, -, h⟩ := exists_of_bind_ok h
    obtain ⟨_, -, h⟩ := exists_of_bind_ok h
    obtain ⟨_, -, h⟩ := exists_of_bind_ok h
    obtain ⟨uri, huri, h⟩ := exists_of_bind_ok h
    obtain ⟨_, -, rfl⟩ := finishRequest_ok cr h
    exact ⟨orError_eq_ok hspec, _, orError_eq_ok huri⟩
  | serverStream =>
    obtain ⟨_, hspec, h⟩ := exists_of_bind_ok h
    obtain ⟨_, -, h⟩ := exists_of_bind_ok h
    obtain ⟨uri, huri, h⟩ := exists_of_bind_ok h
    obtain ⟨_, -, h⟩ := exists_of_bind_ok h
    obtain ⟨_, -, h⟩ := exists_of_bind_ok h
    obtain ⟨_, -, rfl⟩ := finishRequest_ok cr h
    exact ⟨orError_eq_ok hspec, none, orError_eq_ok huri⟩
  | clientStream =>
    obtain ⟨_, hspec, h⟩ := exists_of_bind_ok h
    obtain ⟨_, -, h⟩ := exists_of_bind_ok h
    obtain ⟨uri, huri, h⟩ := exists_of_bind_ok h
    obtain ⟨_, -, rfl⟩ := finishRequest_ok cr h
    exact ⟨orError_eq_ok hspec, none, orError_eq_ok huri⟩
  | bidiStream =>
    obtain ⟨_, hspec, h⟩ := exists_of_bind_ok h
    obtain ⟨_, -, h⟩ := exists_of_bind_ok h
    obtain ⟨uri, huri, h⟩ := exists_of_bind_ok h
    obtain ⟨_, -, rfl⟩ := finishRequest_ok cr h
    exact ⟨orError_eq_ok hspec, none, orError_eq_ok huri⟩

/-- The path of a request is that of the method, under that of the base. -/
theorem procedureUri_path {config : ClientConfig} {procedure : String} {query : Option String}
    {uri : RequestUri} (hplain : PlainPath procedure) (hne : procedure.toList ≠ [])
    (h : procedureUri ur config procedure query = .ok uri) :
    uri.pathAndQuery.path = config.basePath ++ procedure := by
  have hbase {c : Char} (hc : c ∉ config.baseUri.path.toList) :
      c ∉ trimEnd (· = '/') config.baseUri.path.toList :=
    fun hmem => hc ((trimEnd_sublist _ _).subset hmem)
  rw [procedureUri, PathAndQuery.fromShared] at h
  split at h
  · cases h
  · rename_i pq hpq
    split at hpq
    · cases hpq
    · obtain rfl := Except.ok.inj hpq
      split at h
      · cases h
      · obtain rfl := Except.ok.inj h
        let path := trimEnd (· = '/') config.baseUri.path.toList ++ procedure.toList
        have hhash : ∀ c ∈ path, decide (c ≠ '#') = true := by
          intro c hc
          apply decide_eq_true
          rintro rfl
          rcases List.mem_append.mp hc with hc | hc
          · exact hbase config.baseUri.plain.2 hc
          · exact hplain.2 hc
        have hmark : ∀ c ∈ path, decide (c ≠ '?') = true := by
          intro c hc
          apply decide_eq_true
          rintro rfl
          rcases List.mem_append.mp hc with hc | hc
          · exact hbase config.baseUri.plain.1 hc
          · exact hplain.1 hc
        -- the query, with its mark, is cut off again
        have hrest : ((((query.map ("?" ++ ·)).getD "").toList.takeWhile (· ≠ '#')).takeWhile
            (· ≠ '?')) = [] := by
          rcases query with _ | query <;> simp
        have htext : (String.ofList (trimEnd (· = '/') config.baseUri.path.toList) ++ procedure ++
            (query.map ("?" ++ ·)).getD "").toList =
              path ++ ((query.map ("?" ++ ·)).getD "").toList := by
          simp [path]
        have hdata : ((path ++ ((query.map ("?" ++ ·)).getD "").toList).takeWhile
            (· ≠ '#')).takeWhile (· ≠ '?') = path := by
          rw [List.takeWhile_append_of_pos hhash, List.takeWhile_append_of_pos hmark, hrest,
            List.append_nil]
        have hsome : path ≠ [] := fun hnil => hne (List.append_eq_nil_iff.mp hnil).2
        apply String.ext
        simp only [PathAndQuery.path, htext, hdata, if_neg hsome, String.toList_ofList,
          ClientConfig.basePath, String.toList_append, path]

end Requests

/-! ## Routes -/

section Routes

variable {cr : Crates} {debug : Bool}

/-- Services with paths that all differ have methods with names that differ. -/
theorem nodup_names_of_paths {services : List (GeneratedService crate X)}
    (h : (pathsOf services).Nodup) :
    ∀ service ∈ services, (service.methods.map ServiceMethod.name).Nodup := by
  intro service hmem
  have hpaths : service.paths.Nodup := (List.nodup_flatMap.mp h).1 service hmem
  apply List.Nodup.of_map (Router.methodPath service.fullName)
  rw [List.map_map]
  exact hpaths

/-- What is not a path of services stays as it was. -/
theorem addServices_lookup_of_not_mem : ∀ {services : List (GeneratedService crate X)}
    {r r' : Router X}, r.addServices cr debug services = some r' → (pathsOf services).Nodup →
      ∀ {path : String}, path ∉ pathsOf services →
        r'.methods.lookup path = r.methods.lookup path := by
  intro services
  induction services with
  | nil =>
    intro r r' h _ path _
    cases h
    rfl
  | cons service services ih =>
    intro r r' h hnodup path hpath
    have hnames := nodup_names_of_paths hnodup service List.mem_cons_self
    rw [pathsOf, List.flatMap_cons] at hnodup hpath
    rw [List.mem_append, not_or] at hpath
    rw [Router.addServices, List.foldlM_cons] at h
    obtain ⟨r₁, hregister, hrest⟩ := Option.bind_eq_some_iff.mp h
    rw [GeneratedService.register_eq] at hregister
    have hnone : service.methods.find? (fun m => decide (service.pathOf m = path)) = none := by
      rw [List.find?_eq_none]
      intro m hm hsame
      apply hpath.1
      exact List.mem_map.mpr ⟨m, hm, of_decide_eq_true hsame⟩
    rw [ih hrest (List.nodup_append.mp hnodup).2.1 hpath.2,
      (GeneratedService.added hregister).lookup hnames, hnone]
    rfl

/-- **The path of a method** leads to it, after all services are added. -/
theorem addServices_lookup : ∀ {services : List (GeneratedService crate X)} {r r' : Router X},
    r.addServices cr debug services = some r' → (pathsOf services).Nodup →
      ∀ {service : GeneratedService crate X} {m : ServiceMethod crate X}, service ∈ services →
        m ∈ service.methods →
          r'.methods.lookup (service.pathOf m) = some (m.registered service.fullName) := by
  intro services
  induction services with
  | nil => exact fun _ _ _ _ hservice => nomatch hservice
  | cons first services ih =>
    intro r r' h hnodup service m hservice hm
    have hnames := nodup_names_of_paths hnodup
    have hsplit := hnodup
    rw [pathsOf, List.flatMap_cons, List.nodup_append] at hsplit
    rw [Router.addServices, List.foldlM_cons] at h
    obtain ⟨r₁, hregister, hrest⟩ := Option.bind_eq_some_iff.mp h
    rcases List.mem_cons.mp hservice with rfl | hservice
    · -- no later service has the path
      have hpath : service.pathOf m ∈ service.paths := List.mem_map_of_mem hm
      have hlater : service.pathOf m ∉ pathsOf services := fun hmem =>
        hsplit.2.2 _ hpath _ hmem rfl
      rw [GeneratedService.register_eq] at hregister
      rw [addServices_lookup_of_not_mem hrest hsplit.2.1 hlater,
        (GeneratedService.added hregister).lookup (hnames _ List.mem_cons_self)]
      have hfind : service.methods.find? (fun m' => decide (service.pathOf m' = service.pathOf m)) =
          some m := by
        rcases hfind : service.methods.find? fun m' =>
          decide (service.pathOf m' = service.pathOf m) with _ | m'
        · exact absurd (decide_eq_true rfl) (List.find?_eq_none.mp hfind m hm)
        · have hsame : service.pathOf m' = service.pathOf m := by
            simpa using List.find?_some hfind
          refine congrArg some ?_
          exact List.inj_on_of_nodup_map (hnames _ List.mem_cons_self)
            (List.mem_of_find?_eq_some hfind) hm (service.methodPath_inj hsame)
      rw [hfind]
      rfl
    · exact ih hrest hsplit.2.1 hservice hm

/-- A handler is of the kind that the constant tells. -/
theorem ServiceMethod.handler_kind (serviceName : String) (m : ServiceMethod crate X) :
    m.handler.Sound ∧ m.handler.kind = (m.spec serviceName).streamType.kind := by
  obtain ⟨name, _, _, level, code⟩ := m
  cases code with
  | unary input code => exact ⟨trivial, rfl⟩
  | serverStream input code => exact ⟨rfl, rfl⟩
  | clientStream input code => exact ⟨trivial, rfl⟩
  | bidiStream input code => exact ⟨trivial, rfl⟩

/-- **A request made from the constant of a method** reaches the implementation of this method,
under whatever path the services are mounted, whether they are registered with a router or served
by their servers; and the entry point was one for the kind of the route. -/
theorem generated_client_routed {ur : UriCrates} (hlawful : crate.Lawful)
    {services : List (GeneratedService crate X)} (hnodup : (pathsOf services).Nodup)
    {service : GeneratedService crate X} (hservice : service ∈ services)
    {m : ServiceMethod crate X} (hm : m ∈ service.methods)
    (hplain : PlainPath (m.spec service.fullName).procedure)
    {config : ClientConfig} {message : ClientMessage} {options : CallOptions} {entry : EntryPoint}
    {creq : ClientRequest}
    (h : entry.request cr ur config (m.clientSpec service.fullName) message options = .ok creq)
    {r r' : Router X} (hadded : r.addServices cr debug services = some r') {s : Service X}
    (hserves : s.dispatcher = r'.dispatcher ∨ s.dispatcher = serversBefore r.dispatcher services)
    {req : HttpRequest X} (hpath : creq.uri.pathAndQuery.path = config.basePath ++ req.path) :
    s.descriptor req = some (m.descriptor service.fullName) ∧
      (m.descriptor service.fullName).kind = entry.streamType.kind ∧
      s.dispatcher.Reaches (Service.routePath req.path) m.handler entry.streamType.kind := by
  -- either way it is the dispatcher of the router
  have hdispatcher : s.dispatcher = r'.dispatcher := by
    rcases hserves with hserves | hserves
    · exact hserves
    · have hsame := generated_registration_dispatcher cr debug hlawful
        (nodup_names_of_paths hnodup) hadded
      exact hserves.trans hsame.symm
  obtain ⟨hspec, query, huri⟩ := EntryPoint.request_uri cr ur h
  have hshape := (checkClientSpec_clientSpec ur service.fullName m _ _).mp hspec
  have htext : (m.spec service.fullName).procedure.toList =
      '/' :: (service.pathOf m).toList := by
    simp [ServiceMethod.spec, Router.methodPath, GeneratedService.pathOf, toString]
  have hreq : req.path = (m.spec service.fullName).procedure := by
    rw [procedureUri_path ur hplain (by simp [htext]) huri] at hpath
    exact (String.append_right_inj _).mp hpath.symm
  have hroute : Service.routePath req.path = service.pathOf m := by
    rw [hreq, Service.routePath, htext]
    exact String.ofList_toList
  have hlookup := addServices_lookup hadded hnodup hservice hm
  have hat : r'.methodAt (service.pathOf m) = some m.handler :=
    congrArg (Option.map RegisteredMethod.method) hlookup
  obtain ⟨hsound, hkind⟩ := m.handler_kind service.fullName
  rw [hshape] at hkind
  refine ⟨?_, ?_, ?_⟩
  · rw [Service.descriptor, hdispatcher, hroute, m.descriptor_eq]
    exact congrArg (Option.map RegisteredMethod.descriptor) hlookup
  · rw [m.descriptor_eq, RegisteredMethod.descriptor_kind]
    exact hkind
  · rw [hdispatcher, hroute, ← hkind]
    exact Router.reaches hat hsound

end Routes

/-- A client of a service that is mounted under `/v1`. -/
def pingConfig : ClientConfig :=
  { plainConfig with
    baseUri := ⟨some "http", some "localhost:8080", "/v1/", by decide⟩
    defaultTimeout := none
    defaultHeaders := .empty }

/-- A service with the routes of a dispatcher, without limits to speak of. -/
def pingRoutes (dispatcher : Dispatcher Unit) : Service Unit where
  json := false
  dispatcher := dispatcher
  limits := ⟨64, 64, 64⟩
  compression := .new
  compressionPolicy := .disabled
  deadlinePolicy := ⟨0, none, none⟩
  interceptors := []
  base64Error _ := ""
  httpError _ := ""

/-- The second method of the service. -/
def watchMethod : ServiceMethod emptyCrate Unit :=
  ⟨"Watch", false, true, none, .serverStream () fun _ _ =>
    .answer (.ok ⟨[], .empty, .empty, none⟩)⟩

/-- It is asked for, under the path of the service. -/
theorem generated_client_routed_watch :
    (pingRoutes (serversBefore Router.new.dispatcher [pingService])).dispatcher.Reaches
      "pkg.Ping/Watch" watchMethod.handler .serverStreaming := by
  have hsome : (Router.new.addServices .std true [pingService]).isSome = true :=
    (addServices_isSome .std true).mpr (.inr ⟨by decide, fun path _ hmem => by cases hmem⟩)
  obtain ⟨r', hadded⟩ := Option.isSome_iff_exists.mp hsome
  obtain ⟨creq, hreq⟩ : ∃ creq, EntryPoint.serverStream.request .std laxUris pingConfig
      (watchMethod.clientSpec "pkg.Ping") (fun _ => .ok []) noOptions = .ok creq := ⟨_, rfl⟩
  have hplain : PlainPath "/pkg.Ping/Watch" := by decide
  obtain ⟨-, query, huri⟩ := EntryPoint.request_uri .std laxUris hreq
  let req : HttpRequest Unit :=
    ⟨creq.method, "/pkg.Ping/Watch", none, creq.headers, (), ⟨[], fun _ => false⟩⟩
  have hpath : creq.uri.pathAndQuery.path = pingConfig.basePath ++ req.path :=
    procedureUri_path laxUris hplain (show "/pkg.Ping/Watch".toList ≠ [] by decide) huri
  let s := pingRoutes (serversBefore Router.new.dispatcher [pingService])
  have hserves : s.dispatcher = r'.dispatcher ∨
      s.dispatcher = serversBefore Router.new.dispatcher [pingService] := .inr rfl
  obtain ⟨-, -, hreaches⟩ := generated_client_routed emptyCrate_lawful (by decide)
    (List.mem_singleton_self pingService) (List.mem_cons_of_mem _ List.mem_cons_self) hplain hreq
    hadded hserves hpath
  have hroute : Service.routePath "/pkg.Ping/Watch" = "pkg.Ping/Watch" := by decide
  rw [hroute] at hreaches
  exact hreaches

end ConnectRpc
