import ConnectRpc.Interceptors
import Mathlib.Data.List.AList
import Mathlib.Data.String.Basic

/-!
# Routers and chains

A router maps paths to methods. It is built by registering methods, by telling it more about a
method, and by merging another router into it; two dispatchers make a chain. This file follows
what a path is served by through all of these.

While overrides are not allowed nothing that was registered is replaced (`run_keeps`), and a
merge either adds all of another router or reports the paths that both have (`merge_law`). A
chain serves a path as the leftmost router does that knows it (`serves_owner`), and that router
calls the handler of the kind that it tells of the path.
-/

namespace ConnectRpc

open Lib

variable {X : Type}

/-! ## Routers -/

/-- The levels of idempotency. -/
inductive IdempotencyLevel : Type where
  | unknown
  | noSideEffects
  | idempotent
  deriving DecidableEq

/-- What is told about a method when it is registered, with its level. -/
structure RouteSpec extends Spec where
  /-- the level -/
  idempotencyLevel : IdempotencyLevel

/-- A unary handler. -/
abbrev UnaryHandler (X : Type) :=
  RequestContext X → Payload → CodecFormat → Code Empty EncodedResponse

/-- A server-streaming handler. -/
abbrev ServerStreamingHandler (X : Type) :=
  RequestContext X → Bytes → CodecFormat → Code Empty (HandlerResponse (List SourceEvent))

/-- A client-streaming handler. -/
abbrev ClientStreamingHandler (X : Type) :=
  RequestContext X → Inbound → CodecFormat → Code Empty EncodedResponse

/-- A bidi handler. -/
abbrev BidiStreamingHandler (X : Type) :=
  RequestContext X → Inbound → CodecFormat → Code Empty (HandlerResponse (List SourceEvent))

/-- `Method`. -/
inductive RouteMethod (X : Type) : Type where
  | unary (handler : UnaryHandler X) (idempotent : Bool) : RouteMethod X
  | streaming (handler : ServerStreamingHandler X) (kind : MethodKind) : RouteMethod X
  | clientStreaming (handler : ClientStreamingHandler X) : RouteMethod X
  | bidiStreaming (handler : BidiStreamingHandler X) : RouteMethod X

/-- `RegisteredMethod`. -/
structure RegisteredMethod (X : Type) where
  /-- the method -/
  method : RouteMethod X
  /-- what is known about it -/
  spec : Option RouteSpec
  /-- limits of its own -/
  limits : Option Limits

/-- A method of which nothing is known yet. -/
def RegisteredMethod.ofMethod (method : RouteMethod X) : RegisteredMethod X :=
  ⟨method, none, none⟩

/-- `Router`. -/
structure Router (X : Type) where
  /-- the methods -/
  methods : AList fun _ : String => RegisteredMethod X
  /-- whether a route may be replaced -/
  allowOverrides : Bool

/-- A path without its leading slash, as the key of a method. -/
def routeKey (procedure : String) : String :=
  match procedure.toList with
  | '/' :: rest => String.ofList rest
  | _ => procedure

namespace Router

/-- `Router::new`. -/
def new : Router X where
  methods := ∅
  allowOverrides := false

/-- `Router::insert_method`; `none` is a panic. -/
def insertMethod (r : Router X) (path : String) (method : RouteMethod X) : Option (Router X) :=
  if r.allowOverrides = false ∧ path ∈ r.methods then none
  else some { r with methods := r.methods.insert path (.ofMethod method) }

/-- The path of a method. -/
def methodPath (serviceName methodName : String) : String :=
  s!"{serviceName}/{methodName}"

/-- `Router::route` and `Router::route_idempotent`, and those for views. -/
def routeUnaryInternal (r : Router X) (serviceName methodName : String) (handler : UnaryHandler X)
    (idempotent : Bool) : Option (Router X) :=
  r.insertMethod (methodPath serviceName methodName) (.unary handler idempotent)

/-- `Router::route_server_stream`, and the one for views. -/
def routeServerStream (r : Router X) (serviceName methodName : String)
    (handler : ServerStreamingHandler X) : Option (Router X) :=
  r.insertMethod (methodPath serviceName methodName) (.streaming handler .serverStreaming)

/-- `Router::route_client_stream`, and the one for views. -/
def routeClientStream (r : Router X) (serviceName methodName : String)
    (handler : ClientStreamingHandler X) : Option (Router X) :=
  r.insertMethod (methodPath serviceName methodName) (.clientStreaming handler)

/-- `Router::route_bidi_stream`, and the one for views. -/
def routeBidiStream (r : Router X) (serviceName methodName : String)
    (handler : BidiStreamingHandler X) : Option (Router X) :=
  r.insertMethod (methodPath serviceName methodName) (.bidiStreaming handler)

/-- `Router::with_spec`. A build with assertions panics where there is no such route, or where
the level is not what the route was registered for. -/
def withSpec (debug : Bool) (r : Router X) (spec : RouteSpec) : Option (Router X) :=
  let key := routeKey spec.procedure
  match r.methods.lookup key with
  | some m =>
    let agrees := match m.method with
      | .unary _ idempotent => idempotent == decide (spec.idempotencyLevel = .noSideEffects)
      | _ => true
    if debug && !agrees then none
    else some { r with methods := r.methods.insert key { m with spec := some spec } }
  | none => if debug then none else some r

/-- `Router::with_route_limits`. -/
def withRouteLimits (r : Router X) (procedure : String) (limits : Limits) : Option (Router X) :=
  let key := routeKey procedure
  match r.methods.lookup key with
  | some m => some { r with methods := r.methods.insert key { m with limits := some limits } }
  | none => none

/-- `Router::allow_overrides`. -/
def allowingOverrides (r : Router X) : Router X :=
  { r with allowOverrides := true }

variable (cr : Crates)

/-- The paths of a merge that both routers have. -/
def conflictsOf (r other : Router X) : List String :=
  (cr.hashOrder .server other.methods.keys).filter fun path => decide (path ∈ r.methods)

/-- `Router::try_merge_in_place`: the conflicting paths, or nothing, and the router after it. -/
def tryMergeInPlace (r other : Router X) : Except (List String) Unit × Router X :=
  let conflicts := r.conflictsOf cr other
  if r.allowOverrides = false ∧ conflicts ≠ [] then
    (.error (conflicts.mergeSort fun a b => decide (a ≤ b)), r)
  else (.ok (), { r with methods := other.methods ∪ r.methods })

/-- `Router::merge`, `Router::merge_in_place` and `Router::try_merge`: there is no router after
a conflict. -/
def merge (r other : Router X) : Option (Router X) :=
  match r.tryMergeInPlace cr other with
  | (.ok _, r) => some r
  | (.error _, _) => none

end Router

/-- What can be done to a router. -/
inductive RouterOp (X : Type) : Type where
  | routeUnary (serviceName methodName : String) (handler : UnaryHandler X) (idempotent : Bool) :
      RouterOp X
  | routeServerStream (serviceName methodName : String) (handler : ServerStreamingHandler X) :
      RouterOp X
  | routeClientStream (serviceName methodName : String) (handler : ClientStreamingHandler X) :
      RouterOp X
  | routeBidiStream (serviceName methodName : String) (handler : BidiStreamingHandler X) :
      RouterOp X
  | withSpec (spec : RouteSpec) : RouterOp X
  | withRouteLimits (procedure : String) (limits : Limits) : RouterOp X
  | allowOverrides : RouterOp X
  | merge (other : Router X) : RouterOp X
  | tryMergeInPlace (other : Router X) : RouterOp X

section Building

variable (cr : Crates) (debug : Bool)

/-- The router after an operation, if there is one. -/
def RouterOp.apply (op : RouterOp X) (r : Router X) : Option (Router X) :=
  match op with
  | routeUnary serviceName methodName handler idempotent =>
    r.routeUnaryInternal serviceName methodName handler idempotent
  | routeServerStream serviceName methodName handler =>
    r.routeServerStream serviceName methodName handler
  | routeClientStream serviceName methodName handler =>
    r.routeClientStream serviceName methodName handler
  | routeBidiStream serviceName methodName handler =>
    r.routeBidiStream serviceName methodName handler
  | withSpec spec => r.withSpec debug spec
  | withRouteLimits procedure limits => r.withRouteLimits procedure limits
  | allowOverrides => some r.allowingOverrides
  | merge other => r.merge cr other
  | tryMergeInPlace other => some (r.tryMergeInPlace cr other).2

/-- The router after some operations, if none of them fails. -/
def Router.run (r : Router X) (ops : List (RouterOp X)) : Option (Router X) :=
  ops.foldlM (fun r op => op.apply cr debug r) r

/-- The router that an operation merges. -/
def RouterOp.merges : RouterOp X → Option (Router X)
  | merge other => some other
  | tryMergeInPlace other => some other
  | _ => none

/-- A router that is built from nothing, of routers that are. -/
inductive Router.Built : Router X → Prop where
  | new : Built .new
  | apply {r r' : Router X} {op : RouterOp X} (before : Built r)
      (merged : ∀ other, op.merges = some other → Built other)
      (after : op.apply cr debug r = some r') : Built r'

end Building

/-! ## What a router keeps -/

/-- The method under a path. -/
def Router.methodAt (r : Router X) (path : String) : Option (RouteMethod X) :=
  (r.methods.lookup path).map RegisteredMethod.method

/-- Everything that is registered is still registered, as the same method. -/
def Router.Keeps (r r' : Router X) : Prop :=
  ∀ path m, r.methodAt path = some m → r'.methodAt path = some m

/-- A method that streams its responses is told of as one. -/
def RouteMethod.Sound : RouteMethod X → Prop
  | streaming _ kind => kind = .serverStreaming
  | _ => True

/-- So are all methods of a router. -/
def Router.Sound (r : Router X) : Prop :=
  ∀ path m, r.methodAt path = some m → m.Sound

namespace Router

theorem mem_iff_methodAt {r : Router X} {path : String} :
    path ∈ r.methods ↔ ∃ m, r.methodAt path = some m := by
  rw [← AList.lookup_isSome, ← Option.isSome_map, Option.isSome_iff_exists]
  rfl

theorem methodAt_insert (r : Router X) (key path : String) (m : RegisteredMethod X) :
    methodAt { r with methods := r.methods.insert key m } path =
      if path = key then some m.method else r.methodAt path := by
  rw [methodAt]
  by_cases h : path = key
  · subst h
    rw [if_pos rfl, AList.lookup_insert]
    rfl
  · rw [if_neg h, AList.lookup_insert_ne h]
    rfl

theorem methodAt_union (r other : Router X) (path : String) :
    methodAt { r with methods := other.methods ∪ r.methods } path =
      (other.methodAt path).or (r.methodAt path) := by
  rw [methodAt]
  by_cases h : path ∈ other.methods
  · obtain ⟨m, hm⟩ := mem_iff_methodAt.mp h
    rw [AList.lookup_union_left h, hm]
    exact hm
  · have hnone : other.methodAt path = none := by
      rw [methodAt, AList.lookup_eq_none.mpr h]
      rfl
    rw [AList.lookup_union_right h, hnone]
    rfl

/-- Telling more about a method changes no method. -/
theorem methodAt_update {r : Router X} {key : String} {m m' : RegisteredMethod X}
    (h : r.methods.lookup key = some m) (hsame : m'.method = m.method) (path : String) :
    methodAt { r with methods := r.methods.insert key m' } path = r.methodAt path := by
  rw [methodAt_insert]
  split
  · rename_i heq
    rw [heq, methodAt, h, hsame]
    rfl
  · rfl

theorem insertMethod_eq {r r' : Router X} {path : String} {m : RouteMethod X}
    (h : r.insertMethod path m = some r') :
    (r.allowOverrides = false → r.methodAt path = none) ∧
      r' = { r with methods := r.methods.insert path (.ofMethod m) } := by
  rw [insertMethod] at h
  split at h
  · cases h
  · rename_i hfree
    refine ⟨fun hno => ?_, (Option.some.inj h).symm⟩
    have hnot : path ∉ r.methods := fun hmem => hfree ⟨hno, hmem⟩
    rw [methodAt, AList.lookup_eq_none.mpr hnot]
    rfl

end Router

/-- What an operation does to the methods: nothing, or it adds one, or those of another
router. -/
inductive RouterOp.Effect (r r' : Router X) : Option (Router X) → Prop where
  /-- no method has changed -/
  | same {other : Option (Router X)} (h : ∀ path, r'.methodAt path = r.methodAt path) :
      Effect r r' other
  /-- a method is new, or replaced if that is allowed -/
  | added {other : Option (Router X)} {key : String} {m : RouteMethod X} (sound : m.Sound)
      (free : r.allowOverrides = false → r.methodAt key = none)
      (h : ∀ path, r'.methodAt path = if path = key then some m else r.methodAt path) :
      Effect r r' other
  /-- so are those of another router -/
  | merged {other : Router X}
      (free : r.allowOverrides = false → ∀ path, other.methodAt path = none ∨ r.methodAt path = none)
      (h : ∀ path, r'.methodAt path = (other.methodAt path).or (r.methodAt path)) :
      Effect r r' (some other)

section Building

variable (cr : Crates) (debug : Bool)

theorem Router.mem_conflictsOf {r other : Router X} {path : String} :
    path ∈ r.conflictsOf cr other ↔ path ∈ r.methods ∧ path ∈ other.methods := by
  rw [conflictsOf, List.mem_filter, decide_eq_true_iff, (cr.hashOrder_perm _ _).mem_iff,
    ← AList.mem_keys]
  exact and_comm

theorem Router.tryMergeInPlace_effect (r other : Router X) :
    RouterOp.Effect r (r.tryMergeInPlace cr other).2 (some other) := by
  rw [tryMergeInPlace]
  split
  · exact .same fun _ => rfl
  · rename_i hfree
    refine .merged (fun hno path => ?_) (methodAt_union r other)
    have hnone : r.conflictsOf cr other = [] := by
      by_contra hsome
      exact hfree ⟨hno, hsome⟩
    by_contra hboth
    rw [not_or, ← ne_eq, ← ne_eq, Option.ne_none_iff_exists', Option.ne_none_iff_exists',
      ← mem_iff_methodAt, ← mem_iff_methodAt] at hboth
    have hmem := (mem_conflictsOf cr).mpr hboth.symm
    rw [hnone] at hmem
    exact List.not_mem_nil hmem

theorem Router.tryMergeInPlace_allowOverrides (r other : Router X) :
    (r.tryMergeInPlace cr other).2.allowOverrides = r.allowOverrides := by
  rw [tryMergeInPlace]
  split <;> rfl

/-- A merge that leaves a router leaves the one that merging in place does. -/
theorem Router.merge_eq {r r' other : Router X} (h : r.merge cr other = some r') :
    r' = (r.tryMergeInPlace cr other).2 := by
  rw [merge] at h
  split at h
  · rename_i heq
    rw [heq]
    exact (Option.some.inj h).symm
  · cases h

/-- What an operation does, whichever it is; overrides stay allowed once they are. -/
theorem RouterOp.apply_effect {op : RouterOp X} {r r' : Router X}
    (h : op.apply cr debug r = some r') :
    Effect r r' op.merges ∧ (r'.allowOverrides = false → r.allowOverrides = false) := by
  have hinsert {path : String} {m : RouteMethod X} (h : r.insertMethod path m = some r')
      (sound : m.Sound) :
      Effect r r' op.merges ∧ (r'.allowOverrides = false → r.allowOverrides = false) := by
    obtain ⟨hfree, rfl⟩ := Router.insertMethod_eq h
    exact ⟨.added sound hfree (r.methodAt_insert path · _), id⟩
  cases op with
  | routeUnary serviceName methodName handler idempotent => exact hinsert h trivial
  | routeServerStream serviceName methodName handler => exact hinsert h rfl
  | routeClientStream serviceName methodName handler => exact hinsert h trivial
  | routeBidiStream serviceName methodName handler => exact hinsert h trivial
  | withSpec spec =>
    rw [apply, Router.withSpec] at h
    rcases hm : r.methods.lookup (routeKey spec.procedure) with _ | m
    · simp only [hm, Option.ite_none_left_eq_some] at h
      obtain ⟨-, hsame⟩ := h
      cases hsame
      exact ⟨.same fun _ => rfl, id⟩
    · simp only [hm, Option.ite_none_left_eq_some] at h
      obtain ⟨-, hsame⟩ := h
      cases hsame
      exact ⟨.same (Router.methodAt_update hm rfl), id⟩
  | withRouteLimits procedure limits =>
    rw [apply, Router.withRouteLimits] at h
    rcases hm : r.methods.lookup (routeKey procedure) with _ | m
    · simp only [hm] at h
      cases h
    · simp only [hm] at h
      cases h
      exact ⟨.same (Router.methodAt_update hm rfl), id⟩
  | allowOverrides =>
    cases h
    exact ⟨.same fun _ => rfl, fun hno => nomatch hno⟩
  | merge other =>
    obtain rfl := Router.merge_eq cr h
    exact ⟨r.tryMergeInPlace_effect cr other, fun hno =>
      (r.tryMergeInPlace_allowOverrides cr other).symm.trans hno⟩
  | tryMergeInPlace other =>
    cases h
    exact ⟨r.tryMergeInPlace_effect cr other, fun hno =>
      (r.tryMergeInPlace_allowOverrides cr other).symm.trans hno⟩

/-- Where overrides are not allowed, an operation keeps all methods. -/
theorem RouterOp.Effect.keeps {r r' : Router X} {other : Option (Router X)}
    (h : Effect r r' other) (hno : r.allowOverrides = false) : r.Keeps r' := by
  intro path m hm
  cases h with
  | same h => rw [h, hm]
  | added sound free h =>
    rw [h]
    split
    · rename_i heq
      rw [heq, free hno] at hm
      cases hm
    · exact hm
  | merged free h =>
    rw [h]
    rcases free hno path with hother | hself
    · rw [hother, hm]
      rfl
    · rw [hself] at hm
      cases hm

/-- All methods stay sound. -/
theorem RouterOp.Effect.sound {r r' : Router X} {other : Option (Router X)}
    (h : Effect r r' other) (hr : r.Sound) (hother : ∀ o, other = some o → o.Sound) :
    r'.Sound := by
  intro path m hm
  cases h with
  | same h => exact hr path m ((h path).symm.trans hm)
  | added sound free h =>
    rw [h] at hm
    split at hm
    · cases hm
      exact sound
    · exact hr path m hm
  | @merged o free h =>
    rw [h, Option.or_eq_some_iff] at hm
    rcases hm with hm | ⟨-, hm⟩
    · exact hother o rfl path m hm
    · exact hr path m hm

/-- What is built is sound. -/
theorem Router.Built.sound {r : Router X} (h : r.Built cr debug) : r.Sound := by
  induction h with
  | new => exact fun path m hm => nomatch hm
  | apply before merged after ih ihmerged =>
    exact (RouterOp.apply_effect cr debug after).1.sound ih ihmerged

/-- **No silent replacement**: as long as overrides are not allowed at the end, all that was
registered at the start still is. -/
theorem Router.run_keeps : ∀ (ops : List (RouterOp X)) {r r' : Router X},
    r.run cr debug ops = some r' → r'.allowOverrides = false →
      r.allowOverrides = false ∧ r.Keeps r' := by
  intro ops
  induction ops with
  | nil =>
    intro r r' h hno
    cases h
    exact ⟨hno, fun _ _ hm => hm⟩
  | cons op ops ih =>
    intro r r' h hno
    rw [run, List.foldlM_cons] at h
    obtain ⟨r₁, hop, hrest⟩ := Option.bind_eq_some_iff.mp h
    obtain ⟨heffect, hflag⟩ := RouterOp.apply_effect cr debug hop
    obtain ⟨hno₁, hkeeps⟩ := ih hrest hno
    exact ⟨hflag hno₁, fun path m hm => hkeeps path m (heffect.keeps (hflag hno₁) path m hm)⟩

/-- What a merge comes to. -/
structure MergeLaw (r other : Router X) : Prop where
  /-- it fails exactly where overrides are not allowed and a path is in both -/
  fails_iff : (∃ conflicts, (r.tryMergeInPlace cr other).1 = .error conflicts) ↔
    r.allowOverrides = false ∧ ∃ path, path ∈ r.methods ∧ path ∈ other.methods
  /-- then it reports these paths, sorted, and leaves the router as it was -/
  failed : ∀ conflicts, (r.tryMergeInPlace cr other).1 = .error conflicts →
    (r.tryMergeInPlace cr other).2 = r ∧ conflicts.Pairwise (· ≤ ·) ∧ conflicts.Nodup ∧
      ∀ path, path ∈ conflicts ↔ path ∈ r.methods ∧ path ∈ other.methods
  /-- else the methods of the other router are added, and win -/
  merged : (r.tryMergeInPlace cr other).1 = .ok () → ∀ path,
    (r.tryMergeInPlace cr other).2.methods.lookup path =
      (other.methods.lookup path).or (r.methods.lookup path)

theorem Router.merge_law (r other : Router X) : MergeLaw cr r other := by
  by_cases hconflict : r.allowOverrides = false ∧ r.conflictsOf cr other ≠ []
  · have hresult : r.tryMergeInPlace cr other =
        (.error ((r.conflictsOf cr other).mergeSort fun a b => decide (a ≤ b)), r) :=
      if_pos hconflict
    obtain ⟨path, hpath⟩ := List.exists_mem_of_ne_nil _ hconflict.2
    refine ⟨iff_of_true ⟨_, congrArg Prod.fst hresult⟩
      ⟨hconflict.1, path, (mem_conflictsOf cr).mp hpath⟩, ?_, ?_⟩
    · intro conflicts h
      rw [hresult] at h ⊢
      obtain rfl := Except.error.inj h
      refine ⟨rfl, ?_, ?_, fun path => ?_⟩
      · have htrans : ∀ a b c : String, decide (a ≤ b) = true → decide (b ≤ c) = true →
            decide (a ≤ c) = true := fun a b c hab hbc =>
          decide_eq_true ((of_decide_eq_true hab).trans (of_decide_eq_true hbc))
        have htotal : ∀ a b : String, (decide (a ≤ b) || decide (b ≤ a)) = true := fun a b => by
          simpa using le_total a b
        have hsorted := List.pairwise_mergeSort htrans htotal (r.conflictsOf cr other)
        exact hsorted.imp of_decide_eq_true
      · rw [(List.mergeSort_perm _ _).nodup_iff]
        exact (((cr.hashOrder_perm _ _).nodup_iff).mpr other.methods.keys_nodup).filter _
      · rw [(List.mergeSort_perm _ _).mem_iff]
        exact mem_conflictsOf cr
    · intro h
      rw [hresult] at h
      cases h
  · have hresult : r.tryMergeInPlace cr other =
        (.ok (), { r with methods := other.methods ∪ r.methods }) :=
      if_neg hconflict
    refine ⟨iff_of_false ?_ ?_, ?_, ?_⟩
    · rintro ⟨conflicts, h⟩
      rw [hresult] at h
      cases h
    · rintro ⟨hno, path, hpath⟩
      exact hconflict ⟨hno, List.ne_nil_of_mem ((mem_conflictsOf cr).mpr hpath)⟩
    · intro conflicts h
      rw [hresult] at h
      cases h
    · intro _ path
      rw [hresult]
      by_cases hmem : path ∈ other.methods
      · obtain ⟨m, hm⟩ := Option.isSome_iff_exists.mp (AList.lookup_isSome.mpr hmem)
        rw [AList.lookup_union_left hmem, hm]
        rfl
      · rw [AList.lookup_union_right hmem, AList.lookup_eq_none.mpr hmem]
        rfl

end Building

/-! ## Dispatch -/

/-- `unimplemented_unary` and `unimplemented_streaming`. -/
def unimplementedCall {Res : Type} (path : String) : Code Empty Res :=
  .answer (.error (.unimplemented s!"method not found: {path}"))

/-- The descriptor of a method. -/
def RegisteredMethod.descriptor (m : RegisteredMethod X) : MethodDescriptor :=
  let spec := m.spec.map RouteSpec.toSpec
  match m.method with
  | .unary _ idempotent => ⟨.unary, idempotent, spec, m.limits⟩
  | .streaming _ kind => ⟨kind, false, spec, m.limits⟩
  | .clientStreaming _ => ⟨.clientStreaming, false, spec, m.limits⟩
  | .bidiStreaming _ => ⟨.bidiStreaming, false, spec, m.limits⟩

/-- A router as a dispatcher. -/
def Router.dispatcher (r : Router X) : Dispatcher X where
  lookup path := (r.methods.lookup path).map RegisteredMethod.descriptor
  callUnary path ctx request format :=
    match r.methodAt path with
    | some (.unary handler _) => handler ctx request format
    | _ => unimplementedCall path
  callServerStreaming path ctx request format :=
    match r.methodAt path with
    | some (.streaming handler _) => handler ctx request format
    | _ => unimplementedCall path
  callClientStreaming path ctx inbound format :=
    match r.methodAt path with
    | some (.clientStreaming handler) => handler ctx inbound format
    | _ => unimplementedCall path
  callBidiStreaming path ctx inbound format :=
    match r.methodAt path with
    | some (.bidiStreaming handler) => handler ctx inbound format
    | _ => unimplementedCall path

/-- `Chain`. -/
def Dispatcher.chain (first second : Dispatcher X) : Dispatcher X where
  lookup path := (first.lookup path).or (second.lookup path)
  callUnary path ctx request format :=
    if (first.lookup path).isSome then first.callUnary path ctx request format
    else second.callUnary path ctx request format
  callServerStreaming path ctx request format :=
    if (first.lookup path).isSome then first.callServerStreaming path ctx request format
    else second.callServerStreaming path ctx request format
  callClientStreaming path ctx inbound format :=
    if (first.lookup path).isSome then first.callClientStreaming path ctx inbound format
    else second.callClientStreaming path ctx inbound format
  callBidiStreaming path ctx inbound format :=
    if (first.lookup path).isSome then first.callBidiStreaming path ctx inbound format
    else second.callBidiStreaming path ctx inbound format

/-- A tree of chains over routers. -/
inductive DispatchTree (X : Type) : Type where
  | router (r : Router X) : DispatchTree X
  | chain (first second : DispatchTree X) : DispatchTree X

namespace DispatchTree

/-- The tree as a dispatcher. -/
def dispatcher : DispatchTree X → Dispatcher X
  | router r => r.dispatcher
  | chain first second => first.dispatcher.chain second.dispatcher

/-- The routers of the tree, from left to right. -/
def routers : DispatchTree X → List (Router X)
  | router r => [r]
  | chain first second => first.routers ++ second.routers

end DispatchTree

/-- A dispatcher serves a path as another one does. -/
structure Dispatcher.ServesAs (d e : Dispatcher X) (path : String) : Prop where
  /-- what it tells of the path -/
  lookup : d.lookup path = e.lookup path
  /-- unary calls -/
  callUnary : d.callUnary path = e.callUnary path
  /-- server-streaming calls -/
  callServerStreaming : d.callServerStreaming path = e.callServerStreaming path
  /-- client-streaming calls -/
  callClientStreaming : d.callClientStreaming path = e.callClientStreaming path
  /-- bidi calls -/
  callBidiStreaming : d.callBidiStreaming path = e.callBidiStreaming path

/-- A call of this kind is answered with `unimplemented`. -/
def Dispatcher.Unimplemented (d : Dispatcher X) (path : String) : MethodKind → Prop
  | .unary => d.callUnary path = fun _ _ _ => unimplementedCall path
  | .serverStreaming => d.callServerStreaming path = fun _ _ _ => unimplementedCall path
  | .clientStreaming => d.callClientStreaming path = fun _ _ _ => unimplementedCall path
  | .bidiStreaming => d.callBidiStreaming path = fun _ _ _ => unimplementedCall path

/-- A call of this kind reaches the handler of this method. -/
def Dispatcher.Reaches (d : Dispatcher X) (path : String) (m : RouteMethod X) : MethodKind → Prop
  | .unary => ∃ handler idempotent, m = .unary handler idempotent ∧ d.callUnary path = handler
  | .serverStreaming => ∃ handler kind, m = .streaming handler kind ∧
      d.callServerStreaming path = handler
  | .clientStreaming => ∃ handler, m = .clientStreaming handler ∧
      d.callClientStreaming path = handler
  | .bidiStreaming => ∃ handler, m = .bidiStreaming handler ∧ d.callBidiStreaming path = handler

theorem Dispatcher.chain_lookup (first second : Dispatcher X) (path : String) :
    (first.chain second).lookup path = (first.lookup path).or (second.lookup path) := rfl

theorem Dispatcher.ServesAs.chain_left {first second : Dispatcher X} {path : String}
    (h : (first.lookup path).isSome = true) : (first.chain second).ServesAs first path := by
  refine ⟨?_, ?_, ?_, ?_, ?_⟩
  · obtain ⟨desc, hdesc⟩ := Option.isSome_iff_exists.mp h
    rw [chain_lookup, hdesc]
    rfl
  all_goals
    funext ctx message format
    exact if_pos h

theorem Dispatcher.ServesAs.chain_right {first second : Dispatcher X} {path : String}
    (h : first.lookup path = none) : (first.chain second).ServesAs second path := by
  have hno : ¬(first.lookup path).isSome = true := by
    rw [h]
    exact Bool.false_ne_true
  refine ⟨?_, ?_, ?_, ?_, ?_⟩
  · rw [chain_lookup, h]
    rfl
  all_goals
    funext ctx message format
    exact if_neg hno

theorem Dispatcher.ServesAs.symm {d e : Dispatcher X} {path : String} (h : d.ServesAs e path) :
    e.ServesAs d path :=
  ⟨h.lookup.symm, h.callUnary.symm, h.callServerStreaming.symm, h.callClientStreaming.symm,
    h.callBidiStreaming.symm⟩

theorem Dispatcher.ServesAs.trans {d e f : Dispatcher X} {path : String} (h : d.ServesAs e path)
    (h' : e.ServesAs f path) : d.ServesAs f path :=
  ⟨h.lookup.trans h'.lookup, h.callUnary.trans h'.callUnary,
    h.callServerStreaming.trans h'.callServerStreaming,
    h.callClientStreaming.trans h'.callClientStreaming,
    h.callBidiStreaming.trans h'.callBidiStreaming⟩

/-- Serving a path alike is answering `unimplemented` alike. -/
theorem Dispatcher.ServesAs.unimplemented {d e : Dispatcher X} {path : String}
    (h : d.ServesAs e path) {kind : MethodKind} (he : e.Unimplemented path kind) :
    d.Unimplemented path kind := by
  cases kind with
  | unary => exact h.callUnary.trans he
  | serverStreaming => exact h.callServerStreaming.trans he
  | clientStreaming => exact h.callClientStreaming.trans he
  | bidiStreaming => exact h.callBidiStreaming.trans he

/-- And reaching a handler alike. -/
theorem Dispatcher.ServesAs.reaches {d e : Dispatcher X} {path : String} (h : d.ServesAs e path)
    {m : RouteMethod X} {kind : MethodKind} (he : e.Reaches path m kind) :
    d.Reaches path m kind := by
  cases kind with
  | unary =>
    obtain ⟨handler, idempotent, rfl, hcall⟩ := he
    exact ⟨handler, idempotent, rfl, h.callUnary.trans hcall⟩
  | serverStreaming =>
    obtain ⟨handler, kind, rfl, hcall⟩ := he
    exact ⟨handler, kind, rfl, h.callServerStreaming.trans hcall⟩
  | clientStreaming =>
    obtain ⟨handler, rfl, hcall⟩ := he
    exact ⟨handler, rfl, h.callClientStreaming.trans hcall⟩
  | bidiStreaming =>
    obtain ⟨handler, rfl, hcall⟩ := he
    exact ⟨handler, rfl, h.callBidiStreaming.trans hcall⟩

theorem Router.lookup_isSome {r : Router X} {path : String} :
    (r.dispatcher.lookup path).isSome = true ↔ path ∈ r.methods := by
  rw [← AList.lookup_isSome, dispatcher, Option.isSome_map]

/-- The kind that a method is told of as. -/
def RouteMethod.kind : RouteMethod X → MethodKind
  | unary _ _ => .unary
  | streaming _ kind => kind
  | clientStreaming _ => .clientStreaming
  | bidiStreaming _ => .bidiStreaming

theorem RegisteredMethod.descriptor_kind (m : RegisteredMethod X) :
    m.descriptor.kind = m.method.kind := by
  rw [descriptor]
  cases m.method <;> rfl

/-- A call that reaches a method is of the kind that the method is told of as. -/
theorem Dispatcher.Reaches.kind_eq {d : Dispatcher X} {path : String} {m : RouteMethod X}
    {kind : MethodKind} (h : d.Reaches path m kind) (hsound : m.Sound) : m.kind = kind := by
  cases kind with
  | unary =>
    obtain ⟨handler, idempotent, rfl, -⟩ := h
    rfl
  | serverStreaming =>
    obtain ⟨handler, told, rfl, -⟩ := h
    exact hsound
  | clientStreaming =>
    obtain ⟨handler, rfl, -⟩ := h
    rfl
  | bidiStreaming =>
    obtain ⟨handler, rfl, -⟩ := h
    rfl

/-- The calls of the kind of a method reach its handler. -/
theorem Router.reaches {r : Router X} {path : String} {m : RouteMethod X}
    (hm : r.methodAt path = some m) (hsound : m.Sound) : r.dispatcher.Reaches path m m.kind := by
  cases m with
  | unary handler idempotent =>
    refine ⟨handler, idempotent, rfl, ?_⟩
    funext ctx request format
    simp only [dispatcher, hm]
  | streaming handler told =>
    -- the one kind that it may be told of as
    have htold : told = .serverStreaming := hsound
    subst htold
    refine ⟨handler, _, rfl, ?_⟩
    funext ctx request format
    simp only [dispatcher, hm]
  | clientStreaming handler =>
    refine ⟨handler, rfl, ?_⟩
    funext ctx inbound format
    simp only [dispatcher, hm]
  | bidiStreaming handler =>
    refine ⟨handler, rfl, ?_⟩
    funext ctx inbound format
    simp only [dispatcher, hm]

/-- No others do. -/
theorem Router.reaches_iff {r : Router X} {path : String} {m : RouteMethod X}
    (hm : r.methodAt path = some m) (hsound : m.Sound) (kind : MethodKind) :
    r.dispatcher.Reaches path m kind ↔ m.kind = kind := by
  refine ⟨fun h => h.kind_eq hsound, ?_⟩
  rintro rfl
  exact Router.reaches hm hsound

/-- Calls of a kind that the method under the path is not of are not implemented. -/
theorem Router.unimplemented {r : Router X} {path : String} {kind : MethodKind}
    (h : ∀ m, r.methodAt path = some m → m.Sound ∧ m.kind ≠ kind) :
    r.dispatcher.Unimplemented path kind := by
  rcases hm : r.methodAt path with _ | m
  · cases kind
    all_goals
      funext ctx message format
      simp only [dispatcher, hm]
  · obtain ⟨hsound, hkind⟩ := h m hm
    cases m with
    | unary handler idempotent =>
      cases kind
      any_goals exact absurd rfl hkind
      all_goals
        funext ctx message format
        simp only [dispatcher, hm]
    | streaming handler told =>
      have htold : told = .serverStreaming := hsound
      subst htold
      cases kind
      any_goals exact absurd rfl hkind
      all_goals
        funext ctx message format
        simp only [dispatcher, hm]
    | clientStreaming handler =>
      cases kind
      any_goals exact absurd rfl hkind
      all_goals
        funext ctx message format
        simp only [dispatcher, hm]
    | bidiStreaming handler =>
      cases kind
      any_goals exact absurd rfl hkind
      all_goals
        funext ctx message format
        simp only [dispatcher, hm]

namespace DispatchTree

/-- The leftmost router that knows a path. -/
def owner (t : DispatchTree X) (path : String) : Option (Router X) :=
  t.routers.find? fun r => decide (path ∈ r.methods)

/-- Routers with the same under a path serve it alike. -/
theorem servesAs_of_lookup {r r' : Router X} {path : String}
    (h : r.methods.lookup path = r'.methods.lookup path) :
    r.dispatcher.ServesAs r'.dispatcher path := by
  have hat : r.methodAt path = r'.methodAt path := congrArg (Option.map RegisteredMethod.method) h
  refine ⟨congrArg (Option.map RegisteredMethod.descriptor) h, ?_, ?_, ?_, ?_⟩
  all_goals
    funext ctx message format
    simp only [Router.dispatcher, hat]

theorem owner_chain (first second : DispatchTree X) (path : String) :
    (first.chain second).owner path = (first.owner path).or (second.owner path) :=
  List.find?_append

/-- The owner of a path knows it. -/
theorem mem_of_owner {t : DispatchTree X} {path : String} {r : Router X}
    (h : t.owner path = some r) : r ∈ t.routers ∧ path ∈ r.methods := by
  rw [owner] at h
  have hknows := List.find?_some h
  exact ⟨List.mem_of_find?_eq_some h, of_decide_eq_true hknows⟩

/-- A tree serves a path as the leftmost router that knows it, and without one as a router
without methods. -/
theorem serves_owner (t : DispatchTree X) (path : String) :
    t.dispatcher.ServesAs ((t.owner path).getD .new).dispatcher path := by
  induction t with
  | router r =>
    rw [owner, routers, List.find?_singleton]
    by_cases hmem : path ∈ r.methods
    · rw [if_pos (decide_eq_true hmem)]
      exact servesAs_of_lookup rfl
    · rw [if_neg (by simpa using hmem)]
      exact servesAs_of_lookup (AList.lookup_eq_none.mpr hmem)
  | chain first second ihfirst ihsecond =>
    have hlookup := ihfirst.lookup
    rw [owner_chain]
    rcases howner : first.owner path with _ | r
    · rw [howner] at hlookup
      exact (Dispatcher.ServesAs.chain_right hlookup).trans ihsecond
    · rw [howner] at hlookup ihfirst
      have hknown : (first.dispatcher.lookup path).isSome = true := by
        rw [hlookup]
        exact Router.lookup_isSome.mpr (mem_of_owner howner).2
      exact (Dispatcher.ServesAs.chain_left hknown).trans ihfirst

end DispatchTree

/-- How a tree of chains dispatches a path. -/
structure DispatchLaw (t : DispatchTree X) (path : String) : Prop where
  /-- the leftmost router that knows the path serves it, in every way -/
  leftmost : ∀ r, t.owner path = some r → t.dispatcher.ServesAs r.dispatcher path
  /-- a path is known exactly if some router has it -/
  known_iff : (∃ desc, t.dispatcher.lookup path = some desc) ↔ ∃ r ∈ t.routers, path ∈ r.methods
  /-- a kind is told of the path exactly if calls of that kind reach the handler that is
  registered -/
  reaches_iff : ∀ kind, (∃ desc, t.dispatcher.lookup path = some desc ∧ desc.kind = kind) ↔
    ∃ r m, t.owner path = some r ∧ r.methodAt path = some m ∧ t.dispatcher.Reaches path m kind
  /-- calls of every other kind are not implemented -/
  unimplemented : ∀ kind, (∀ desc, t.dispatcher.lookup path = some desc → desc.kind ≠ kind) →
    t.dispatcher.Unimplemented path kind

/-- It is that of the leftmost router that knows the path. -/
theorem DispatchTree.dispatch_law {t : DispatchTree X} (h : ∀ r ∈ t.routers, r.Sound)
    (path : String) : DispatchLaw t path := by
  have hserves := t.serves_owner path
  rcases howner : t.owner path with _ | r
  · rw [howner] at hserves
    have hnone : t.dispatcher.lookup path = none := hserves.lookup
    have hunknown : ∀ desc, t.dispatcher.lookup path ≠ some desc := by
      intro desc hdesc
      rw [hnone] at hdesc
      cases hdesc
    refine ⟨?_, ?_, fun kind => ?_, fun kind _ => ?_⟩
    · intro r hr
      rw [howner] at hr
      cases hr
    · refine iff_of_false (fun ⟨desc, hdesc⟩ => hunknown desc hdesc) ?_
      rintro ⟨r, hr, hmem⟩
      exact List.find?_eq_none.mp howner r hr (decide_eq_true hmem)
    · refine iff_of_false (fun ⟨desc, hdesc, _⟩ => hunknown desc hdesc) ?_
      rintro ⟨r, m, hr, -⟩
      rw [howner] at hr
      cases hr
    · exact hserves.unimplemented (Router.unimplemented fun m hm => nomatch hm)
  · rw [howner] at hserves
    have hserves : t.dispatcher.ServesAs r.dispatcher path := hserves
    obtain ⟨hmem, hknows⟩ := mem_of_owner howner
    obtain ⟨m, hm⟩ := Option.isSome_iff_exists.mp (AList.lookup_isSome.mpr hknows)
    have hat : r.methodAt path = some m.method := congrArg (Option.map RegisteredMethod.method) hm
    have hsound := h r hmem path m.method hat
    have hlookup : t.dispatcher.lookup path = some m.descriptor :=
      hserves.lookup.trans (congrArg (Option.map RegisteredMethod.descriptor) hm)
    refine ⟨?_, ?_, fun kind => ?_, fun kind hother => ?_⟩
    · intro r' hr'
      rw [howner] at hr'
      obtain rfl := Option.some.inj hr'
      exact hserves
    · exact iff_of_true ⟨_, hlookup⟩ ⟨r, hmem, hknows⟩
    · constructor
      · rintro ⟨desc, hdesc, hkind⟩
        rw [hlookup] at hdesc
        obtain rfl := Option.some.inj hdesc
        rw [m.descriptor_kind] at hkind
        exact ⟨r, m.method, howner, hat,
          hserves.reaches ((Router.reaches_iff hat hsound kind).mpr hkind)⟩
      · rintro ⟨r', m', hr', hm', hreaches⟩
        rw [howner] at hr'
        obtain rfl := Option.some.inj hr'
        rw [hat] at hm'
        obtain rfl := Option.some.inj hm'
        have hkind := (Router.reaches_iff hat hsound kind).mp (hserves.symm.reaches hreaches)
        exact ⟨_, hlookup, m.descriptor_kind.trans hkind⟩
    · refine hserves.unimplemented (Router.unimplemented fun m' hm' => ?_)
      rw [hat] at hm'
      obtain rfl := Option.some.inj hm'
      exact ⟨hsound, fun hkind => hother _ hlookup (m.descriptor_kind.trans hkind)⟩

/-- **Dispatch is consistent**: no registration is replaced while overrides are not allowed,
merges keep their law, and every tree of chains over routers that are built from nothing
dispatches every path by that of the leftmost router that knows it. -/
theorem dispatch_consistency (cr : Crates) (debug : Bool) :
    (∀ (r r' : Router X) (ops : List (RouterOp X)), r.run cr debug ops = some r' →
      r'.allowOverrides = false → r.Keeps r') ∧
    (∀ r other : Router X, MergeLaw cr r other) ∧
    ∀ t : DispatchTree X, (∀ r ∈ t.routers, r.Built cr debug) → ∀ path, DispatchLaw t path :=
  ⟨fun _ _ ops hrun hno => (Router.run_keeps cr debug ops hrun hno).2, Router.merge_law cr,
    fun _ hbuilt => DispatchTree.dispatch_law fun r hr => (hbuilt r hr).sound cr debug⟩

end ConnectRpc
