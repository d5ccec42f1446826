import ConnectRpc.ClientRequest
import ConnectRpc.PayloadCache
import ConnectRpc.Router

/-!
# Generated services

For every service the generator writes a trait, and two ways to serve what implements it: the
methods can be registered with a router, which looks them up in a map and calls them through
wrappers that decode the request, and there is a server that matches on the name of the method and
decodes the request in place. The two are written by different parts of the generator, and they
decode with different functions.

`generated_registration` says that they are the same: a router after any number of registrations
dispatches as the chain of the servers in front of what the router was before, and a registration
panics exactly where a path would be taken twice.
-/

namespace ConnectRpc

open Lib

/-! ## Decoding requests -/

/-- `buffa::DecodeError`. -/
structure DecodeError where
  /-- whether it is `ElementMemoryLimitExceeded` -/
  elementMemoryLimitExceeded : Bool
  /-- the error as it is shown -/
  shown : String

/-- What generated code uses of the messages of a program and of their views. -/
structure ServiceCrate extends MessageCrate where
  /-- `Message::encode_to_vec` -/
  encodeToVec : (t : Ty) → Msg t → Bytes
  /-- `HasMessageView::View` -/
  viewOf : Ty → ViewTy
  /-- the views of a type, borrowed from a buffer -/
  View : ViewTy → Type
  /-- `OwnedView::reborrow` -/
  reborrow : {v : ViewTy} → OwnedView v → View v
  /-- `OwnedView::bytes` -/
  bytes : {v : ViewTy} → OwnedView v → Bytes
  /-- `OwnedView::decode_with_options` -/
  decodeOwned : (v : ViewTy) → DecodeOptions → Bytes → Except DecodeError (OwnedView v)
  /-- `DecodeOptions::decode_view` -/
  decodeView : (v : ViewTy) → DecodeOptions → Bytes → Except DecodeError (View v)

/-- An owned view is the view of the buffer that it owns. -/
def ServiceCrate.Lawful (crate : ServiceCrate) : Prop :=
  ∀ v options b,
    (crate.decodeOwned v options b).map (fun req => (crate.reborrow req, crate.bytes req)) =
      (crate.decodeView v options b).map (·, b)

variable {crate : ServiceCrate} {X : Type}

/-- `decode_request_error`. -/
def decodeRequestError (e : DecodeError) : ConnectError :=
  if e.elementMemoryLimitExceeded then
    .invalidArgument (s!"failed to decode proto request: {e.shown}; if this peer is trusted, " ++
      "raise the limit with Limits::with_element_memory_limit")
  else .invalidArgument s!"failed to decode proto request: {e.shown}"

/-- `request_proto_bytes`. -/
def requestProtoBytes (t : crate.Ty) (request : Bytes) (format : CodecFormat) :
    Except ConnectError Bytes :=
  match format with
  | .proto => .ok request
  | .json => (decodeJson t request).map (crate.encodeToVec t)

/-- `decode_request_view`. -/
def decodeRequestView (t : crate.Ty) (request : Bytes) (format : CodecFormat)
    (options : DecodeOptions) : Except ConnectError (crate.OwnedView (crate.viewOf t)) :=
  (requestProtoBytes t request format).bind fun body =>
    (crate.decodeOwned (crate.viewOf t) options body).mapError decodeRequestError

/-- `decode_borrowed_request_view`. -/
def decodeBorrowedRequestView (t : crate.Ty) (body : Bytes) (options : DecodeOptions) :
    Except ConnectError (crate.View (crate.viewOf t)) :=
  (crate.decodeView (crate.viewOf t) options body).mapError decodeRequestError

/-- `ServiceRequest`: a view, and the bytes that it is a view of. -/
structure ServiceRequest (crate : ServiceCrate) (t : crate.Ty) where
  /-- the view -/
  view : crate.View (crate.viewOf t)
  /-- its bytes -/
  bytes : Bytes

/-- `StreamMessage`. -/
structure StreamMessage (crate : ServiceCrate) (t : crate.Ty) where
  /-- the view -/
  view : crate.OwnedView (crate.viewOf t)

/-! ## Typed streams -/

/-- A request stream of messages of some type. -/
inductive InboundStream (α : Type) : Type where
  /-- what a stream of one message yields first -/
  | once : Option (Except ConnectError α) → InboundStream α
  /-- those of the request stream, which is polled as part of the program -/
  | requests

/-- What a poll of such a stream has answered. -/
abbrev StreamAnswerOf (α : Type) := Option (Option (Except ConnectError α))

/-- The code of a handler that polls such a stream. -/
abbrev StreamCode (α Res : Type) :=
  Program RequestAction (StreamAnswerOf α) Empty (Except ConnectError Res)

/-- The request stream as the dispatcher hands it over, of encoded messages. -/
def Inbound.stream : Inbound → InboundStream Bytes
  | .once first => .once (first.map fun payload => payload.bind Payload.encoded)
  | .requests => .requests

/-- What a handler of messages of one type makes of a stream of another, whose items are mapped
one by one. -/
def onMapped {α β Res : Type} (f : α → Except ConnectError β)
    (handler : InboundStream β → StreamCode β Res) (stream : InboundStream α) : StreamCode α Res :=
  let mapped : InboundStream β := match stream with
    | .once first => .once (first.map fun item => item.bind f)
    | .requests => .requests
  (handler mapped).reading fun answer => answer.map fun polled => polled.map fun item => item.bind f

/-- A body that is encoded when the codec is known: `Encodable::encode_segments`. -/
abbrev Encodable := CodecFormat → Except ConnectError EncodedBody

/-- What a handler that streams yields. -/
abbrev BodyStream := List (Poll (Except ConnectError Encodable))

/-- `Response::encode`. -/
def HandlerResponse.encode (resp : HandlerResponse Encodable) (codec : CodecFormat) :
    Except ConnectError EncodedResponse :=
  (resp.body codec).map fun body => resp.mapBody fun _ => body

/-- `encode_response_stream`. -/
def encodeResponseStream (stream : BodyStream) (format : CodecFormat) : List SourceEvent :=
  stream.map fun
    | .pending => .pending
    | .ready (.error e) => .error e
    | .ready (.ok res) =>
      match res format with
      | .ok body => .item body
      | .error e => .error e

/-! ## Handlers of views -/

/-- Go on with a request that could be decoded. -/
def orAnswer {α Res : Type} (decoded : Except ConnectError α) (go : α → Code Empty Res) :
    Code Empty Res :=
  match decoded with
  | .error e => .answer (.error e)
  | .ok req => go req

/-- `UnaryViewHandlerWrapper::call_erased`. -/
def unaryViewHandlerWrapper (t : crate.Ty)
    (handler : RequestContext X → crate.OwnedView (crate.viewOf t) → CodecFormat →
      Code Empty EncodedResponse) : UnaryHandler X :=
  fun ctx request format =>
    orAnswer (request.encoded.bind (decodeRequestView t · format ctx.decodeOptions)) fun req =>
      handler ctx req format

/-- `ServerStreamingViewHandlerWrapper::call_erased`. -/
def serverStreamingViewHandlerWrapper (t : crate.Ty)
    (handler : RequestContext X → crate.OwnedView (crate.viewOf t) →
      Code Empty (HandlerResponse BodyStream)) : ServerStreamingHandler X :=
  fun ctx request format =>
    orAnswer (decodeRequestView t request format ctx.decodeOptions) fun req =>
      (handler ctx req).map fun res => res.map fun resp =>
        resp.mapBody (encodeResponseStream · format)

/-- `ClientStreamingViewHandlerWrapper::call_erased`. -/
def clientStreamingViewHandlerWrapper (t : crate.Ty)
    (handler : RequestContext X → CodecFormat → InboundStream (crate.OwnedView (crate.viewOf t)) →
      StreamCode (crate.OwnedView (crate.viewOf t)) EncodedResponse) : ClientStreamingHandler X :=
  fun ctx inbound format =>
    onMapped (decodeRequestView t · format ctx.decodeOptions) (handler ctx format) inbound.stream

/-- `BidiStreamingViewHandlerWrapper::call_erased`. -/
def bidiStreamingViewHandlerWrapper (t : crate.Ty)
    (handler : RequestContext X → InboundStream (crate.OwnedView (crate.viewOf t)) →
      StreamCode (crate.OwnedView (crate.viewOf t)) (HandlerResponse BodyStream)) :
    BidiStreamingHandler X :=
  fun ctx inbound format =>
    (onMapped (decodeRequestView t · format ctx.decodeOptions) (handler ctx) inbound.stream).map
      fun res => res.map fun resp => resp.mapBody (encodeResponseStream · format)

/-! ## Services -/

/-- `MethodOptions::idempotency_level`. -/
inductive MethodOptions.IdempotencyLevel : Type where
  | idempotencyUnknown
  | noSideEffects
  | idempotent
  deriving DecidableEq

/-- How a type implements a method of the generated trait; the shape of the method decides on the
signature. -/
inductive TraitMethod (crate : ServiceCrate) (X : Type) :
    (clientStreaming serverStreaming : Bool) → Type where
  | unary (input : crate.Ty)
      (code : RequestContext X → ServiceRequest crate input →
        Code Empty (HandlerResponse Encodable)) : TraitMethod crate X false false
  | serverStream (input : crate.Ty)
      (code : RequestContext X → ServiceRequest crate input →
        Code Empty (HandlerResponse BodyStream)) : TraitMethod crate X false true
  | clientStream (input : crate.Ty)
      (code : RequestContext X → InboundStream (StreamMessage crate input) →
        StreamCode (StreamMessage crate input) (HandlerResponse Encodable)) :
      TraitMethod crate X true false
  | bidiStream (input : crate.Ty)
      (code : RequestContext X → InboundStream (StreamMessage crate input) →
        StreamCode (StreamMessage crate input) (HandlerResponse BodyStream)) :
      TraitMethod crate X true true

/-- A method of a service, and how it is implemented. -/
structure ServiceMethod (crate : ServiceCrate) (X : Type) where
  /-- its name -/
  name : String
  /-- whether it takes a stream -/
  clientStreaming : Bool
  /-- whether it answers with one -/
  serverStreaming : Bool
  /-- the level that the options give it -/
  idempotencyLevel : Option MethodOptions.IdempotencyLevel
  /-- the implementation -/
  code : TraitMethod crate X clientStreaming serverStreaming

/-- A service, and how it is implemented. -/
structure GeneratedService (crate : ServiceCrate) (X : Type) where
  /-- the name, after that of the package -/
  fullName : String
  /-- the methods -/
  methods : List (ServiceMethod crate X)

/-- A generated constant that describes a method. -/
structure SpecConst extends RouteSpec where
  /-- its shape -/
  streamType : StreamType
  /-- the side it is for -/
  origin : SpecOrigin

namespace ServiceMethod

/-- Whether a method has no side effects. -/
def isIdempotent (m : ServiceMethod crate X) : Bool :=
  (m.idempotencyLevel.map fun level => decide (level = .noSideEffects)).getD false

/-- The `_SPEC` constant of a method. -/
def spec (serviceName : String) (m : ServiceMethod crate X) : SpecConst where
  procedure := s!"/{serviceName}/{m.name}"
  streamType := match m.clientStreaming, m.serverStreaming with
    | true, true => .bidiStream
    | true, false => .clientStream
    | false, true => .serverStream
    | false, false => .unary
  origin := .server
  idempotencyLevel := match m.idempotencyLevel with
    | some .noSideEffects => .noSideEffects
    | some .idempotent => .idempotent
    | _ => .unknown

/-! ### Registration -/

/-- A request as the methods of the trait take it, from an owned view. -/
def requestOf {t : crate.Ty} (req : crate.OwnedView (crate.viewOf t)) : ServiceRequest crate t :=
  ⟨crate.reborrow req, crate.bytes req⟩

/-- The handler that is registered for a method. -/
def handler (m : ServiceMethod crate X) : RouteMethod X :=
  match m.clientStreaming, m.serverStreaming, m.code with
  | false, true, .serverStream input code =>
    .streaming (serverStreamingViewHandlerWrapper input fun ctx req => code ctx (requestOf req))
      .serverStreaming
  | true, false, .clientStream input code =>
    .clientStreaming (clientStreamingViewHandlerWrapper input fun ctx format stream =>
      (onMapped (fun req => .ok (StreamMessage.mk req)) (code ctx) stream).map fun res =>
        res.bind fun resp => resp.encode format)
  | true, true, .bidiStream input code =>
    .bidiStreaming (bidiStreamingViewHandlerWrapper input fun ctx stream =>
      onMapped (fun req => .ok (StreamMessage.mk req)) (code ctx) stream)
  | false, false, .unary input code =>
    .unary (unaryViewHandlerWrapper input fun ctx req format =>
      (code ctx (requestOf req)).map fun res => res.bind fun resp => resp.encode format)
      m.isIdempotent

/-- How a method is registered. -/
def route (serviceName : String) (m : ServiceMethod crate X) : RouterOp X :=
  match m.handler with
  | .unary handler idempotent => .routeUnary serviceName m.name handler idempotent
  | .streaming handler _ => .routeServerStream serviceName m.name handler
  | .clientStreaming handler => .routeClientStream serviceName m.name handler
  | .bidiStreaming handler => .routeBidiStream serviceName m.name handler

/-! ### The arms of a server -/

/-- What the server tells of a method. -/
def descriptor (serviceName : String) (m : ServiceMethod crate X) : MethodDescriptor :=
  let desc : MethodDescriptor :=
    if m.clientStreaming ∧ m.serverStreaming then ⟨.bidiStreaming, false, none, none⟩
    else if m.clientStreaming then ⟨.clientStreaming, false, none, none⟩
    else if m.serverStreaming then ⟨.serverStreaming, false, none, none⟩
    else ⟨.unary, m.isIdempotent, none, none⟩
  { desc with spec := some (m.spec serviceName).toSpec }

/-- The arm of `call_unary`. -/
def unaryArm (m : ServiceMethod crate X) : Option (UnaryHandler X) :=
  match m.clientStreaming, m.serverStreaming, m.code with
  | false, false, .unary input code => some fun ctx request format =>
    orAnswer (request.encoded.bind (requestProtoBytes input · format)) fun body =>
      orAnswer (decodeBorrowedRequestView input body ctx.decodeOptions) fun req =>
        (code ctx ⟨req, body⟩).map fun res => res.bind fun resp => resp.encode format
  | _, _, _ => none

/-- The arm of `call_server_streaming`. -/
def serverStreamArm (m : ServiceMethod crate X) : Option (ServerStreamingHandler X) :=
  match m.clientStreaming, m.serverStreaming, m.code with
  | false, true, .serverStream input code => some fun ctx request format =>
    orAnswer (requestProtoBytes input request format) fun body =>
      orAnswer (decodeBorrowedRequestView input body ctx.decodeOptions) fun req =>
        (code ctx ⟨req, body⟩).map fun res => res.map fun resp =>
          resp.mapBody (encodeResponseStream · format)
  | _, _, _ => none

/-- `decode_message_request_stream`, in front of a handler. -/
def onMessages {Res : Type} (input : crate.Ty) (format : CodecFormat) (options : DecodeOptions)
    (handler : InboundStream (StreamMessage crate input) → StreamCode (StreamMessage crate input) Res)
    (inbound : Inbound) : Code Empty Res :=
  onMapped (fun raw => (decodeRequestView input raw format options).map StreamMessage.mk) handler
    inbound.stream

/-- The arm of `call_client_streaming`. -/
def clientStreamArm (m : ServiceMethod crate X) : Option (ClientStreamingHandler X) :=
  match m.clientStreaming, m.serverStreaming, m.code with
  | true, false, .clientStream input code => some fun ctx inbound format =>
    (onMessages input format ctx.decodeOptions (code ctx) inbound).map fun res =>
      res.bind fun resp => resp.encode format
  | _, _, _ => none

/-- The arm of `call_bidi_streaming`. -/
def bidiStreamArm (m : ServiceMethod crate X) : Option (BidiStreamingHandler X) :=
  match m.clientStreaming, m.serverStreaming, m.code with
  | true, true, .bidiStream input code => some fun ctx inbound format =>
    (onMessages input format ctx.decodeOptions (code ctx) inbound).map fun res =>
      res.map fun resp => resp.mapBody (encodeResponseStream · format)
  | _, _, _ => none

end ServiceMethod

namespace GeneratedService

/-- The paths of the methods. -/
def paths (service : GeneratedService crate X) : List String :=
  service.methods.map fun m => Router.methodPath service.fullName m.name

/-- What `register` does to a router: every method is routed, and told of. -/
def registration (service : GeneratedService crate X) : List (RouterOp X) :=
  service.methods.flatMap fun m =>
    [m.route service.fullName, .withSpec (m.spec service.fullName).toRouteSpec]

/-- The name of the method that a path is of. -/
def methodOf (service : GeneratedService crate X) (path : String) : Option String :=
  (stripPrefix (service.fullName ++ "/").toList path.toList).map String.ofList

/-- The arm for a path, among those of the methods that have one. -/
def arm {β : Type} (service : GeneratedService crate X) (armOf : ServiceMethod crate X → Option β)
    (path : String) : Option β :=
  (service.methodOf path).bind fun method =>
    (service.methods.filterMap fun m => (armOf m).map (m.name, ·)).lookup method

/-- The generated server. -/
def server (service : GeneratedService crate X) : Dispatcher X where
  lookup path := service.arm (fun m => some (m.descriptor service.fullName)) path
  callUnary path ctx request format :=
    match service.arm ServiceMethod.unaryArm path with
    | some call => call ctx request format
    | none => unimplementedCall path
  callServerStreaming path ctx request format :=
    match service.arm ServiceMethod.serverStreamArm path with
    | some call => call ctx request format
    | none => unimplementedCall path
  callClientStreaming path ctx inbound format :=
    match service.arm ServiceMethod.clientStreamArm path with
    | some call => call ctx inbound format
    | none => unimplementedCall path
  callBidiStreaming path ctx inbound format :=
    match service.arm ServiceMethod.bidiStreamArm path with
    | some call => call ctx inbound format
    | none => unimplementedCall path

end GeneratedService

/-! ## The two ways agree -/

/-- Mapping the items of a stream twice is mapping them once. -/
theorem onMapped_onMapped {α β γ Res : Type} (f : α → Except ConnectError β)
    (g : β → Except ConnectError γ) (handler : InboundStream γ → StreamCode γ Res)
    (stream : InboundStream α) :
    onMapped f (onMapped g handler) stream = onMapped (fun a => (f a).bind g) handler stream := by
  have hitem : ∀ item : Except ConnectError α,
      (item.bind f).bind g = item.bind fun a => (f a).bind g := by
    rintro (e | a)
    · rfl
    · rfl
  rcases stream with first | -
  · simp only [onMapped, Program.reading_reading]
    congr 1
    · funext answer
      rcases answer with _ | _ | item <;> simp [hitem]
    · rcases first with _ | item <;> simp [hitem]
  · simp only [onMapped, Program.reading_reading]
    congr 1
    funext answer
    rcases answer with _ | _ | item <;> simp [hitem]

/-- Changing the answer of a handler does not depend on how its stream is mapped. -/
theorem onMapped_map {α β Res Res' : Type} (f : α → Except ConnectError β)
    (g : Except ConnectError Res → Except ConnectError Res')
    (handler : InboundStream β → StreamCode β Res) (stream : InboundStream α) :
    onMapped f (fun stream => (handler stream).map g) stream = (onMapped f handler stream).map g := by
  rcases stream with first | -
  · exact Program.map_reading _ _ _
  · exact Program.map_reading _ _ _

/-- The methods of the trait get the same request, whichever way it is decoded. -/
theorem orAnswer_decoded (hlawful : crate.Lawful) {Res : Type} {t : crate.Ty} {request : Bytes}
    {format : CodecFormat} {options : DecodeOptions}
    (go : ServiceRequest crate t → Code Empty Res) :
    (orAnswer (decodeRequestView t request format options) fun req =>
        go (ServiceMethod.requestOf req)) =
      orAnswer (requestProtoBytes t request format) fun body =>
        orAnswer (decodeBorrowedRequestView t body options) fun req => go ⟨req, body⟩ := by
  rw [decodeRequestView]
  rcases requestProtoBytes t request format with e | body
  · rfl
  · have hview := hlawful (crate.viewOf t) options body
    simp only [decodeBorrowedRequestView]
    rcases howned : crate.decodeOwned (crate.viewOf t) options body with e | req
    · rw [howned] at hview
      rcases hborrowed : crate.decodeView (crate.viewOf t) options body with e' | view
      · rw [hborrowed] at hview
        obtain rfl := Except.error.inj hview
        simp [orAnswer, Except.bind, Except.mapError, howned, hborrowed]
      · rw [hborrowed] at hview
        cases hview
    · rw [howned] at hview
      rcases hborrowed : crate.decodeView (crate.viewOf t) options body with e' | view
      · rw [hborrowed] at hview
        cases hview
      · rw [hborrowed] at hview
        have hpair := Except.ok.inj hview
        obtain ⟨hreborrow, hbytes⟩ := Prod.mk.inj hpair
        simp [orAnswer, Except.bind, Except.mapError, howned, hborrowed, ServiceMethod.requestOf,
          hreborrow, hbytes]

namespace RouteMethod

/-- The handler, if calls of this kind reach one. -/
def unaryHandler : RouteMethod X → Option (UnaryHandler X)
  | unary handler _ => some handler
  | _ => none

@[inherit_doc unaryHandler]
def serverStreamHandler : RouteMethod X → Option (ServerStreamingHandler X)
  | streaming handler _ => some handler
  | _ => none

@[inherit_doc unaryHandler]
def clientStreamHandler : RouteMethod X → Option (ClientStreamingHandler X)
  | clientStreaming handler => some handler
  | _ => none

@[inherit_doc unaryHandler]
def bidiStreamHandler : RouteMethod X → Option (BidiStreamingHandler X)
  | bidiStreaming handler => some handler
  | _ => none

end RouteMethod

namespace ServiceMethod

/-- **The arms of a server are the handlers that are registered**, for every kind of call. -/
theorem unaryArm_eq (hlawful : crate.Lawful) (m : ServiceMethod crate X) :
    m.unaryArm = m.handler.unaryHandler := by
  obtain ⟨name, _, _, level, code⟩ := m
  cases code with
  | unary input code =>
    refine congrArg some ?_
    funext ctx request format
    simp only [unaryViewHandlerWrapper]
    rcases request.encoded with e | encoded
    · rfl
    · exact (orAnswer_decoded hlawful fun req =>
        (code ctx req).map fun res => res.bind fun resp => resp.encode format).symm
  | serverStream input code => rfl
  | clientStream input code => rfl
  | bidiStream input code => rfl

theorem serverStreamArm_eq (hlawful : crate.Lawful) (m : ServiceMethod crate X) :
    m.serverStreamArm = m.handler.serverStreamHandler := by
  obtain ⟨name, _, _, level, code⟩ := m
  cases code with
  | serverStream input code =>
    refine congrArg some ?_
    funext ctx request format
    exact (orAnswer_decoded hlawful fun req => (code ctx req).map fun res => res.map fun resp =>
      resp.mapBody (encodeResponseStream · format)).symm
  | unary input code => rfl
  | clientStream input code => rfl
  | bidiStream input code => rfl

/-- The messages of a stream, as both ways hand them over. -/
theorem onMessages_eq {Res : Type} (input : crate.Ty) (format : CodecFormat)
    (options : DecodeOptions)
    (handler : InboundStream (StreamMessage crate input) → StreamCode (StreamMessage crate input) Res)
    (inbound : Inbound) :
    onMessages input format options handler inbound =
      onMapped (decodeRequestView input · format options)
        (onMapped (fun req => .ok (StreamMessage.mk req)) handler) inbound.stream := by
  rw [onMapped_onMapped]
  have hitem : ∀ raw, (decodeRequestView input raw format options).map StreamMessage.mk =
      (decodeRequestView input raw format options).bind fun req => .ok (StreamMessage.mk req) := by
    intro raw
    rcases decodeRequestView input raw format options with e | req
    · rfl
    · rfl
  simp only [onMessages, hitem]

theorem clientStreamArm_eq (m : ServiceMethod crate X) :
    m.clientStreamArm = m.handler.clientStreamHandler := by
  obtain ⟨name, _, _, level, code⟩ := m
  cases code with
  | clientStream input code =>
    refine congrArg some ?_
    funext ctx inbound format
    simp only [clientStreamingViewHandlerWrapper, onMapped_map, onMessages_eq]
  | unary input code => rfl
  | serverStream input code => rfl
  | bidiStream input code => rfl

theorem bidiStreamArm_eq (m : ServiceMethod crate X) :
    m.bidiStreamArm = m.handler.bidiStreamHandler := by
  obtain ⟨name, _, _, level, code⟩ := m
  cases code with
  | bidiStream input code =>
    refine congrArg some ?_
    funext ctx inbound format
    simp only [bidiStreamingViewHandlerWrapper, onMessages_eq]
  | unary input code => rfl
  | serverStream input code => rfl
  | clientStream input code => rfl

/-- A method, as it is registered in the end. -/
def registered (serviceName : String) (m : ServiceMethod crate X) : RegisteredMethod X :=
  ⟨m.handler, some (m.spec serviceName).toRouteSpec, none⟩

/-- A server tells of a method what a router does. -/
theorem descriptor_eq (serviceName : String) (m : ServiceMethod crate X) :
    m.descriptor serviceName = (m.registered serviceName).descriptor := by
  obtain ⟨name, _, _, level, code⟩ := m
  cases code with
  | unary input code => rfl
  | serverStream input code => rfl
  | clientStream input code => rfl
  | bidiStream input code => rfl

end ServiceMethod

/-! ## Paths -/

namespace GeneratedService

/-- The path of a method. -/
abbrev pathOf (service : GeneratedService crate X) (m : ServiceMethod crate X) : String :=
  Router.methodPath service.fullName m.name

/-- A server takes a path to be that of a method by the name after its own. -/
theorem methodOf_eq (service : GeneratedService crate X) (path method : String) :
    service.methodOf path = some method ↔ Router.methodPath service.fullName method = path := by
  have hpath : Router.methodPath service.fullName method =
      String.ofList ((service.fullName ++ "/").toList ++ method.toList) := by
    rw [Router.methodPath]
    apply String.ext
    simp [toString]
  rw [hpath, methodOf, Option.map_eq_some_iff]
  constructor
  · rintro ⟨rest, hrest, rfl⟩
    rw [stripPrefix, Option.ite_none_right_eq_some] at hrest
    obtain ⟨hstart, hrest⟩ := hrest
    obtain rfl := Option.some.inj hrest
    obtain ⟨t, ht⟩ := List.isPrefixOf_iff_prefix.mp hstart
    rw [← ht, List.drop_left, String.toList_ofList, ht, String.ofList_toList]
  · rintro rfl
    refine ⟨method.toList, ?_, String.ofList_toList⟩
    rw [String.toList_ofList, stripPrefix, if_pos (List.isPrefixOf_iff_prefix.mpr
      (List.prefix_append _ _)), List.drop_left]

/-- Methods with the same path have the same name. -/
theorem methodPath_inj (service : GeneratedService crate X) {a b : String}
    (h : Router.methodPath service.fullName a = Router.methodPath service.fullName b) : a = b := by
  have ha := (service.methodOf_eq _ a).mpr h
  rw [(service.methodOf_eq _ b).mpr rfl] at ha
  exact (Option.some.inj ha).symm

/-- The method that a path is the path of. -/
def find (service : GeneratedService crate X) (path : String) : Option (ServiceMethod crate X) :=
  service.methods.find? fun m => decide (service.pathOf m = path)

/-- The first arm with a name is that of the one method with this name. -/
theorem lookup_arms {β : Type} (armOf : ServiceMethod crate X → Option β) (method : String) :
    ∀ {methods : List (ServiceMethod crate X)}, (methods.map ServiceMethod.name).Nodup →
      (methods.filterMap fun m => (armOf m).map (m.name, ·)).lookup method =
        (methods.find? fun m => decide (m.name = method)).bind armOf := by
  intro methods
  induction methods with
  | nil => exact fun _ => rfl
  | cons m methods ih =>
    intro hnodup
    rw [List.map_cons, List.nodup_cons] at hnodup
    have ih := ih hnodup.2
    by_cases hname : m.name = method
    · rw [List.find?_cons_of_pos (by simpa using hname), Option.bind_some]
      rcases harm : armOf m with _ | arm
      · -- no other arm has the name
        rw [List.filterMap_cons_none (by rw [harm]; rfl), ih]
        have hnone : methods.find? (fun m => decide (m.name = method)) = none := by
          rw [List.find?_eq_none]
          intro m' hm' hsame
          refine hnodup.1 (List.mem_map.mpr ⟨m', hm', ?_⟩)
          rw [hname]
          simpa using hsame
        rw [hnone]
        rfl
      · rw [List.filterMap_cons_some (by rw [harm]; rfl), List.lookup_cons]
        simp [hname]
    · rw [List.find?_cons_of_neg (by simpa using hname), ← ih]
      rcases harm : armOf m with _ | arm
      · rw [List.filterMap_cons_none (by rw [harm]; rfl)]
      · rw [List.filterMap_cons_some (by rw [harm]; rfl), List.lookup_cons]
        have hne : (method == m.name) = false := by simpa using fun h => hname h.symm
        simp only [hne]

/-- **The arm for a path** is that of its method. -/
theorem arm_eq {β : Type} {service : GeneratedService crate X}
    (hnodup : (service.methods.map ServiceMethod.name).Nodup)
    (armOf : ServiceMethod crate X → Option β) (path : String) :
    service.arm armOf path = (service.find path).bind armOf := by
  rw [arm, find]
  rcases hmethod : service.methodOf path with _ | method
  · have hnone : service.methods.find? (fun m => decide (service.pathOf m = path)) = none := by
      rw [List.find?_eq_none]
      intro m _ hpath
      have hsome := (service.methodOf_eq path m.name).mpr (of_decide_eq_true hpath)
      rw [hmethod] at hsome
      cases hsome
    rw [hnone]
    rfl
  · have hpath := (service.methodOf_eq path method).mp hmethod
    have hsame : (fun m => decide (service.pathOf m = path)) =
        fun m : ServiceMethod crate X => decide (m.name = method) := by
      funext m
      refine decide_eq_decide.mpr ⟨fun h => ?_, fun h => ?_⟩
      · exact service.methodPath_inj (h.trans hpath.symm)
      · rw [← hpath, ← h]
    rw [hsame]
    exact lookup_arms armOf method hnodup

end GeneratedService

/-! ## Registration -/

variable (cr : Crates) (debug : Bool)

/-- A router with a method registered as the generator does it. -/
def Router.withMethod (r : Router X) (serviceName : String) (m : ServiceMethod crate X) : Router X :=
  { r with methods := r.methods.insert (methodPath serviceName m.name) (m.registered serviceName) }

/-- The path under which a method is told of is the one under which it was registered. -/
theorem routeKey_spec (serviceName : String) (m : ServiceMethod crate X) :
    routeKey (m.spec serviceName).procedure = Router.methodPath serviceName m.name := by
  have hprocedure : (m.spec serviceName).procedure.toList =
      '/' :: (Router.methodPath serviceName m.name).toList := by
    simp [ServiceMethod.spec, Router.methodPath, toString]
  simp [routeKey, hprocedure]

/-- What is told of a method never contradicts how it was registered. -/
theorem spec_agrees (serviceName : String) (m : ServiceMethod crate X) {handler : UnaryHandler X}
    {idempotent : Bool} (h : m.handler = .unary handler idempotent) :
    (idempotent == decide ((m.spec serviceName).idempotencyLevel = .noSideEffects)) = true := by
  obtain ⟨name, _, _, level, code⟩ := m
  cases code with
  | unary input code =>
    obtain ⟨-, rfl⟩ := RouteMethod.unary.inj h
    rcases level with _ | _ | _ | _ <;> rfl
  | serverStream input code => cases h
  | clientStream input code => cases h
  | bidiStream input code => cases h

/-- To route a method is to insert its handler. -/
theorem route_apply (r : Router X) (serviceName : String) (m : ServiceMethod crate X) :
    (m.route serviceName).apply cr debug r =
      r.insertMethod (Router.methodPath serviceName m.name) m.handler := by
  obtain ⟨name, _, _, level, code⟩ := m
  cases code with
  | unary input code => rfl
  | serverStream input code => rfl
  | clientStream input code => rfl
  | bidiStream input code => rfl

/-- What is told of a method that is there and agrees is told, in any build. -/
theorem Router.withSpec_of_lookup {r : Router X} {spec : RouteSpec} {m : RegisteredMethod X}
    (h : r.methods.lookup (routeKey spec.procedure) = some m)
    (hagrees : ∀ handler idempotent, m.method = .unary handler idempotent →
      (idempotent == decide (spec.idempotencyLevel = .noSideEffects)) = true) :
    r.withSpec debug spec = some { r with
      methods := r.methods.insert (routeKey spec.procedure) { m with spec := some spec } } := by
  rw [withSpec]
  simp only [h]
  rcases hmethod : m.method with ⟨handler, idempotent⟩ | _ | _ | _
  · simp only [hagrees handler idempotent hmethod]
    simp
  · simp
  · simp
  · simp

/-- **The registration of one method** panics exactly if its path is taken. -/
theorem run_method (r : Router X) (serviceName : String) (m : ServiceMethod crate X) :
    r.run cr debug [m.route serviceName, .withSpec (m.spec serviceName).toRouteSpec] =
      if r.allowOverrides = false ∧ Router.methodPath serviceName m.name ∈ r.methods then none
      else some (r.withMethod serviceName m) := by
  simp only [Router.run, List.foldlM_cons, List.foldlM_nil, route_apply, Router.insertMethod]
  split
  · rfl
  · have hlookup : (r.methods.insert (Router.methodPath serviceName m.name)
        (.ofMethod m.handler)).lookup (routeKey (m.spec serviceName).procedure) =
          some (.ofMethod m.handler) := by
      rw [routeKey_spec]
      exact AList.lookup_insert _
    have hspec := @Router.withSpec_of_lookup X debug
      ⟨r.methods.insert (Router.methodPath serviceName m.name) (.ofMethod m.handler),
        r.allowOverrides⟩ _ _ hlookup fun handler idempotent => spec_agrees serviceName m
    simp only [Option.bind_eq_bind, Option.bind_some, RouterOp.apply, hspec, routeKey_spec,
      AList.insert_insert]
    rfl

/-- A method is registered, unless that panics. -/
def Router.addMethod (r : Router X) (serviceName : String) (m : ServiceMethod crate X) :
    Option (Router X) :=
  if r.allowOverrides = false ∧ methodPath serviceName m.name ∈ r.methods then none
  else some (r.withMethod serviceName m)

namespace GeneratedService

variable {service : GeneratedService crate X}

/-- `register`; `none` is a panic. -/
def register (service : GeneratedService crate X) (r : Router X) : Option (Router X) :=
  r.run cr debug service.registration

/-- To register a service is to register its methods. -/
theorem register_eq (service : GeneratedService crate X) (r : Router X) :
    service.register cr debug r =
      service.methods.foldlM (fun r m => r.addMethod service.fullName m) r := by
  rw [register, registration]
  generalize service.methods = methods
  induction methods generalizing r with
  | nil => rfl
  | cons m methods ih =>
    have hmethod := run_method cr debug r service.fullName m
    simp only [Router.run] at hmethod ih ⊢
    rw [List.flatMap_cons, List.foldlM_append, hmethod, List.foldlM_cons]
    exact bind_congr fun r₁ => ih r₁

/-- What is registered after some methods are. -/
structure Added (service : GeneratedService crate X) (methods : List (ServiceMethod crate X))
    (r r' : Router X) : Prop where
  /-- overrides are allowed if they were -/
  allowOverrides : r'.allowOverrides = r.allowOverrides
  /-- the paths of the methods are new -/
  mem_iff : ∀ path, path ∈ r'.methods ↔ path ∈ methods.map service.pathOf ∨ path ∈ r.methods
  /-- they lead to the methods, if their names differ -/
  lookup : (methods.map ServiceMethod.name).Nodup → ∀ path, r'.methods.lookup path =
    ((methods.find? fun m => decide (service.pathOf m = path)).map fun m =>
      m.registered service.fullName).or (r.methods.lookup path)

/-- **The registration of methods**, if it does not panic. -/
theorem added : ∀ {methods : List (ServiceMethod crate X)} {r r' : Router X},
    methods.foldlM (fun r m => r.addMethod service.fullName m) r = some r' →
      service.Added methods r r' := by
  intro methods
  induction methods with
  | nil =>
    intro r r' h
    cases h
    exact ⟨rfl, by simp, fun _ _ => rfl⟩
  | cons m methods ih =>
    intro r r' h
    rw [List.foldlM_cons] at h
    obtain ⟨r₁, hstep, hrest⟩ := Option.bind_eq_some_iff.mp h
    rw [Router.addMethod, Option.ite_none_left_eq_some] at hstep
    obtain ⟨-, hstep⟩ := hstep
    obtain rfl := Option.some.inj hstep
    obtain ⟨hallow, hmem, hlookup⟩ := ih hrest
    refine ⟨hallow, fun path => ?_, fun hnodup path => ?_⟩
    · rw [hmem, Router.withMethod, AList.mem_insert, List.map_cons, List.mem_cons]
      tauto
    · rw [List.map_cons, List.nodup_cons] at hnodup
      rw [hlookup hnodup.2]
      by_cases hpath : service.pathOf m = path
      · -- no other method has the path
        subst hpath
        have hnone : methods.find? (fun m' => decide (service.pathOf m' = service.pathOf m)) =
            none := by
          rw [List.find?_eq_none]
          intro m' hm' hsame
          apply hnodup.1
          rw [← service.methodPath_inj (of_decide_eq_true hsame)]
          exact List.mem_map_of_mem hm'
        rw [hnone, List.find?_cons_of_pos (by simp)]
        exact AList.lookup_insert _
      · rw [List.find?_cons_of_neg (by simpa using hpath), Router.withMethod,
          AList.lookup_insert_ne (Ne.symm hpath)]

/-- It panics exactly where overrides are not allowed and a path would be taken twice. -/
theorem added_isSome : ∀ {methods : List (ServiceMethod crate X)} {r : Router X},
    (methods.foldlM (fun r m => Router.addMethod r service.fullName m) r).isSome = true ↔
      r.allowOverrides = true ∨ (methods.map service.pathOf).Nodup ∧
        ∀ path ∈ methods.map service.pathOf, path ∉ r.methods := by
  intro methods
  induction methods with
  | nil =>
    intro r
    simp [List.foldlM_nil]
  | cons m methods ih =>
    intro r
    rw [List.foldlM_cons, Router.addMethod]
    by_cases htaken : r.allowOverrides = false ∧ service.pathOf m ∈ r.methods
    · rw [if_pos htaken]
      refine iff_of_false (by simp) ?_
      rintro (hallow | ⟨-, hfree⟩)
      · rw [htaken.1] at hallow
        cases hallow
      · exact hfree _ (List.mem_cons_self) htaken.2
    · rw [if_neg htaken]
      have ih := @ih (r.withMethod service.fullName m)
      simp only [Option.bind_eq_bind, Option.bind_some]
      rw [ih, Router.withMethod]
      simp only [AList.mem_insert, List.map_cons, List.nodup_cons, List.mem_cons]
      rcases hallow : r.allowOverrides with _ | _
      · have hfree : service.pathOf m ∉ r.methods := fun hmem => htaken ⟨hallow, hmem⟩
        simp only [Bool.false_eq_true, false_or]
        constructor
        · rintro ⟨hnodup, hrest⟩
          refine ⟨⟨fun hmem => hrest _ hmem (.inl rfl), hnodup⟩, ?_⟩
          rintro path (rfl | hmem)
          · exact hfree
          · exact fun h => hrest path hmem (.inr h)
        · rintro ⟨⟨hnew, hnodup⟩, hrest⟩
          refine ⟨hnodup, fun path hmem h => ?_⟩
          rcases h with rfl | h
          · exact hnew hmem
          · exact hrest path (.inr hmem) h
      · simp

end GeneratedService

/-! ## Dispatch -/

/-- Dispatchers that serve every path alike are the same. -/
theorem Dispatcher.eq_of_servesAs {d e : Dispatcher X} (h : ∀ path, d.ServesAs e path) : d = e := by
  have hlookup := funext fun path => (h path).lookup
  have hunary := funext fun path => (h path).callUnary
  have hserver := funext fun path => (h path).callServerStreaming
  have hclient := funext fun path => (h path).callClientStreaming
  have hbidi := funext fun path => (h path).callBidiStreaming
  cases d
  cases e
  congr

/-- How a router answers a call, by the handler of that kind. -/
theorem Router.dispatcher_eq (r : Router X) (path : String) :
    (∀ ctx request format, r.dispatcher.callUnary path ctx request format =
      match (r.methodAt path).bind RouteMethod.unaryHandler with
      | some call => call ctx request format
      | none => unimplementedCall path) ∧
    (∀ ctx request format, r.dispatcher.callServerStreaming path ctx request format =
      match (r.methodAt path).bind RouteMethod.serverStreamHandler with
      | some call => call ctx request format
      | none => unimplementedCall path) ∧
    (∀ ctx inbound format, r.dispatcher.callClientStreaming path ctx inbound format =
      match (r.methodAt path).bind RouteMethod.clientStreamHandler with
      | some call => call ctx inbound format
      | none => unimplementedCall path) ∧
    ∀ ctx inbound format, r.dispatcher.callBidiStreaming path ctx inbound format =
      match (r.methodAt path).bind RouteMethod.bidiStreamHandler with
      | some call => call ctx inbound format
      | none => unimplementedCall path := by
  simp only [dispatcher]
  rcases r.methodAt path with _ | m
  · simp
  · cases m <;> simp [RouteMethod.unaryHandler, RouteMethod.serverStreamHandler,
      RouteMethod.clientStreamHandler, RouteMethod.bidiStreamHandler]

/-- **A service that is registered** is served as its server in front of the router does. -/
theorem GeneratedService.register_serves (hlawful : crate.Lawful)
    {service : GeneratedService crate X} (hnodup : (service.methods.map ServiceMethod.name).Nodup)
    {r r' : Router X} (h : service.register cr debug r = some r') :
    r'.dispatcher = service.server.chain r.dispatcher := by
  rw [register_eq] at h
  have hlookup := (added h).lookup hnodup
  refine Dispatcher.eq_of_servesAs fun path => ?_
  have hpath := hlookup path
  change _ = ((service.find path).map _).or _ at hpath
  obtain ⟨hunary, hserver, hclient, hbidi⟩ := r'.dispatcher_eq path
  have hserve {β : Type} (armOf : ServiceMethod crate X → Option β) :=
    arm_eq hnodup armOf path
  have htold : service.server.lookup path = (service.find path).bind _ := hserve _
  rcases hfind : service.find path with _ | m
  · -- the path is of no method of the service
    have hnone : service.server.lookup path = none := by
      rw [htold, hfind]
      rfl
    rw [hfind] at hpath
    exact (DispatchTree.servesAs_of_lookup hpath).trans (Dispatcher.ServesAs.chain_right hnone).symm
  · have hsome : service.server.lookup path = some (m.descriptor service.fullName) := by
      rw [htold, hfind]
      rfl
    have hknown : (service.server.lookup path).isSome = true := by
      rw [hsome]
      rfl
    rw [hfind] at hpath
    have hat : r'.methodAt path = some m.handler :=
      congrArg (Option.map RegisteredMethod.method) hpath
    refine Dispatcher.ServesAs.trans ?_ (Dispatcher.ServesAs.chain_left hknown).symm
    rw [hat] at hunary hserver hclient hbidi
    refine ⟨?_, ?_, ?_, ?_, ?_⟩
    · rw [hsome, m.descriptor_eq]
      exact congrArg (Option.map RegisteredMethod.descriptor) hpath
    · funext ctx request format
      simp only [hunary, server, hserve, hfind, Option.bind_some, m.unaryArm_eq hlawful]
    · funext ctx request format
      simp only [hserver, server, hserve, hfind, Option.bind_some, m.serverStreamArm_eq hlawful]
    · funext ctx inbound format
      simp only [hclient, server, hserve, hfind, Option.bind_some, m.clientStreamArm_eq]
    · funext ctx inbound format
      simp only [hbidi, server, hserve, hfind, Option.bind_some, m.bidiStreamArm_eq]

/-- Services that are added to a router, one after the other; `none` is a panic. -/
def Router.addServices (r : Router X) (services : List (GeneratedService crate X)) :
    Option (Router X) :=
  services.foldlM (fun r service => service.register cr debug r) r

/-- The servers of services, each in front of those before it and of a dispatcher. -/
def serversBefore (d : Dispatcher X) (services : List (GeneratedService crate X)) : Dispatcher X :=
  services.foldl (fun d service => service.server.chain d) d

/-- The paths of services. -/
def pathsOf (services : List (GeneratedService crate X)) : List String :=
  services.flatMap GeneratedService.paths

/-- Adding services panics exactly where overrides are not allowed and a path would be taken
twice. -/
theorem addServices_isSome : ∀ {services : List (GeneratedService crate X)} {r : Router X},
    (r.addServices cr debug services).isSome = true ↔ r.allowOverrides = true ∨
      (pathsOf services).Nodup ∧ ∀ path ∈ pathsOf services, path ∉ r.methods := by
  intro services
  induction services with
  | nil =>
    intro r
    simp [Router.addServices, pathsOf]
  | cons service services ih =>
    intro r
    have hfirst : (service.register cr debug r).isSome = true ↔ r.allowOverrides = true ∨
        service.paths.Nodup ∧ ∀ path ∈ service.paths, path ∉ r.methods := by
      rw [service.register_eq]
      exact GeneratedService.added_isSome
    rw [Router.addServices, List.foldlM_cons]
    have hpaths : pathsOf (service :: services) = service.paths ++ pathsOf services :=
      List.flatMap_cons
    rw [hpaths, List.nodup_append]
    rcases hregister : service.register cr debug r with _ | r₁
    · rw [hregister] at hfirst
      refine iff_of_false (by simp) fun h => ?_
      apply absurd (hfirst.mpr ?_) (by simp)
      exact h.imp id fun h => ⟨h.1.1, fun path hmem => h.2 path (List.mem_append_left _ hmem)⟩
    · rw [hregister] at hfirst
      have hfirst := hfirst.mp rfl
      rw [service.register_eq] at hregister
      obtain ⟨hallow, hmem, -⟩ := GeneratedService.added hregister
      have ih := @ih r₁
      rw [Router.addServices] at ih
      rw [Option.bind_eq_bind, Option.bind_some, ih, hallow]
      rcases hflag : r.allowOverrides with _ | _
      · simp only [hflag, Bool.false_eq_true, false_or] at hfirst ⊢
        constructor
        · rintro ⟨hnodup, hfree⟩
          refine ⟨⟨hfirst.1, hnodup, ?_⟩, fun path hpath => ?_⟩
          · rintro path hpath _ hpath' rfl
            exact hfree path hpath' ((hmem path).mpr (.inl hpath))
          · rcases List.mem_append.mp hpath with hpath | hpath
            · exact hfirst.2 path hpath
            · exact fun h => hfree path hpath ((hmem path).mpr (.inr h))
        · rintro ⟨⟨-, hnodup, hdisjoint⟩, hfree⟩
          refine ⟨hnodup, fun path hpath h => ?_⟩
          rcases (hmem path).mp h with hown | hold
          · exact hdisjoint path hown path hpath rfl
          · exact hfree path (List.mem_append_right _ hpath) hold
      · simp

/-- A router to which services were added dispatches as the chain of their servers. -/
theorem generated_registration_dispatcher (hlawful : crate.Lawful) :
    ∀ {services : List (GeneratedService crate X)},
      (∀ service ∈ services, (service.methods.map ServiceMethod.name).Nodup) →
        ∀ {r r' : Router X}, r.addServices cr debug services = some r' →
          r'.dispatcher = serversBefore r.dispatcher services := by
  intro services
  induction services with
  | nil =>
    intro _ r r' h
    cases h
    rfl
  | cons service services ih =>
    intro hnodup r r' h
    rw [Router.addServices, List.foldlM_cons] at h
    obtain ⟨r₁, hregister, hrest⟩ := Option.bind_eq_some_iff.mp h
    have hfirst := service.register_serves cr debug hlawful
      (hnodup service List.mem_cons_self) hregister
    rw [ih (fun s hs => hnodup s (List.mem_cons_of_mem _ hs)) hrest, hfirst]
    rfl

/-- **Registration and generated servers agree**: services can be added to a router exactly if
overrides are allowed or no path is taken twice, and then the router dispatches as the chain of
their servers in front of what it was. -/
theorem generated_registration (hlawful : crate.Lawful)
    {services : List (GeneratedService crate X)}
    (hnodup : ∀ service ∈ services, (service.methods.map ServiceMethod.name).Nodup)
    (r : Router X) :
    ((∃ r', r.addServices cr debug services = some r') ↔ r.allowOverrides = true ∨
      (pathsOf services).Nodup ∧ ∀ path ∈ pathsOf services, path ∉ r.methods) ∧
    ∀ r', r.addServices cr debug services = some r' →
      r'.dispatcher = serversBefore r.dispatcher services := by
  refine ⟨?_, fun r' h => generated_registration_dispatcher cr debug hlawful hnodup h⟩
  rw [← Option.isSome_iff_exists]
  exact addServices_isSome cr debug

/-! ## A service with two methods -/

/-- Messages without fields, of which only the empty encoding is looked at. -/
def emptyCrate : ServiceCrate where
  Ty := Unit
  decEq := inferInstance
  Msg _ := Unit
  typeName _ := "Empty"
  anyTypeName _ _ := "Empty"
  encode _ _ _ := .ok []
  decodeFromSlice _ _ b := if b = [] then .ok () else .error "unexpected end of input"
  json := false
  fromSlice _ _ := .error ""
  ViewTy := Unit
  OwnedView _ := Bytes
  viewDecode _ b := if b = [] then .ok b else .error "unexpected end of input"
  viewDecodeWithOptions _ _ b := if b = [] then .ok b else .error "unexpected end of input"
  encodeToVec _ _ := []
  viewOf _ := ()
  View _ := Unit
  reborrow _ := ()
  bytes b := b
  decodeOwned _ _ b := if b = [] then .ok b else .error ⟨false, "unexpected end of input"⟩
  decodeView _ _ b := if b = [] then .ok () else .error ⟨false, "unexpected end of input"⟩

theorem emptyCrate_lawful : emptyCrate.Lawful := by
  intro v options b
  simp only [emptyCrate]
  split
  · rfl
  · rfl

/-- A method without side effects, and one that streams what is never there. -/
def pingService : GeneratedService emptyCrate Unit where
  fullName := "pkg.Ping"
  methods := [
    ⟨"Ping", false, false, some .noSideEffects, .unary () fun _ _ =>
      .answer (.ok ⟨fun _ => .ok (.contiguous []), .empty, .empty, none⟩)⟩,
    ⟨"Watch", false, true, none, .serverStream () fun _ _ =>
      .answer (.ok ⟨[], .empty, .empty, none⟩)⟩]

/-- A new router takes the service, in a build with assertions as well. -/
theorem generated_registration_ping : ∃ r', Router.new.addServices .std true [pingService] = some r' ∧
    r'.dispatcher = serversBefore Router.new.dispatcher [pingService] := by
  have hnodup : ∀ service ∈ [pingService], (service.methods.map ServiceMethod.name).Nodup := by
    intro service hservice
    obtain rfl := List.mem_singleton.mp hservice
    decide
  obtain ⟨hiff, hdispatcher⟩ :=
    generated_registration .std true emptyCrate_lawful hnodup Router.new
  obtain ⟨r', h⟩ := hiff.mpr (.inr ⟨by decide, fun path _ hmem => by cases hmem⟩)
  exact ⟨r', h, hdispatcher r' h⟩

end ConnectRpc
