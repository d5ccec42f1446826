import ConnectRpc.Lib.Fallible
import ConnectRpc.Lib.Text

/-!
# The identifiers of generated code

For each proto file that declares a service, a companion file is generated: aliases for views of the
messages, implementations of `Encodable` for them, and for each service constants, a trait, another
one that registers it, a marker, a server and a client. The companions of a package end up in one
module, so a batch of files shares a state (`BatchState`) that keeps names apart.

Here is what is declared, without the bodies of functions and the documentation. How names change
their case, how keywords are escaped and which path a message has come from other crates: they are
the `Casing` and the `CodeGenContext`. That no name is declared twice is in the next module.
-/

namespace ConnectRpc.Codegen

open Lib

/-! ## Descriptors -/

/-- `MethodDescriptorProto`. -/
structure MethodDescriptorProto where
  /-- the name -/
  name : Option String
  /-- the type of what is asked -/
  inputType : Option String
  /-- the type of what is answered -/
  outputType : Option String

/-- `ServiceDescriptorProto`. -/
structure ServiceDescriptorProto where
  /-- the name -/
  name : Option String
  /-- the methods -/
  method : List MethodDescriptorProto

/-- `DescriptorProto`, of a message. -/
structure DescriptorProto where
  /-- the name -/
  name : Option String
  /-- messages that are declared in it -/
  nestedType : List DescriptorProto
  /-- whether it is an entry of a map -/
  mapEntry : Bool

/-- `FileDescriptorProto`. -/
structure FileDescriptorProto where
  /-- the name -/
  name : Option String
  /-- the package -/
  package : Option String
  /-- the messages -/
  messageType : List DescriptorProto
  /-- the names of the enums -/
  enumType : List (Option String)
  /-- the services -/
  service : List ServiceDescriptorProto

/-- The package of a file. -/
def FileDescriptorProto.packageName (file : FileDescriptorProto) : String := file.package.getD ""

/-- The types that a service's methods take and give, in order. -/
def ServiceDescriptorProto.types (service : ServiceDescriptorProto) : List String :=
  service.method.flatMap fun m => [m.inputType, m.outputType].filterMap id

/-! ## What other crates do -/

/-- Case conversions and the escaping of keywords. -/
structure Casing where
  /-- `to_snake_case` -/
  toSnakeCase : String → String
  /-- `to_upper_camel_case` -/
  toUpperCamelCase : String → String
  /-- `to_uppercase` -/
  toUppercase : String → String
  /-- `make_field_ident` -/
  makeFieldIdent : String → String

/-- The paths of messages. -/
structure CodeGenContext where
  /-- `rust_type_relative` -/
  rustTypeRelative : String → String → Option String
  /-- `rust_type_relative_split` -/
  rustTypeRelativeSplit : String → String → Option (String × String)

/-- Why nothing is generated. -/
inductive Error where
  /-- two methods of a service have an identifier in common -/
  | methods (service previous method ident : String)
  /-- a message or an enum and a service have one in common -/
  | rootType (previous service file ident : String)
  /-- a file is generated twice -/
  | generatedTwice (producer file : String)
  /-- two services or methods have one in common -/
  | idents (previous producer ident : String)
  /-- a type has no path from outside -/
  | notCovered (fqn : String)
  /-- a type is not there -/
  | notFound (fqn : String) (requireExtern : Bool)
  deriving DecidableEq

/-- Whether a text begins with another. -/
def startsWith (start text : String) : Bool := start.toList.isPrefixOf text.toList

/-- What is before the first `::`. -/
def firstSegment : List Char → List Char
  | [] => []
  | ':' :: ':' :: _ => []
  | c :: l => c :: firstSegment l

/-- `module_qualified`. -/
def moduleQualified (path : String) : String :=
  if String.ofList (firstSegment path.toList) ∈ ["S", "T"] then "self::" ++ path else path

/-- `TypeResolver`. -/
structure TypeResolver where
  /-- where the paths come from -/
  ctx : CodeGenContext
  /-- whether the stubs are in another tree than the messages -/
  requireExtern : Bool

namespace TypeResolver

variable (resolver : TypeResolver)

/-- `check_extern_coverage`. -/
def checkExternCoverage (fqn path : String) : Except Error Unit :=
  if resolver.requireExtern && !startsWith "::" path && !startsWith "crate::" path then
    .error (.notCovered fqn)
  else .ok ()

/-- `resolve_path`. -/
def resolvePath (fqn package : String) : Except Error String :=
  match resolver.ctx.rustTypeRelative fqn package with
  | some path => do
    resolver.checkExternCoverage fqn path
    return moduleQualified path
  | none => .error (.notFound fqn resolver.requireExtern)

/-- `rust_type`. -/
def rustType (fqn package : String) : Except Error String := resolver.resolvePath fqn package

/-- `rust_view_type`. -/
def rustViewType (fqn package : String) : Except Error String :=
  match resolver.ctx.rustTypeRelativeSplit fqn package with
  | some (toPackage, within) => do
    resolver.checkExternCoverage fqn toPackage
    let start := if toPackage = "" then "__buffa::view" else toPackage ++ "::__buffa::view"
    return moduleQualified (start ++ "::" ++ within ++ "View")
  | none => .error (.notFound fqn resolver.requireExtern)

end TypeResolver

/-! ## What is generated -/

/-- A function, with the types that it names. -/
structure Fn where
  /-- the name, `r#` included -/
  name : String
  /-- the types -/
  types : List String
  deriving DecidableEq

/-- `pub type Owned#{Msg}View`. -/
structure OwnedViewAlias where
  /-- the name -/
  name : String
  /-- the message that it is of -/
  fqn : String
  /-- the view -/
  view : String
  deriving DecidableEq

/-- The two implementations of `Encodable` for a message. -/
structure EncodableImpls where
  /-- the message -/
  fqn : String
  /-- its type -/
  owned : String
  /-- its view -/
  view : String
  deriving DecidableEq

/-- What is declared for a service. -/
structure ServiceItems where
  /-- `*_SERVICE_NAME` -/
  serviceNameConst : String
  /-- `*_SPEC`, for each method -/
  specConsts : List String
  /-- the trait -/
  traitName : String
  /-- its methods -/
  traitMethods : List Fn
  /-- the trait with `register` -/
  extTraitName : String
  /-- the marker -/
  registerMarkerName : String
  /-- the server -/
  serverName : String
  /-- what the server calls, for each method -/
  serverCalls : List Fn
  /-- the client -/
  clientName : String
  /-- what is in the `impl` of the client -/
  clientMethods : List Fn
  deriving DecidableEq

/-- The companion of a proto file. -/
structure Companion where
  /-- the package -/
  package : String
  /-- the aliases -/
  aliases : List OwnedViewAlias
  /-- the implementations of `Encodable` -/
  impls : List EncodableImpls
  /-- the services -/
  services : List ServiceItems
  deriving DecidableEq

/-! ## The state of a batch -/

/-- `IdentsByPackage`: who declares an identifier in a package. -/
abbrev IdentsByPackage := List ((String × String) × String)

/-- `BatchState`. -/
structure BatchState where
  /-- the messages that `Encodable` is implemented for -/
  encodableSeen : List String
  /-- the messages that a package has an alias for -/
  aliasSeen : List (String × String)
  /-- the aliases that are left out -/
  collidingAliases : List (String × String)
  /-- what services have declared -/
  moduleIdents : IdentsByPackage
  /-- what messages and enums declare -/
  rootTypes : IdentsByPackage
  /-- whether `Encodable` is implemented for every message -/
  allMessageEncodableImpls : Bool

/-- `Options`. -/
structure Options where
  /-- `type_name_prefix` -/
  typeNamePrefix : String
  /-- `lazy_views` -/
  lazyViews : Bool
  /-- whether `encodable_impls` is `AllMessages` -/
  allMessages : Bool

/-- `bare_type_name`. -/
def bareTypeName (fqn : String) : String :=
  let text := fqn.toList
  let text := if startsWith "." fqn then text.drop 1 else text
  String.ofList ((splitAll '.' text).getLast (splitAll_ne_nil '.' text))

section

variable (casing : Casing)

/-- `owned_view_alias_ident`. -/
def ownedViewAliasIdent (fqn : String) : String :=
  "Owned" ++ casing.toUpperCamelCase (bareTypeName fqn) ++ "View"

/-- `method_spec_const_ident`. -/
def methodSpecConstIdent (service : ServiceDescriptorProto) (methodName : String) : String :=
  casing.toUppercase (casing.toSnakeCase (service.name.getD "")) ++ "_" ++
    casing.toUppercase (casing.toSnakeCase methodName) ++ "_SPEC"

/-- `ServiceIdents`. -/
structure ServiceIdents where
  /-- the trait -/
  traitName : String
  /-- the trait with `register` -/
  extTraitName : String
  /-- the marker -/
  registerMarkerName : String
  /-- the client -/
  clientName : String
  /-- the server -/
  serverName : String
  /-- the constant -/
  serviceNameConst : String

/-- `ServiceIdents::new`. -/
def ServiceIdents.new (serviceName : String) : ServiceIdents :=
  let serviceUpper := casing.toUpperCamelCase serviceName
  { traitName := if serviceUpper = "Self" then "Self_" else serviceUpper
    extTraitName := serviceUpper ++ "Ext"
    registerMarkerName := serviceUpper ++ "RegisterMarker"
    clientName := serviceUpper ++ "Client"
    serverName := serviceUpper ++ "Server"
    serviceNameConst := casing.toUppercase (casing.toSnakeCase serviceName) ++ "_SERVICE_NAME" }

/-- `ServiceIdents::types`. -/
def ServiceIdents.types (idents : ServiceIdents) : List String :=
  [idents.traitName, idents.extTraitName, idents.registerMarkerName, idents.clientName,
    idents.serverName]

/-- `ServiceIdents::iter`. -/
def ServiceIdents.iter (idents : ServiceIdents) : List String :=
  idents.types ++ [idents.serviceNameConst]

/-! ### Before the batch -/

/-- What `collect_alias_collisions` remembers. -/
structure AliasCollisions where
  /-- the message that has an alias first -/
  firstSeen : List ((String × String) × String)
  /-- the aliases that others have, too -/
  colliding : List (String × String)

/-- A type of a method in `collect_alias_collisions`. -/
def AliasCollisions.collect (package : String) (seen : AliasCollisions) (fqn : String) :
    AliasCollisions :=
  let key := (package, ownedViewAliasIdent casing fqn)
  match seen.firstSeen.lookup key with
  | some prev => if prev ≠ fqn then { seen with colliding := key :: seen.colliding } else seen
  | none => { seen with firstSeen := (key, fqn) :: seen.firstSeen }

/-- A service in `collect_alias_collisions`. -/
def AliasCollisions.collectService (seen : AliasCollisions)
    (service : String × ServiceDescriptorProto) : AliasCollisions :=
  let types := (ServiceIdents.new casing (service.2.name.getD "")).types
  service.2.types.foldl (AliasCollisions.collect casing service.1)
    { seen with colliding := types.map (service.1, ·) ++ seen.colliding }

/-- The files that are generated, in order. -/
def generatedFiles (protoFile : List FileDescriptorProto) (fileToGenerate : List String) :
    List FileDescriptorProto :=
  fileToGenerate.filterMap fun fileName => protoFile.find? fun f => f.name == some fileName

/-- Their services, with the packages. -/
def generatedServices (protoFile : List FileDescriptorProto) (fileToGenerate : List String) :
    List (String × ServiceDescriptorProto) :=
  (generatedFiles protoFile fileToGenerate).flatMap fun file =>
    file.service.map (file.packageName, ·)

/-- `collect_alias_collisions`. -/
def collectAliasCollisions (protoFile : List FileDescriptorProto) (fileToGenerate : List String) :
    List (String × String) :=
  ((generatedServices protoFile fileToGenerate).foldl (AliasCollisions.collectService casing)
    ⟨[], []⟩).colliding

end

/-- A message or an enum of a file in `buffa_root_types`: who it is, its name, and what views of it
are called. -/
def rootTypesOf (options : Options) (file : FileDescriptorProto) :
    List (String × String × List String) :=
  let suffixes := if options.lazyViews then ["View", "OwnedView", "LazyView"]
    else ["View", "OwnedView"]
  let producer := fun (kind name : String) =>
    if file.packageName = "" then kind ++ " " ++ name ++ " in " ++ file.name.getD ""
    else kind ++ " " ++ file.packageName ++ "." ++ name ++ " in " ++ file.name.getD ""
  let declared := fun (kind : String) (suffixes : List String) (name : Option String) =>
    let rustName := options.typeNamePrefix ++ name.getD ""
    (producer kind (name.getD ""), rustName, suffixes.map (rustName ++ ·))
  file.messageType.map (fun m => declared "message" suffixes m.name) ++
    file.enumType.map (declared "enum" [])

/-- A view in `buffa_root_types`: its name is free again when two messages have it. -/
def claimView (package producer : String) (views : List ((String × String) × Option String))
    (name : String) : List ((String × String) × Option String) :=
  match views.lookup (package, name) with
  | some _ => ((package, name), none) :: views.filter fun v => v.1 ≠ (package, name)
  | none => ((package, name), some producer) :: views

/-- `buffa_root_types`. -/
def buffaRootTypes (options : Options) (resolver : TypeResolver)
    (protoFile : List FileDescriptorProto) (fileToGenerate : List String) : IdentsByPackage :=
  if resolver.requireExtern then []
  else
    let files := protoFile.filter fun f => f.name.any (fileToGenerate.contains ·)
    let declared := files.flatMap fun f => (rootTypesOf options f).map (f.packageName, ·)
    let views := declared.foldl
      (fun views d => d.2.2.2.foldl (claimView d.1 d.2.1) views) []
    let types := declared.foldl (fun types d => ((d.1, d.2.2.1), d.2.1) :: types) []
    views.foldl
      (fun types v =>
        match v.2 with
        | some producer => if (types.lookup v.1).isSome then types else (v.1, producer) :: types
        | none => types)
      types

/-! ### Messages -/

section

variable (casing : Casing) (resolver : TypeResolver)

/-- `alias_collides`. -/
def aliasCollides (batch : BatchState) (package fqn : String) : Bool :=
  let key := (package, ownedViewAliasIdent casing fqn)
  (batch.rootTypes.lookup key).isSome || batch.collidingAliases.contains key

/-- A type of a method in `generate_owned_view_aliases`. -/
def generateOwnedViewAlias (package fqn : String) (batch : BatchState) :
    Except Error (List OwnedViewAlias × BatchState) :=
  if aliasCollides casing batch package fqn then .ok ([], batch)
  else if batch.aliasSeen.contains (package, fqn) then .ok ([], batch)
  else do
    let view ← resolver.rustViewType fqn package
    return ([⟨ownedViewAliasIdent casing fqn, fqn, view⟩],
      { batch with aliasSeen := batch.aliasSeen ++ [(package, fqn)] })

/-- `generate_owned_view_aliases`. -/
def generateOwnedViewAliases (file : FileDescriptorProto) :
    BatchState → Except Error (List OwnedViewAlias × BatchState) :=
  emitAll (generateOwnedViewAlias casing resolver file.packageName)
    (file.service.flatMap ServiceDescriptorProto.types)

/-- `encodable_impl_pair`. -/
def encodableImplPair (package fqn : String) (batch : BatchState) :
    Except Error (List EncodableImpls × BatchState) :=
  if batch.encodableSeen.contains fqn then .ok ([], batch)
  else do
    let batch := { batch with encodableSeen := batch.encodableSeen ++ [fqn] }
    let path ← resolver.resolvePath fqn package
    if startsWith "::" path then return ([], batch)
    else
      let owned ← resolver.rustType fqn package
      let view ← resolver.rustViewType fqn package
      return ([⟨fqn, owned, view⟩], batch)

/-- `generate_encodable_view_impls`. -/
def generateEncodableViewImpls (file : FileDescriptorProto) :
    BatchState → Except Error (List EncodableImpls × BatchState) :=
  emitAll (encodableImplPair resolver file.packageName)
    (file.service.flatMap fun s => s.method.map fun m => m.outputType.getD "")

mutual

/-- The messages that the recursion of `generate_all_message_encodable_impls` comes to, in
order. -/
def messageFqns (start : String) : DescriptorProto → List String
  | ⟨name, nestedType, mapEntry⟩ =>
    if mapEntry then []
    else (start ++ "." ++ name.getD "") :: messagesFqns (start ++ "." ++ name.getD "") nestedType

/-- The same for some messages. -/
def messagesFqns (start : String) : List DescriptorProto → List String
  | [] => []
  | m :: ms => messageFqns start m ++ messagesFqns start ms

end

/-- `generate_all_message_encodable_impls`. -/
def generateAllMessageEncodableImpls (file : FileDescriptorProto) :
    BatchState → Except Error (List EncodableImpls × BatchState) :=
  let start := if file.packageName = "" then "" else "." ++ file.packageName
  emitAll (encodableImplPair resolver file.packageName) (messagesFqns start file.messageType)

/-! ### Services -/

/-- `check_method_collisions`, with what is seen so far. -/
def checkMethodCollisions (serviceName : String) :
    List (String × String) → List MethodDescriptorProto → Except Error Unit
  | _, [] => .ok ()
  | seen, m :: ms =>
    let protoName := m.name.getD ""
    let snake := casing.toSnakeCase protoName
    let idents := [snake, snake ++ "_with_options"]
    match idents.findSome? fun ident => (seen.lookup ident).map (ident, ·) with
    | some (ident, prev) => .error (.methods serviceName prev protoName ident)
    | none => checkMethodCollisions serviceName (idents.map (·, protoName) ++ seen) ms

/-- What `check_module_collisions` records for a service. -/
def moduleItems (file : FileDescriptorProto) (fullServiceName : String)
    (service : ServiceDescriptorProto) (idents : ServiceIdents) : IdentsByPackage :=
  let fileName := file.name.getD ""
  idents.iter.map (fun ident =>
      ((file.packageName, ident), "service " ++ fullServiceName ++ " in " ++ fileName)) ++
    service.method.map fun m =>
      ((file.packageName, methodSpecConstIdent casing service (m.name.getD "")),
        "method " ++ fullServiceName ++ "." ++ m.name.getD "" ++ " in " ++ fileName)

/-- `check_module_collisions`. -/
def checkModuleCollisions (file : FileDescriptorProto) (fullServiceName : String)
    (service : ServiceDescriptorProto) (idents : ServiceIdents) (batch : BatchState) :
    Except Error BatchState :=
  let fileName := file.name.getD ""
  let collision := idents.types.findSome? fun ident =>
    (batch.rootTypes.lookup (file.packageName, ident)).map (ident, ·)
  match collision with
  | some (ident, prev) => .error (.rootType prev fullServiceName fileName ident)
  | none =>
    match claim batch.moduleIdents (moduleItems casing file fullServiceName service idents) with
    | .error (key, prev, producer) =>
      if prev = producer then .error (.generatedTwice producer fileName)
      else .error (.idents prev producer key.2)
    | .ok moduleIdents => .ok { batch with moduleIdents }

/-- `generate_trait_method`. -/
def generateTraitMethod (package : String) (m : MethodDescriptorProto) : Except Error Fn := do
  let output ← resolver.rustType (m.outputType.getD "") package
  let input ← resolver.rustType (m.inputType.getD "") package
  return ⟨casing.makeFieldIdent (casing.toSnakeCase (m.name.getD "")), [input, output]⟩

/-- `generate_client_method`. -/
def generateClientMethod (package : String) (m : MethodDescriptorProto) :
    Except Error (List Fn) := do
  let input ← resolver.rustType (m.inputType.getD "") package
  let outputView ← resolver.rustViewType (m.outputType.getD "") package
  let snake := casing.toSnakeCase (m.name.getD "")
  return [⟨casing.makeFieldIdent snake, [input, outputView]⟩,
    ⟨snake ++ "_with_options", [input, outputView]⟩]

/-- A method in `generate_service_server`. -/
def generateServerCall (package : String) (m : MethodDescriptorProto) : Except Error Fn := do
  let inputView ← resolver.rustViewType (m.inputType.getD "") package
  let output ← resolver.rustType (m.outputType.getD "") package
  let input ← resolver.rustType (m.inputType.getD "") package
  return ⟨casing.makeFieldIdent (casing.toSnakeCase (m.name.getD "")), [inputView, output, input]⟩

/-- What the `impl` of a client always has. -/
def clientItems : List Fn := [⟨"new", []⟩, ⟨"config", []⟩, ⟨"config_mut", []⟩]

/-- `generate_service`. -/
def generateService (file : FileDescriptorProto) (service : ServiceDescriptorProto)
    (batch : BatchState) : Except Error (List ServiceItems × BatchState) := do
  let serviceName := service.name.getD ""
  checkMethodCollisions casing serviceName [] service.method
  let fullServiceName :=
    if file.packageName = "" then serviceName else file.packageName ++ "." ++ serviceName
  let idents := ServiceIdents.new casing serviceName
  let batch ← checkModuleCollisions casing file fullServiceName service idents batch
  let traitMethods ← service.method.mapM (generateTraitMethod casing resolver file.packageName)
  let clientMethods ← service.method.mapM (generateClientMethod casing resolver file.packageName)
  let serverCalls ← service.method.mapM (generateServerCall casing resolver file.packageName)
  return ([{
    serviceNameConst := idents.serviceNameConst
    specConsts := service.method.map fun m => methodSpecConstIdent casing service (m.name.getD "")
    traitName := idents.traitName
    traitMethods
    extTraitName := idents.extTraitName
    registerMarkerName := idents.registerMarkerName
    serverName := idents.serverName
    serverCalls
    clientName := idents.clientName
    clientMethods := clientItems ++ clientMethods.flatten }], batch)

/-! ### Files -/

/-- `generate_connect_services`. -/
def generateConnectServices (file : FileDescriptorProto) (batch : BatchState) :
    Except Error (Companion × BatchState) := do
  let (aliases, batch) ← generateOwnedViewAliases casing resolver file batch
  let (outputs, batch) ← generateEncodableViewImpls resolver file batch
  let (messages, batch) ← (if batch.allMessageEncodableImpls then
    generateAllMessageEncodableImpls resolver file batch else .ok ([], batch))
  let (services, batch) ← emitAll (generateService casing resolver file) file.service batch
  return (⟨file.packageName, aliases, outputs ++ messages, services⟩, batch)

/-- A file in `emit_service_files`. -/
def emitServiceFile (file : FileDescriptorProto) (batch : BatchState) :
    Except Error (List Companion × BatchState) :=
  if file.service ≠ [] ∨ (batch.allMessageEncodableImpls = true ∧ file.messageType ≠ []) then do
    let (companion, batch) ← generateConnectServices casing resolver file batch
    if companion.aliases = [] ∧ companion.impls = [] ∧ companion.services = [] then
      return ([], batch)
    else return ([companion], batch)
  else .ok ([], batch)

/-- The state that a batch begins with. -/
def initialBatch (options : Options) (protoFile : List FileDescriptorProto)
    (fileToGenerate : List String) : BatchState where
  encodableSeen := []
  aliasSeen := []
  collidingAliases := collectAliasCollisions casing protoFile fileToGenerate
  moduleIdents := []
  rootTypes := buffaRootTypes options resolver protoFile fileToGenerate
  allMessageEncodableImpls := options.allMessages

/-- `emit_service_files`. -/
def emitServiceFiles (options : Options) (protoFile : List FileDescriptorProto)
    (fileToGenerate : List String) : Except Error (List Companion) :=
  (emitAll (emitServiceFile casing resolver) (generatedFiles protoFile fileToGenerate)
    (initialBatch casing resolver options protoFile fileToGenerate)).map Prod.fst

end

end ConnectRpc.Codegen
