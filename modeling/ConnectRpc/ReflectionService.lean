import ConnectRpc.HealthChecker
import ConnectRpc.Lib.DebugText
import ConnectRpc.Reflector

/-!
# The reflection service

A client asks the reflection service for files, for the files of symbols and of extensions, for
the numbers of extensions, and for services. Each question is put to the files that the server was
given, and then to the service's own. What is not found is answered within the stream, with the
name that was asked for, which is cut if it is long.

`reflection_answers` tells what every request is answered with, for every reflector that can be
built: a file comes as it was first added under its name, with all that it imports, and no answer
that something was not found is longer than a kilobyte, however long the name.
-/

namespace ConnectRpc

open Lib

/-- What is used of `buffa-descriptor` to answer questions. -/
structure PoolCrate extends DescriptorCrate where
  /-- `DescriptorPool::new` -/
  new : List FileDescriptorProto → Except PoolError Pool
  /-- the full names of `DescriptorPool::services` -/
  services : Pool → List String
  /-- `DescriptorPool::file_containing_symbol` -/
  fileContainingSymbol : Pool → String → Option FileDescriptorProto
  /-- `MessageIndex` -/
  MessageIndex : Type
  /-- `DescriptorPool::message_index` -/
  messageIndex : Pool → String → Option MessageIndex
  /-- the full name of `DescriptorPool::extension_for` -/
  extensionFor : Pool → MessageIndex → ℕ → Option String
  /-- the numbers of `DescriptorPool::extensions_of` -/
  extensionsOf : Pool → MessageIndex → List ℕ
  /-- the characters that `{:?}` shows as numbers -/
  unprintable : Char → Bool

/-- The files that a pool finds are those it has. -/
structure PoolCrate.Lawful (crate : PoolCrate) : Prop where
  /-- it keeps what comes first -/
  keepsFirst : crate.KeepsFirst
  /-- a new pool has the files of the set -/
  new_files : ∀ {set pool}, crate.new set = .ok pool → crate.files pool = mergeFirst [] set
  /-- the file of a symbol is one of the files -/
  symbol_mem : ∀ {pool symbol fd},
    crate.fileContainingSymbol pool symbol = some fd → fd ∈ crate.files pool

variable {crate : PoolCrate}

/-- `self_descriptors`, from the set that is embedded; nothing where it panics. -/
def selfDescriptors (fileDescriptorSet : Bytes) : Option (Reflector crate.toDescriptorCrate) :=
  match (splitDescriptorSet fileDescriptorSet :
      Option (Except (Reflector.Error crate.toDescriptorCrate) _)),
    crate.decodeFromSlice fileDescriptorSet with
  | some (.ok rawFiles), .ok set =>
    match crate.new set with
    -- of bytes that are collected under one name the last stay
    | .ok pool => some ⟨pool,
        ((set.zip rawFiles).filterMap fun copy => copy.1.name.map (·, copy.2)).reverse⟩
    | .error _ => none
  | _, _ => none

/-! ## Messages -/

/-- `MessageRequest`. -/
inductive MessageRequest : Type where
  | fileByFilename (name : String)
  | fileContainingSymbol (symbol : String)
  | fileContainingExtension (containingType : String) (extensionNumber : Int32)
  | allExtensionNumbersOfType (name : String)
  | listServices (content : String)
  deriving DecidableEq

/-- `ServerReflectionRequest`. -/
structure ServerReflectionRequest where
  /-- the host -/
  host : String
  /-- the question -/
  messageRequest : Option MessageRequest
  deriving DecidableEq

/-- `MessageResponse`. -/
inductive MessageResponse : Type where
  | fileDescriptorResponse (fileDescriptorProto : List Bytes)
  | allExtensionNumbersResponse (baseTypeName : String) (extensionNumber : List ℕ)
  | listServicesResponse (service : List String)
  | errorResponse (errorCode : ℤ) (errorMessage : String)

/-- `ServerReflectionResponse`. -/
structure ServerReflectionResponse where
  /-- the host of the request -/
  validHost : String
  /-- the request -/
  originalRequest : Option ServerReflectionRequest
  /-- the answer -/
  messageResponse : Option MessageResponse

/-- `Answer`. -/
inductive ReflectionAnswer : Type where
  | files (files : List Bytes)
  | extensionNumbers (baseType : String) (numbers : List ℕ)
  | services (names : List String)
  | notFound (message : String)

/-! ## The service -/

/-- `ReflectionService`, with the descriptors that it falls back to. -/
structure ReflectionService (crate : PoolCrate) where
  /-- the reflector -/
  reflector : Reflector crate.toDescriptorCrate
  /-- `services_override` -/
  servicesOverride : Option (List String)
  /-- what `self_descriptors` gives -/
  own : Reflector crate.toDescriptorCrate

namespace ReflectionService

/-- The longest part of a name that is echoed, in bytes. -/
def MAX_ECHOED_NAME_BYTES : ℕ := 128

/-- A name as it is shown in an error: `Echoed`. -/
def echoed (unprintable : Char → Bool) (name : String) : String :=
  if name.utf8ByteSize ≤ MAX_ECHOED_NAME_BYTES then String.ofList (quoted unprintable name.toList)
  else
    let shown := Health.sliceTo name.toList
      (Health.floorCharBoundary name.toList MAX_ECHOED_NAME_BYTES)
    String.ofList (quoted unprintable shown) ++
      s!"... [name truncated, {name.utf8ByteSize} bytes]"

/-- `Reflector::sources`. -/
def sources (s : ReflectionService crate) : List (Reflector crate.toDescriptorCrate) :=
  [s.reflector, s.own]

/-- What the first source that finds something finds. -/
def search {α : Type} (s : ReflectionService crate) (find : crate.Pool → Option α) :
    Option (Reflector crate.toDescriptorCrate × α) :=
  s.sources.findSome? fun source => (find source.pool).map (source, ·)

/-- `Reflector::with_services`. -/
def withServices (s : ReflectionService crate) (names : List String) : ReflectionService crate :=
  { s with servicesOverride := some names }

/-- `Reflector::service_names`. -/
def serviceNames (s : ReflectionService crate) : List String :=
  s.servicesOverride.getD <|
    (crate.services s.own.pool).foldl (fun names own => if own ∈ names then names else names ++ [own])
      (crate.services s.reflector.pool)

/-- The files of an answer, with so many rounds of the loop at most. -/
def answerFiles (rounds : ℕ) (found : Reflector crate.toDescriptorCrate × FileDescriptorProto) :
    Option ReflectionAnswer :=
  (found.1.closure rounds found.2).map .files

/-- `Reflector::file_by_filename`. -/
def fileByFilename (s : ReflectionService crate) (rounds : ℕ) (name : String) :
    Option ReflectionAnswer :=
  match s.search (crate.fileByName · name) with
  | some found => answerFiles rounds found
  | none => some (.notFound s!"file {echoed crate.unprintable name} not found")

/-- `Reflector::file_containing_symbol`. -/
def fileContainingSymbol (s : ReflectionService crate) (rounds : ℕ) (symbol : String) :
    Option ReflectionAnswer :=
  match s.search (crate.fileContainingSymbol · symbol) with
  | some found => answerFiles rounds found
  | none => some (.notFound s!"symbol {echoed crate.unprintable symbol} not found")

/-- `Reflector::file_containing_extension`. -/
def fileContainingExtension (s : ReflectionService crate) (rounds : ℕ) (containingType : String)
    (number : Int32) : Option ReflectionAnswer :=
  let notFound := some (.notFound
    s!"extension {number.toInt} of type {echoed crate.unprintable containingType} not found")
  if number.toInt < 0 then notFound
  else
    match s.search (crate.messageIndex · containingType) with
    | none => notFound
    | some (source, extendee) =>
      -- the other source is not asked for the extension
      match crate.extensionFor source.pool extendee number.toInt.toNat with
      | none => notFound
      | some fullName =>
        match crate.fileContainingSymbol source.pool fullName with
        | some fd => answerFiles rounds (source, fd)
        | none => notFound

/-- A name without a leading dot. -/
def normalized (name : String) : String :=
  match name.toList with
  | '.' :: rest => String.ofList rest
  | _ => name

/-- `Reflector::all_extension_numbers_of_type`. -/
def allExtensionNumbersOfType (s : ReflectionService crate) (name : String) : ReflectionAnswer :=
  match s.search (crate.messageIndex · (normalized name)) with
  | some (source, extendee) =>
    .extensionNumbers (normalized name)
      ((crate.extensionsOf source.pool extendee).filter fun number => decide (number < 2 ^ 31))
  | none => .notFound s!"message {echoed crate.unprintable name} not found"

/-- `Reflector::list_services`. -/
def listServices (s : ReflectionService crate) : ReflectionAnswer :=
  .services s.serviceNames

/-- The answer to a question, with so many rounds of each loop at most. -/
def answer (s : ReflectionService crate) (rounds : ℕ) : MessageRequest → Option ReflectionAnswer
  | .fileByFilename name => s.fileByFilename rounds name
  | .fileContainingSymbol symbol => s.fileContainingSymbol rounds symbol
  | .fileContainingExtension containingType number =>
    s.fileContainingExtension rounds containingType number
  | .allExtensionNumbersOfType name => some (s.allExtensionNumbersOfType name)
  | .listServices _ => some s.listServices

/-- The answer as it is sent. -/
def messageResponse : ReflectionAnswer → MessageResponse
  | .files files => .fileDescriptorResponse files
  | .extensionNumbers baseType numbers => .allExtensionNumbersResponse baseType numbers
  | .services names => .listServicesResponse names
  | .notFound message => .errorResponse 5 message

/-- `respond`, the same for both versions. -/
def respond (s : ReflectionService crate) (rounds : ℕ) (request : ServerReflectionRequest) :
    Option (Except ConnectError ServerReflectionResponse) :=
  match request.messageRequest with
  | none =>
    some (.error (.invalidArgument "ServerReflectionRequest.message_request is not set"))
  | some question =>
    (s.answer rounds question).map fun answer =>
      .ok ⟨request.host, some request, some (messageResponse answer)⟩

/-- What an item of the request stream becomes. -/
def respondItem (s : ReflectionService crate) (rounds : ℕ) :
    Poll (Except ConnectError ServerReflectionRequest) →
      Option (Poll (Except ConnectError ServerReflectionResponse))
  | .pending => some .pending
  | .ready (.error e) => some (.ready (.error e))
  | .ready (.ok request) => (s.respond rounds request).map .ready

/-- `server_reflection_info`: an item of the request stream is answered when it is polled. -/
def serverReflectionInfo (s : ReflectionService crate) (rounds : ℕ)
    (requests : List (Poll (Except ConnectError ServerReflectionRequest))) :
    Option (List (Poll (Except ConnectError ServerReflectionResponse))) :=
  requests.mapM (s.respondItem rounds)

/-! ## What is answered -/

/-- A reflector, and the copies of files that it was built from. -/
structure Catalogue (crate : PoolCrate) where
  /-- the reflector -/
  reflector : Reflector crate.toDescriptorCrate
  /-- the copies, as they were added -/
  copies : List (FileDescriptorProto × Bytes)

/-- The catalogues that a question is put to. -/
def catalogues (s : ReflectionService crate) (user own : List (FileDescriptorProto × Bytes)) :
    List (Catalogue crate) :=
  [⟨s.reflector, user⟩, ⟨s.own, own⟩]

/-- The first element of a list that gives something, and what. -/
def FirstGives {α β : Type} (l : List α) (f : α → Option β) (a : α) (b : β) : Prop :=
  ∃ before after, l = before ++ a :: after ∧ f a = some b ∧ ∀ c ∈ before, f c = none

/-- The file that a question asks for, and the catalogue that has it. A type that is known to one
catalogue is not looked for in the next, whether its extension is known or not. -/
def Located (cs : List (Catalogue crate)) (c : Catalogue crate) (fd : FileDescriptorProto) :
    MessageRequest → Prop
  | .fileByFilename name =>
    ∃ bytes, FirstGives cs (fun c => Reflector.firstCopy c.copies name) c (fd, bytes)
  | .fileContainingSymbol symbol =>
    FirstGives cs (fun c => crate.fileContainingSymbol c.reflector.pool symbol) c fd
  | .fileContainingExtension containingType number =>
    0 ≤ number.toInt ∧ ∃ extendee fullName,
      FirstGives cs (fun c => crate.messageIndex c.reflector.pool containingType) c extendee ∧
        crate.extensionFor c.reflector.pool extendee number.toInt.toNat = some fullName ∧
          crate.fileContainingSymbol c.reflector.pool fullName = some fd
  | _ => False

/-- The bytes of a file and of all that it imports, each once and that of the file first, as they
were first added. -/
def Serves (c : Catalogue crate) (fd : FileDescriptorProto) (files : List Bytes) : Prop :=
  ∃ visited : List FileDescriptorProto, visited.head? = some fd ∧ visited.Nodup ∧
    (∀ fd', fd' ∈ visited ↔ Relation.ReflTransGen c.reflector.Imports fd fd') ∧
      List.Forall₂ (fun fd' bytes => ∃ name, fd'.name = some name ∧
        Reflector.firstCopy c.copies name = some (fd', bytes)) visited files

/-- The name that a question asks for. -/
def askedName : MessageRequest → String
  | .fileByFilename name => name
  | .fileContainingSymbol symbol => symbol
  | .fileContainingExtension containingType _ => containingType
  | .allExtensionNumbersOfType name => name
  | .listServices content => content

/-- Nothing was found, which is told in a few words. -/
def Missed (question : MessageRequest) (response : MessageResponse) : Prop :=
  ∃ message, response = .errorResponse 5 message ∧
    ((askedName question).utf8ByteSize < 2 ^ 64 → message.utf8ByteSize ≤ 1024)

/-- **What a question is answered with.** -/
structure AnswerLaw (s : ReflectionService crate) (cs : List (Catalogue crate))
    (question : MessageRequest) (response : MessageResponse) : Prop where
  /-- a file that is found comes with what it imports -/
  located : ∀ c fd, Located cs c fd question →
    ∃ files, response = .fileDescriptorResponse files ∧ Serves c fd files
  /-- the numbers of the extensions of a type that is found -/
  numbers : ∀ name, question = .allExtensionNumbersOfType name → ∀ c extendee,
    FirstGives cs (fun c => crate.messageIndex c.reflector.pool (normalized name)) c extendee →
      response = .allExtensionNumbersResponse (normalized name)
        ((crate.extensionsOf c.reflector.pool extendee).filter fun n => decide (n < 2 ^ 31))
  /-- the services are those that were chosen, or all, those of the user first and each once -/
  services : ∀ content, question = .listServices content →
    ∃ names, response = .listServicesResponse names ∧
      (∀ chosen, s.servicesOverride = some chosen → names = chosen) ∧
      (s.servicesOverride = none → crate.services s.reflector.pool <+: names ∧
        (∀ n, n ∈ names ↔
          n ∈ crate.services s.reflector.pool ∨ n ∈ crate.services s.own.pool) ∧
        ((crate.services s.reflector.pool).Nodup → names.Nodup))
  /-- there is no file -/
  noFile : (∀ c fd, ¬ Located cs c fd question) →
    (∀ name, question ≠ .allExtensionNumbersOfType name) →
      (∀ content, question ≠ .listServices content) → Missed question response
  /-- there is no type -/
  noType : ∀ name, question = .allExtensionNumbersOfType name →
    (∀ c ∈ cs, crate.messageIndex c.reflector.pool (normalized name) = none) →
      Missed question response

/-- What an item of the request stream becomes. -/
inductive ItemLaw (s : ReflectionService crate) (cs : List (Catalogue crate)) :
    Poll (Except ConnectError ServerReflectionRequest) →
      Poll (Except ConnectError ServerReflectionResponse) → Prop where
  | pending : ItemLaw s cs .pending .pending
  | error (e : ConnectError) : ItemLaw s cs (.ready (.error e)) (.ready (.error e))
  | unset (host : String) : ItemLaw s cs (.ready (.ok ⟨host, none⟩))
      (.ready (.error (.invalidArgument "ServerReflectionRequest.message_request is not set")))
  | answered {host : String} {question : MessageRequest} {response : MessageResponse}
      (h : AnswerLaw s cs question response) :
      ItemLaw s cs (.ready (.ok ⟨host, some question⟩))
        (.ready (.ok ⟨host, some ⟨host, some question⟩, some response⟩))

/-! ## Names that are echoed -/

/-- A boundary is not after the byte that it is looked for at. -/
theorem floorCharBoundary_le (name : List Char) (n : ℕ) : Health.floorCharBoundary name n ≤ n := by
  induction n with
  | zero => exact Nat.le_refl 0
  | succ n ih =>
    rw [Health.floorCharBoundary]
    split
    · exact Nat.le_refl _
    · exact Nat.le_succ_of_le ih

/-- What is cut off at a byte is not longer. -/
theorem size_sliceTo_le : ∀ (name : List Char) (n : ℕ), size (Health.sliceTo name n) ≤ n := by
  intro name
  induction name with
  | nil => exact fun n => Nat.zero_le n
  | cons c name ih =>
    intro n
    rw [Health.sliceTo]
    split
    · rename_i hle
      have hrest := ih (n - c.utf8Size)
      rw [size_cons]
      omega
    · exact Nat.zero_le n

theorem utf8ByteSize_toString_le {n k : ℕ} (hk : 0 < k) (h : n < 10 ^ k) :
    (toString n).utf8ByteSize ≤ k := by
  have hrepr : toString n = String.ofList (Nat.toDigits 10 n) := Nat.repr_eq_ofList_toDigits
  rw [hrepr, utf8ByteSize_ofList]
  exact size_toDigits_le (by decide) (by decide) hk h

/-- A name is shown in a few hundred bytes, however long it is. -/
theorem echoed_size_le (unprintable : Char → Bool) {name : String}
    (h : name.utf8ByteSize < 2 ^ 64) : (echoed unprintable name).utf8ByteSize ≤ 840 := by
  rw [echoed]
  split
  · rename_i hshort
    have hquoted := size_quoted_le unprintable name.toList
    have hsize : size name.toList = name.utf8ByteSize := by
      rw [← utf8ByteSize_ofList, String.ofList_toList]
    rw [utf8ByteSize_ofList]
    rw [MAX_ECHOED_NAME_BYTES] at hshort
    omega
  · have hquoted := size_quoted_le unprintable (Health.sliceTo name.toList
      (Health.floorCharBoundary name.toList MAX_ECHOED_NAME_BYTES))
    have hslice := size_sliceTo_le name.toList
      (Health.floorCharBoundary name.toList MAX_ECHOED_NAME_BYTES)
    have hfloor : Health.floorCharBoundary name.toList MAX_ECHOED_NAME_BYTES ≤ 128 :=
      floorCharBoundary_le _ _
    have hnumber : (toString name.utf8ByteSize).utf8ByteSize ≤ 20 :=
      utf8ByteSize_toString_le (by decide) (by omega)
    have hbefore : (toString "... [name truncated, ").utf8ByteSize = 21 := rfl
    have hafter : (toString " bytes]").utf8ByteSize = 7 := rfl
    simp only [String.utf8ByteSize_append, utf8ByteSize_ofList]
    omega

/-- A number of 32 bits takes at most eleven. -/
theorem int32_size_le (number : Int32) : (toString number.toInt).utf8ByteSize ≤ 11 := by
  have hlow := number.le_toInt
  have hhigh := number.toInt_lt
  rcases hint : number.toInt with n | n
  · have hcast : Int.ofNat n = (n : ℤ) := rfl
    have hsize : (toString n).utf8ByteSize ≤ 10 := utf8ByteSize_toString_le (by decide) (by omega)
    exact Nat.le_succ_of_le hsize
  · have hsize : (toString (n + 1)).utf8ByteSize ≤ 10 :=
      utf8ByteSize_toString_le (by decide) (by omega)
    have hrepr : toString (Int.negSucc n) = "-" ++ toString (n + 1) := rfl
    have hsign : "-".utf8ByteSize = 1 := rfl
    rw [hrepr, String.utf8ByteSize_append, hsign]
    omega

/-! ## Where things are found -/

section Search

variable {α β : Type} {l : List α} {f : α → Option β} {a : α} {b : β}

/-- What comes first is found. -/
theorem findSome?_eq_some_iff : l.findSome? (fun a => (f a).map (a, ·)) = some (a, b) ↔
    FirstGives l f a b := by
  rw [List.findSome?_eq_some_iff]
  constructor
  · rintro ⟨before, c, after, hsplit, hc, hbefore⟩
    obtain ⟨b', hb', heq⟩ := Option.map_eq_some_iff.mp hc
    obtain ⟨rfl, rfl⟩ := Prod.mk.inj heq
    exact ⟨before, after, hsplit, hb', fun d hd => Option.map_eq_none_iff.mp (hbefore d hd)⟩
  · rintro ⟨before, after, hsplit, hb, hbefore⟩
    exact ⟨before, a, after, hsplit, by rw [hb, Option.map_some],
      fun d hd => by rw [hbefore d hd, Option.map_none]⟩

/-- Nothing is found where nothing is given. -/
theorem findSome?_eq_none_iff : l.findSome? (fun a => (f a).map (a, ·)) = none ↔
    ∀ a ∈ l, f a = none := by
  simp [List.findSome?_eq_none_iff]

end Search

variable {s : ReflectionService crate} {user own : List (FileDescriptorProto × Bytes)}

/-- The search that the service makes. -/
theorem search_eq {α : Type} (find : crate.Pool → Option α) : s.search find =
    ((s.catalogues user own).findSome? fun c => (find c.reflector.pool).map (c, ·)).map
      fun found => (found.1.reflector, found.2) := by
  rw [search, sources, catalogues]
  rcases hfirst : find s.reflector.pool with _ | a
  · rcases hsecond : find s.own.pool with _ | a
    · simp [hfirst, hsecond]
    · simp [hfirst, hsecond]
  · simp [hfirst]

theorem search_eq_some {α : Type} {find : crate.Pool → Option α} {c : Catalogue crate} {a : α}
    (h : FirstGives (s.catalogues user own) (fun c => find c.reflector.pool) c a) :
    s.search find = some (c.reflector, a) := by
  rw [@search_eq _ s user own _ find, findSome?_eq_some_iff.mpr h]
  rfl

theorem exists_of_search {α : Type} {find : crate.Pool → Option α}
    {r : Reflector crate.toDescriptorCrate} {a : α} (h : s.search find = some (r, a)) :
    ∃ c, FirstGives (s.catalogues user own) (fun c => find c.reflector.pool) c a ∧
      c.reflector = r := by
  rw [@search_eq _ s user own _ find] at h
  obtain ⟨⟨c, a'⟩, hfound, heq⟩ := Option.map_eq_some_iff.mp h
  obtain ⟨hr, rfl⟩ := Prod.mk.inj heq
  exact ⟨c, findSome?_eq_some_iff.mp hfound, hr⟩

theorem search_eq_none {α : Type} {find : crate.Pool → Option α} :
    s.search find = none ↔ ∀ c ∈ s.catalogues user own, find c.reflector.pool = none := by
  rw [@search_eq _ s user own _ find, Option.map_eq_none_iff, findSome?_eq_none_iff]

/-- What comes first is in the list. -/
theorem FirstGives.mem {α β : Type} {l : List α} {f : α → Option β} {a : α} {b : β}
    (h : FirstGives l f a b) : a ∈ l := by
  obtain ⟨before, after, rfl, -, -⟩ := h
  exact List.mem_append_right before List.mem_cons_self

/-- And it gives what it gives. -/
theorem FirstGives.gives {α β : Type} {l : List α} {f : α → Option β} {a : α} {b : β}
    (h : FirstGives l f a b) : f a = some b := by
  obtain ⟨-, -, -, hb, -⟩ := h
  exact hb

/-- What comes first, where something is made of what is given. -/
theorem firstGives_map {α β γ : Type} {l : List α} {f : α → Option β} {g : α → Option γ} {k : γ → β}
    (h : ∀ a ∈ l, f a = (g a).map k) {a : α} {b : β} :
    FirstGives l f a b ↔ ∃ c, FirstGives l g a c ∧ k c = b := by
  constructor
  · rintro ⟨before, after, rfl, hb, hbefore⟩
    rw [h a (List.mem_append_right before List.mem_cons_self)] at hb
    obtain ⟨c, hc, hk⟩ := Option.map_eq_some_iff.mp hb
    refine ⟨c, ⟨before, after, rfl, hc, fun d hd => ?_⟩, hk⟩
    have hnone := hbefore d hd
    rw [h d (List.mem_append_left _ hd)] at hnone
    exact Option.map_eq_none_iff.mp hnone
  · rintro ⟨c, ⟨before, after, rfl, hc, hbefore⟩, rfl⟩
    refine ⟨before, after, rfl, ?_, fun d hd => ?_⟩
    · rw [h a (List.mem_append_right before List.mem_cons_self), hc, Option.map_some]
    · rw [h d (List.mem_append_left _ hd), hbefore d hd, Option.map_none]

/-! ## The files of an answer -/

/-- The catalogue and the reflector agree. -/
def Catalogue.Tracked (c : Catalogue crate) : Prop :=
  Reflector.Tracks c.copies c.reflector

/-- A file that a pool has comes with all that it imports. -/
theorem serves_closure (hcrate : crate.Lawful) {c : Catalogue crate} (htracks : c.Tracked)
    {fd : FileDescriptorProto} (hfd : fd ∈ crate.files c.reflector.pool) :
    ∃ files, Serves c fd files ∧ ∀ rounds, c.reflector.rounds ≤ rounds →
      answerFiles rounds (c.reflector, fd) = some (.files files) := by
  obtain ⟨visited, ⟨hfirst, hnodup, hmem⟩, hclosure⟩ :=
    Reflector.closure_law hcrate.keepsFirst htracks.named hfd
  refine ⟨visited.filterMap c.reflector.served, ⟨visited, hfirst, hnodup, hmem, ?_⟩,
    fun rounds hrounds => ?_⟩
  · -- what is visited is in the pool, and so its first copy was added
    have hpool : ∀ fd' ∈ visited, fd' ∈ crate.files c.reflector.pool := by
      intro fd' hfd'
      rcases Relation.ReflTransGen.cases_tail ((hmem fd').mp hfd') with heq | ⟨_, _, himports⟩
      · exact heq ▸ hfd
      · obtain ⟨-, -, hin, -⟩ := himports
        exact hin
    clear hfirst hnodup hmem hclosure
    induction visited with
    | nil => exact .nil
    | cons fd' visited ih =>
      have hin := hpool fd' List.mem_cons_self
      obtain ⟨name, hname⟩ := Option.isSome_iff_exists.mp (htracks.named fd' hin)
      have hfile := htracks.file name
      rw [(Reflector.find?_name hcrate.keepsFirst).mpr ⟨hin, hname⟩] at hfile
      obtain ⟨⟨fd₁, bytes⟩, hcopy, hsame⟩ := Option.map_eq_some_iff.mp hfile.symm
      obtain rfl : fd₁ = fd' := hsame
      have hbytes : c.reflector.served fd₁ = some bytes := by
        rw [Reflector.served, hname, Option.bind_some, htracks.served name, hcopy, Option.map_some]
      rw [List.filterMap_cons, hbytes]
      exact .cons ⟨name, hname, hcopy⟩ (ih fun fd hfd => hpool fd (List.mem_cons_of_mem fd₁ hfd))
  · rw [answerFiles, hclosure rounds hrounds, Option.map_some]

/-- A file is found by its name where a copy of it was added. -/
theorem fileByName_eq (hcrate : crate.Lawful) {c : Catalogue crate} (htracks : c.Tracked)
    (name : String) : crate.fileByName c.reflector.pool name =
      (Reflector.firstCopy c.copies name).map Prod.fst := by
  rw [hcrate.keepsFirst.fileByName_eq]
  exact htracks.file name

theorem firstGives_name (hcrate : crate.Lawful) {cs : List (Catalogue crate)}
    (htracks : ∀ c ∈ cs, c.Tracked) {c : Catalogue crate} {name : String}
    {fd : FileDescriptorProto} :
    FirstGives cs (fun c => crate.fileByName c.reflector.pool name) c fd ↔
      ∃ bytes, FirstGives cs (fun c => Reflector.firstCopy c.copies name) c (fd, bytes) := by
  rw [firstGives_map fun c hc => fileByName_eq hcrate (htracks c hc) name]
  constructor
  · rintro ⟨⟨fd', bytes⟩, hfirst, rfl⟩
    exact ⟨bytes, hfirst⟩
  · rintro ⟨bytes, hfirst⟩
    exact ⟨(fd, bytes), hfirst, rfl⟩

/-- Whatever is located is a file of the pool. -/
theorem Located.mem (hcrate : crate.Lawful) {cs : List (Catalogue crate)}
    (htracks : ∀ c ∈ cs, c.Tracked) {c : Catalogue crate} {fd : FileDescriptorProto}
    {question : MessageRequest} (h : Located cs c fd question) :
    c ∈ cs ∧ fd ∈ crate.files c.reflector.pool := by
  cases question with
  | fileByFilename name =>
    have hfirst := (firstGives_name hcrate htracks).mpr h
    have hfile := hfirst.gives
    simp only [hcrate.keepsFirst.fileByName_eq] at hfile
    exact ⟨hfirst.mem, List.mem_of_find?_eq_some hfile⟩
  | fileContainingSymbol symbol =>
    have hfirst : FirstGives cs
        (fun c => crate.fileContainingSymbol c.reflector.pool symbol) c fd := h
    exact ⟨hfirst.mem, hcrate.symbol_mem hfirst.gives⟩
  | fileContainingExtension containingType number =>
    obtain ⟨-, extendee, fullName, hfirst, -, hfile⟩ := h
    exact ⟨hfirst.mem, hcrate.symbol_mem hfile⟩
  | allExtensionNumbersOfType name => cases h
  | listServices content => cases h

/-! ## Answers -/

/-- A file that is located is the one that the answer starts from. -/
theorem answer_located (hcrate : crate.Lawful)
    (htracks : ∀ c ∈ s.catalogues user own, c.Tracked) {c : Catalogue crate}
    {fd : FileDescriptorProto} {question : MessageRequest}
    (h : Located (s.catalogues user own) c fd question) (rounds : ℕ) :
    s.answer rounds question = answerFiles rounds (c.reflector, fd) := by
  cases question with
  | fileByFilename name =>
    have hfound : s.search (crate.fileByName · name) = some (c.reflector, fd) :=
      search_eq_some ((firstGives_name hcrate htracks).mpr h)
    rw [answer, fileByFilename, hfound]
  | fileContainingSymbol symbol =>
    have hfound : s.search (crate.fileContainingSymbol · symbol) = some (c.reflector, fd) :=
      search_eq_some h
    rw [answer, fileContainingSymbol, hfound]
  | fileContainingExtension containingType number =>
    obtain ⟨hnumber, extendee, fullName, hfirst, hextension, hfile⟩ := h
    have hfound : s.search (crate.messageIndex · containingType) = some (c.reflector, extendee) :=
      search_eq_some hfirst
    rw [answer, fileContainingExtension, if_neg (by omega), hfound]
    simp only [hextension, hfile]
  | allExtensionNumbersOfType name => cases h
  | listServices content => cases h

/-- What is said of a file that is not there. -/
theorem answer_missed (hcrate : crate.Lawful)
    (htracks : ∀ c ∈ s.catalogues user own, c.Tracked) {question : MessageRequest}
    (hnone : ∀ c fd, ¬ Located (s.catalogues user own) c fd question)
    (hnumbers : ∀ name, question ≠ .allExtensionNumbersOfType name)
    (hservices : ∀ content, question ≠ .listServices content) :
    ∃ message, (∀ rounds, s.answer rounds question = some (.notFound message)) ∧
      ((askedName question).utf8ByteSize < 2 ^ 64 → message.utf8ByteSize ≤ 1024) := by
  have hnotFound : (toString " not found").utf8ByteSize = 10 := rfl
  cases question with
  | fileByFilename name =>
    have hmissed : s.search (crate.fileByName · name) = none := by
      rw [Option.eq_none_iff_forall_ne_some]
      rintro ⟨r, fd⟩ hfound
      obtain ⟨c, hfirst, -⟩ := exists_of_search hfound
      exact hnone c fd ((firstGives_name hcrate htracks).mp hfirst)
    refine ⟨_, fun rounds => by rw [answer, fileByFilename, hmissed], fun hsize => ?_⟩
    have hecho : (toString (echoed crate.unprintable name)).utf8ByteSize ≤ 840 :=
      echoed_size_le crate.unprintable hsize
    have hfile : (toString "file ").utf8ByteSize = 5 := rfl
    simp only [String.utf8ByteSize_append]
    omega
  | fileContainingSymbol symbol =>
    have hmissed : s.search (crate.fileContainingSymbol · symbol) = none := by
      rw [Option.eq_none_iff_forall_ne_some]
      rintro ⟨r, fd⟩ hfound
      obtain ⟨c, hfirst, -⟩ := exists_of_search hfound
      exact hnone c fd hfirst
    refine ⟨_, fun rounds => by rw [answer, fileContainingSymbol, hmissed], fun hsize => ?_⟩
    have hecho : (toString (echoed crate.unprintable symbol)).utf8ByteSize ≤ 840 :=
      echoed_size_le crate.unprintable hsize
    have hsymbol : (toString "symbol ").utf8ByteSize = 7 := rfl
    simp only [String.utf8ByteSize_append]
    omega
  | fileContainingExtension containingType number =>
    refine ⟨s!"extension {number.toInt} of type {echoed crate.unprintable containingType} not found",
      fun rounds => ?_, fun hsize => ?_⟩
    · rw [answer, fileContainingExtension]
      split
      · rfl
      · rename_i hnumber
        split
        · rfl
        · rename_i source extendee hfound
          obtain ⟨c, hfirst, rfl⟩ := exists_of_search hfound
          -- the type is known to this catalogue, and so to no other
          split
          · rfl
          · rename_i fullName hextension
            split
            · rename_i fd hfile
              exact absurd ⟨by omega, extendee, fullName, hfirst, hextension, hfile⟩ (hnone c fd)
            · rfl
    · have hecho : (toString (echoed crate.unprintable containingType)).utf8ByteSize ≤ 840 :=
        echoed_size_le crate.unprintable hsize
      have hnumber := int32_size_le number
      have hextension : (toString "extension ").utf8ByteSize = 10 := rfl
      have hof : (toString " of type ").utf8ByteSize = 9 := rfl
      simp only [String.utf8ByteSize_append]
      omega
  | allExtensionNumbersOfType name => exact absurd rfl (hnumbers name)
  | listServices content => exact absurd rfl (hservices content)

/-- Names that are added where they are missing. -/
theorem addMissing_law (own : List String) : ∀ names : List String,
    names <+: own.foldl (fun names own => if own ∈ names then names else names ++ [own]) names ∧
    (∀ n, n ∈ own.foldl (fun names own => if own ∈ names then names else names ++ [own]) names ↔
      n ∈ names ∨ n ∈ own) ∧
    (names.Nodup →
      (own.foldl (fun names own => if own ∈ names then names else names ++ [own]) names).Nodup) := by
  induction own with
  | nil =>
    intro names
    exact ⟨List.prefix_rfl, by simp, id⟩
  | cons o own ih =>
    intro names
    rw [List.foldl_cons]
    split
    · rename_i hmem
      obtain ⟨hstart, hnames, hnodup⟩ := ih names
      refine ⟨hstart, fun n => ?_, hnodup⟩
      rw [hnames, List.mem_cons]
      constructor
      · exact Or.imp_right .inr
      · rintro (h | rfl | h)
        · exact .inl h
        · exact .inl hmem
        · exact .inr h
    · rename_i hmem
      obtain ⟨hstart, hnames, hnodup⟩ := ih (names ++ [o])
      refine ⟨(List.prefix_append names [o]).trans hstart, fun n => ?_, fun h => hnodup ?_⟩
      · rw [hnames, List.mem_append, List.mem_singleton, List.mem_cons, or_assoc]
      · rw [List.nodup_append]
        refine ⟨h, List.nodup_singleton o, ?_⟩
        rintro n hn _ ho rfl
        exact hmem (List.mem_singleton.mp ho ▸ hn)

/-- The numbers of the extensions of a type. -/
theorem numbers_law (name : String) :
    (∀ c extendee, FirstGives (s.catalogues user own)
        (fun c => crate.messageIndex c.reflector.pool (normalized name)) c extendee →
      messageResponse (s.allExtensionNumbersOfType name) =
        .allExtensionNumbersResponse (normalized name)
          ((crate.extensionsOf c.reflector.pool extendee).filter fun n => decide (n < 2 ^ 31))) ∧
    ((∀ c ∈ s.catalogues user own, crate.messageIndex c.reflector.pool (normalized name) = none) →
      Missed (.allExtensionNumbersOfType name)
        (messageResponse (s.allExtensionNumbersOfType name))) := by
  constructor
  · intro c extendee hfirst
    have hfound : s.search (crate.messageIndex · (normalized name)) = some (c.reflector, extendee) :=
      search_eq_some hfirst
    rw [allExtensionNumbersOfType, hfound]
    rfl
  · intro hmissed
    have hfound : s.search (crate.messageIndex · (normalized name)) = none :=
      search_eq_none.mpr hmissed
    rw [allExtensionNumbersOfType, hfound]
    refine ⟨_, rfl, fun hsize => ?_⟩
    have hecho : (toString (echoed crate.unprintable name)).utf8ByteSize ≤ 840 :=
      echoed_size_le crate.unprintable hsize
    have hmessage : (toString "message ").utf8ByteSize = 8 := rfl
    have hnotFound : (toString " not found").utf8ByteSize = 10 := rfl
    simp only [String.utf8ByteSize_append]
    omega

/-- The services that are listed. -/
theorem services_law (s : ReflectionService crate) :
    (∀ chosen, s.servicesOverride = some chosen → s.serviceNames = chosen) ∧
    (s.servicesOverride = none → crate.services s.reflector.pool <+: s.serviceNames ∧
      (∀ n, n ∈ s.serviceNames ↔
        n ∈ crate.services s.reflector.pool ∨ n ∈ crate.services s.own.pool) ∧
      ((crate.services s.reflector.pool).Nodup → s.serviceNames.Nodup)) := by
  constructor
  · intro chosen hchosen
    rw [serviceNames, hchosen, Option.getD_some]
  · intro hall
    rw [serviceNames, hall, Option.getD_none]
    exact addMissing_law _ _

/-- So many rounds are enough for every catalogue. -/
theorem rounds_le {rounds : ℕ} (huser : s.reflector.rounds ≤ rounds) (hown : s.own.rounds ≤ rounds)
    {c : Catalogue crate} (hc : c ∈ s.catalogues user own) : c.reflector.rounds ≤ rounds := by
  rcases List.mem_cons.mp hc with rfl | hc
  · exact huser
  · rw [List.mem_singleton.mp hc]
    exact hown

/-- A file that is located is answered, the same whichever way it is located. -/
theorem answer_file (hcrate : crate.Lawful) (htracks : ∀ c ∈ s.catalogues user own, c.Tracked)
    {question : MessageRequest} (h : ∃ c fd, Located (s.catalogues user own) c fd question) :
    ∃ files, (∀ c fd, Located (s.catalogues user own) c fd question → Serves c fd files) ∧
      ∀ rounds, s.reflector.rounds ≤ rounds → s.own.rounds ≤ rounds →
        s.answer rounds question = some (.files files) := by
  have hanswer : ∀ c fd, Located (s.catalogues user own) c fd question → ∃ files,
      Serves c fd files ∧ ∀ rounds, s.reflector.rounds ≤ rounds → s.own.rounds ≤ rounds →
        s.answer rounds question = some (.files files) := by
    intro c fd hlocated
    obtain ⟨hmem, hfd⟩ := hlocated.mem hcrate htracks
    obtain ⟨files, hserves, hfiles⟩ := serves_closure hcrate (htracks c hmem) hfd
    refine ⟨files, hserves, fun rounds huser hown => ?_⟩
    rw [answer_located hcrate htracks hlocated]
    exact hfiles rounds (rounds_le huser hown hmem)
  obtain ⟨c, fd, hlocated⟩ := h
  obtain ⟨files, -, hfiles⟩ := hanswer c fd hlocated
  refine ⟨files, fun c' fd' hlocated' => ?_, hfiles⟩
  obtain ⟨files', hserves, hfiles'⟩ := hanswer c' fd' hlocated'
  have hsame := hfiles (s.reflector.rounds + s.own.rounds) (by omega) (by omega)
  rw [hfiles' _ (by omega) (by omega)] at hsame
  obtain rfl := ReflectionAnswer.files.inj (Option.some.inj hsame)
  exact hserves

/-- **Every question is answered**, with enough rounds. -/
theorem answer_law (hcrate : crate.Lawful) (htracks : ∀ c ∈ s.catalogues user own, c.Tracked)
    (question : MessageRequest) :
    ∃ response, AnswerLaw s (s.catalogues user own) question response ∧
      ∀ rounds, s.reflector.rounds ≤ rounds → s.own.rounds ≤ rounds →
        (s.answer rounds question).map messageResponse = some response := by
  by_cases hfile : ∃ c fd, Located (s.catalogues user own) c fd question
  · obtain ⟨files, hserves, hfiles⟩ := answer_file hcrate htracks hfile
    obtain ⟨c, fd, hlocated⟩ := hfile
    refine ⟨.fileDescriptorResponse files,
      ⟨fun c fd h => ⟨files, rfl, hserves c fd h⟩, ?_, ?_, ?_, ?_⟩, fun rounds huser hown => ?_⟩
    · rintro name rfl
      cases hlocated
    · rintro content rfl
      cases hlocated
    · exact fun hnone => absurd hlocated (hnone c fd)
    · rintro name rfl
      cases hlocated
    · rw [hfiles rounds huser hown]
      rfl
  · have hnone : ∀ c fd, ¬ Located (s.catalogues user own) c fd question :=
      fun c fd h => hfile ⟨c, fd, h⟩
    rcases question with name | symbol | ⟨containingType, number⟩ | name | content
    case allExtensionNumbersOfType =>
      obtain ⟨hnumbers, hmissed⟩ := @numbers_law crate s user own name
      refine ⟨_, ⟨fun c fd h => absurd h (hnone c fd), ?_, by simp, by simp, ?_⟩, fun _ _ _ => rfl⟩
      · rintro _ hname
        obtain rfl := MessageRequest.allExtensionNumbersOfType.inj hname
        exact hnumbers
      · rintro _ hname
        obtain rfl := MessageRequest.allExtensionNumbersOfType.inj hname
        exact hmissed
    case listServices =>
      exact ⟨_, ⟨fun c fd h => absurd h (hnone c fd), by simp,
        fun _ _ => ⟨_, rfl, s.services_law⟩, by simp, by simp⟩, fun _ _ _ => rfl⟩
    all_goals
      obtain ⟨message, hmessage, hsize⟩ := answer_missed hcrate htracks hnone (by simp) (by simp)
      refine ⟨.errorResponse 5 message, ⟨fun c fd h => absurd h (hnone c fd), by simp, by simp,
        fun _ _ _ => ⟨message, rfl, hsize⟩, by simp⟩, fun rounds _ _ => ?_⟩
      rw [hmessage]
      rfl

/-- So is every item of a stream. -/
theorem respondItem_law (hcrate : crate.Lawful) (htracks : ∀ c ∈ s.catalogues user own, c.Tracked)
    (item : Poll (Except ConnectError ServerReflectionRequest)) :
    ∃ response, ItemLaw s (s.catalogues user own) item response ∧
      ∀ rounds, s.reflector.rounds ≤ rounds → s.own.rounds ≤ rounds →
        s.respondItem rounds item = some response := by
  rcases item with _ | e | ⟨host, _ | question⟩
  · exact ⟨_, .pending, fun _ _ _ => rfl⟩
  · exact ⟨_, .error e, fun _ _ _ => rfl⟩
  · exact ⟨_, .unset host, fun _ _ _ => rfl⟩
  · obtain ⟨response, hlaw, hanswer⟩ := answer_law hcrate htracks question
    refine ⟨_, .answered hlaw, fun rounds huser hown => ?_⟩
    obtain ⟨answer, ha, rfl⟩ := Option.map_eq_some_iff.mp (hanswer rounds huser hown)
    simp only [respondItem, respond, ha, Option.map_some]

/-- **A whole stream is answered**, item by item. -/
theorem serverReflectionInfo_law (hcrate : crate.Lawful)
    (htracks : ∀ c ∈ s.catalogues user own, c.Tracked)
    (requests : List (Poll (Except ConnectError ServerReflectionRequest))) :
    ∃ responses, List.Forall₂ (ItemLaw s (s.catalogues user own)) requests responses ∧
      ∀ rounds, s.reflector.rounds ≤ rounds → s.own.rounds ≤ rounds →
        s.serverReflectionInfo rounds requests = some responses := by
  induction requests with
  | nil => exact ⟨[], .nil, fun _ _ _ => rfl⟩
  | cons item requests ih =>
    obtain ⟨responses, hlaw, hresponses⟩ := ih
    obtain ⟨response, hitem, hresponse⟩ := respondItem_law hcrate htracks item
    refine ⟨response :: responses, .cons hitem hlaw, fun rounds huser hown => ?_⟩
    have hrest := hresponses rounds huser hown
    rw [serverReflectionInfo] at hrest ⊢
    rw [List.mapM_cons, hresponse rounds huser hown, hrest]
    rfl

/-! ## Its own descriptors -/

/-- A set of descriptors that can be embedded: it is framed, it decodes to as many files as it
has, and they have different names. -/
structure Embeds (crate : PoolCrate) (bytes : Bytes) (set : List FileDescriptorProto)
    (rawFiles : List Bytes) : Prop where
  /-- the framing -/
  framed : (splitDescriptorSet bytes :
    Option (Except (Reflector.Error crate.toDescriptorCrate) _)) = some (.ok rawFiles)
  /-- the files -/
  decodes : crate.decodeFromSlice bytes = .ok set
  /-- there are as many -/
  length : rawFiles.length = set.length
  /-- they have names -/
  named : ∀ fd ∈ set, fd.name.isSome = true
  /-- and no two have the same -/
  distinct : (set.map FileDescriptorProto.name).Nodup

/-- Of keys that differ it does not matter which value comes last. -/
theorem lookup_reverse {entries : List (String × Bytes)} (h : (entries.map Prod.fst).Nodup)
    (name : String) : entries.reverse.lookup name = entries.lookup name := by
  induction entries with
  | nil => rfl
  | cons e entries ih =>
    rw [List.map_cons, List.nodup_cons] at h
    rw [List.reverse_cons, List.lookup_append, ih h.2]
    by_cases hname : name = e.1
    · subst hname
      have hnone : entries.lookup e.1 = none := by
        rw [List.lookup_eq_none_iff]
        intro e' he'
        have hne : e'.1 ≠ e.1 := fun heq => h.1 (heq ▸ List.mem_map_of_mem he')
        simpa using hne.symm
      rw [hnone, Option.none_or]
      exact (List.lookup_cons_self).trans List.lookup_cons_self.symm
    · have hnone : List.lookup name [e] = none := by
        rw [List.lookup_eq_none_iff]
        simpa using hname
      rw [hnone, Option.or_none, List.lookup_cons, beq_false_of_ne hname]

/-- The names of files that all have names. -/
theorem exists_names {set : List FileDescriptorProto} (h : ∀ fd ∈ set, fd.name.isSome = true) :
    ∃ names : List String, set.map FileDescriptorProto.name = names.map some := by
  induction set with
  | nil => exact ⟨[], rfl⟩
  | cons fd set ih =>
    obtain ⟨names, hnames⟩ := ih fun fd' h' => h fd' (List.mem_cons_of_mem fd h')
    obtain ⟨name, hname⟩ := Option.isSome_iff_exists.mp (h fd List.mem_cons_self)
    exact ⟨name :: names, by rw [List.map_cons, List.map_cons, hname, hnames]⟩

/-- Pairs of names and bytes, where all have names. -/
theorem filterMap_zip {set : List FileDescriptorProto} {names : List String}
    (hnames : set.map FileDescriptorProto.name = names.map some) (rawFiles : List Bytes) :
    (set.zip rawFiles).filterMap (fun copy => copy.1.name.map (·, copy.2)) =
      names.zip rawFiles := by
  induction set generalizing names rawFiles with
  | nil =>
    obtain rfl := List.map_eq_nil_iff.mp hnames.symm
    rfl
  | cons fd set ih =>
    cases names with
    | nil => cases hnames
    | cons name names =>
      obtain ⟨hname, hnames⟩ := List.cons.inj hnames
      cases rawFiles with
      | nil => rfl
      | cons raw rawFiles =>
        rw [List.zip_cons_cons, List.zip_cons_cons, List.filterMap_cons, hname, Option.map_some,
          ih hnames]

/-- **The service's own descriptors** are in step with the set that is embedded. -/
theorem tracks_own (hcrate : crate.Lawful) {bytes : Bytes} {set : List FileDescriptorProto}
    {rawFiles : List Bytes} (hembeds : Embeds crate bytes set rawFiles)
    {r : Reflector crate.toDescriptorCrate} (h : selfDescriptors bytes = some r) :
    Reflector.Tracks (set.zip rawFiles) r := by
  obtain ⟨pool, hpool, rfl⟩ : ∃ pool, crate.new set = .ok pool ∧ r = ⟨pool,
      ((set.zip rawFiles).filterMap fun copy => copy.1.name.map (·, copy.2)).reverse⟩ := by
    rw [selfDescriptors, hembeds.framed, hembeds.decodes] at h
    rcases hpool : crate.new set with e | pool
    · simp [hpool] at h
    · simp only [hpool] at h
      exact ⟨pool, rfl, (Option.some.inj h).symm⟩
  obtain ⟨names, hnames⟩ := exists_names hembeds.named
  have hfiles := hcrate.new_files hpool
  refine ⟨fun fd hfd => ?_, fun name => ?_, fun name => ?_⟩
  · rw [hfiles] at hfd
    rcases mem_of_mem_mergeFirst hfd with hmem | hmem
    · cases hmem
    · exact hembeds.named fd hmem
  · have hfst : (set.zip rawFiles).map Prod.fst = set :=
      List.map_fst_zip (Nat.le_of_eq hembeds.length.symm)
    rw [hfiles, find?_mergeFirst fun n => n = some name, List.nil_append,
      ← Reflector.find?_copies, hfst]
  · rw [filterMap_zip hnames, lookup_reverse, Reflector.lookup_copies hnames]
    have hfst : (names.zip rawFiles).map Prod.fst = names := by
      apply List.map_fst_zip
      have hlength := congrArg List.length hnames
      simp only [List.length_map] at hlength
      rw [← hlength, hembeds.length]
    rw [hfst]
    have hdistinct := hembeds.distinct
    rw [hnames] at hdistinct
    exact hdistinct.of_map

end ReflectionService

/-- **Reflection.** A service whose reflector was built in any way answers a stream of requests
item by item: every question gets the answer that `AnswerLaw` tells, with the host and the request,
and only a request without a question is an error. The loops need a number of rounds that the
files decide. -/
theorem reflection_answers (hcrate : crate.Lawful) {s : ReflectionService crate}
    {user : List (FileDescriptorProto × Bytes)} (hbuilt : Reflector.Built user s.reflector)
    {bytes : Bytes} {set : List FileDescriptorProto} {rawFiles : List Bytes}
    (hembeds : ReflectionService.Embeds crate bytes set rawFiles)
    (hown : selfDescriptors bytes = some s.own)
    (requests : List (Poll (Except ConnectError ServerReflectionRequest))) :
    ∃ responses,
      List.Forall₂ (s.ItemLaw (s.catalogues user (set.zip rawFiles))) requests responses ∧
      ∀ rounds, s.reflector.rounds ≤ rounds → s.own.rounds ≤ rounds →
        s.serverReflectionInfo rounds requests = some responses := by
  refine ReflectionService.serverReflectionInfo_law hcrate (fun c hc => ?_) requests
  rcases List.mem_cons.mp hc with rfl | hc
  · exact hbuilt.tracks hcrate.keepsFirst
  · rw [List.mem_singleton.mp hc]
    exact ReflectionService.tracks_own hcrate hembeds hown

/-- The crate that decodes one set, with a symbol in one of its files. -/
def poolOfLists : PoolCrate where
  toDescriptorCrate := crateOfLists
  new set := .ok ⟨mergeFirst [] set, mergeFirst_distinct List.nodup_nil⟩
  services _ := ["pkg.S"]
  fileContainingSymbol pool symbol :=
    if symbol = "pkg.S" then crateOfLists.fileByName pool "b" else none
  MessageIndex := Unit
  messageIndex _ _ := none
  extensionFor _ _ _ := none
  extensionsOf _ _ := []
  unprintable _ := false

theorem poolOfLists_lawful : poolOfLists.Lawful where
  keepsFirst := crateOfLists_keepsFirst
  new_files := by
    intro set pool h
    obtain rfl := Except.ok.inj h
    rfl
  symbol_mem := by
    intro pool symbol fd h
    simp only [poolOfLists, Option.ite_none_right_eq_some] at h
    exact List.mem_of_find?_eq_some h.2

/-- A stream that asks for a symbol, for a file that is not there, and for nothing. -/
theorem reflection_answers_three :
    ∃ (s : ReflectionService poolOfLists)
      (responses : List (Poll (Except ConnectError ServerReflectionResponse))),
      s.serverReflectionInfo 10 [.ready (.ok ⟨"h", some (.fileContainingSymbol "pkg.S")⟩),
        .ready (.ok ⟨"h", some (.fileByFilename "c")⟩), .ready (.ok ⟨"h", none⟩)] =
          some responses ∧ responses.length = 3 := by
  let bytes : Bytes :=
    [0x0A, 9, 0x0A, 1, 97, 0x1A, 1, 98, 0x1A, 1, 99, 0x0A, 6, 0x0A, 1, 98, 0x1A, 1, 97]
  let set : List FileDescriptorProto := [⟨some "a", ["b", "c"]⟩, ⟨some "b", ["a"]⟩]
  let rawA : Bytes := [0x0A, 1, 97, 0x1A, 1, 98, 0x1A, 1, 99]
  let rawB : Bytes := [0x0A, 1, 98, 0x1A, 1, 97]
  let r : Reflector crateOfLists := ⟨⟨set, by decide⟩, [("a", rawA), ("b", rawB)]⟩
  let own : Reflector crateOfLists := ⟨⟨set, by decide⟩, [("b", rawB), ("a", rawA)]⟩
  have hadd : Reflector.empty.addDescriptorSetBytes false bytes = some (.ok r) := rfl
  have hraw : (splitDescriptorSet bytes : Option (Except (Reflector.Error crateOfLists) _)) =
      some (.ok [rawA, rawB]) := rfl
  have hset : crateOfLists.decodeFromSlice bytes = .ok set := rfl
  have hbuilt := Reflector.Built.added .empty hadd hraw hset
  obtain ⟨responses, hlaw, hresponses⟩ :=
    @reflection_answers poolOfLists poolOfLists_lawful ⟨r, none, own⟩ _ hbuilt bytes set [rawA, rawB]
      ⟨hraw, hset, rfl, by decide, by decide⟩ rfl
      [.ready (.ok ⟨"h", some (.fileContainingSymbol "pkg.S")⟩),
        .ready (.ok ⟨"h", some (.fileByFilename "c")⟩), .ready (.ok ⟨"h", none⟩)]
  exact ⟨_, responses, hresponses 10 (by decide) (by decide), hlaw.length_eq.symm⟩

end ConnectRpc
