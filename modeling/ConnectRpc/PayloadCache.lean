import ConnectRpc.Interceptors

/-!
# What a payload caches

A payload is decoded once, and what it decodes to is kept for every later reader. A message that
is put in its place is encoded once, and the bytes are kept with that message. `LazyPayload` has
both caches.

Reading fills the caches and does nothing else (`Op.apply_body`), and what a memo says is what the
message encodes to (`Memoized`). So a payload with caches sends what a `Payload` without them
sends, and `payload_consistent` says what its accessors agree on after any calls.
-/

namespace ConnectRpc

/-- The message types of a program, and what is used to encode and decode them. -/
structure MessageCrate where
  /-- the types of messages -/
  Ty : Type
  /-- types are told apart by their `TypeId` -/
  decEq : DecidableEq Ty
  /-- the messages of a type -/
  Msg : Ty → Type
  /-- `std::any::type_name` -/
  typeName : Ty → String
  /-- `AnyMessage::type_name` -/
  anyTypeName : (t : Ty) → Msg t → String
  /-- `AnyMessage::encode` -/
  encode : (t : Ty) → Msg t → CodecFormat → Except ConnectError Bytes
  /-- `buffa::DecodeOptions::decode_from_slice`, with its error as it is shown -/
  decodeFromSlice : (t : Ty) → DecodeOptions → Bytes → Except String (Msg t)
  /-- whether the `json` feature is there -/
  json : Bool
  /-- `serde_json::from_slice`, with its error as it is shown -/
  fromSlice : (t : Ty) → Bytes → Except String (Msg t)
  /-- the types of views -/
  ViewTy : Type
  /-- the views of a type, with their bytes -/
  OwnedView : ViewTy → Type
  /-- `OwnedView::decode` -/
  viewDecode : (v : ViewTy) → Bytes → Except String (OwnedView v)
  /-- `OwnedView::decode_with_options` -/
  viewDecodeWithOptions : (v : ViewTy) → DecodeOptions → Bytes → Except String (OwnedView v)

instance (crate : MessageCrate) : DecidableEq crate.Ty := crate.decEq

variable {crate : MessageCrate}

/-! ## Messages of any type -/

/-- `Box<dyn AnyMessage>` -/
structure AnyMessage (crate : MessageCrate) where
  /-- its type -/
  ty : crate.Ty
  /-- the message -/
  value : crate.Msg ty

namespace AnyMessage

/-- `downcast` -/
def downcast (m : AnyMessage crate) (t : crate.Ty) : Option (crate.Msg t) :=
  if h : m.ty = t then some (h ▸ m.value) else none

/-- The message as one of a type, or an error. -/
def downcastOr (m : AnyMessage crate) (t : crate.Ty) (err : ConnectError) :
    Except ConnectError (crate.Msg t) :=
  match m.downcast t with
  | some value => .ok value
  | none => .error err

/-- `AnyMessage::encode` -/
def encode (m : AnyMessage crate) (format : CodecFormat) : Except ConnectError Bytes :=
  crate.encode m.ty m.value format

/-- `AnyMessage::type_name` -/
def typeName (m : AnyMessage crate) : String :=
  crate.anyTypeName m.ty m.value

theorem downcast_self (t : crate.Ty) (value : crate.Msg t) :
    (AnyMessage.mk t value).downcast t = some value :=
  dif_pos rfl

end AnyMessage

/-- `decode_proto_with_options` -/
def decodeProtoWithOptions (t : crate.Ty) (data : Bytes) (options : DecodeOptions) :
    Except ConnectError (crate.Msg t) :=
  (crate.decodeFromSlice t options data).mapError fun e =>
    .invalidArgument s!"failed to decode proto: {e}"

/-- `JSON_FEATURE_DISABLED` -/
def jsonFeatureDisabled : String :=
  "JSON codec not compiled in (connectrpc built without the `json` feature)"

/-- `decode_json` -/
def decodeJson (t : crate.Ty) (data : Bytes) : Except ConnectError (crate.Msg t) :=
  if crate.json then
    (crate.fromSlice t data).mapError fun e => .invalidArgument s!"failed to decode JSON: {e}"
  else .error (.unimplemented jsonFeatureDisabled)

/-! ## The payload -/

/-- `Replacement` -/
structure Replacement (crate : MessageCrate) where
  /-- the message -/
  message : AnyMessage crate
  /-- what it was encoded to -/
  encoded : Option Bytes

/-- `Replacement::new` -/
def Replacement.new (message : AnyMessage crate) : Replacement crate :=
  ⟨message, none⟩

/-- `Payload`, with its caches. -/
structure LazyPayload (crate : MessageCrate) where
  /-- the bytes as received -/
  bytes : Bytes
  /-- the codec of the body -/
  format : CodecFormat
  /-- what it was decoded to -/
  decoded : Option (AnyMessage crate)
  /-- the message that has been put in its place -/
  replaced : Option (Replacement crate)
  /-- the limits on decoding it -/
  decodeOptions : DecodeOptions

namespace LazyPayload

/-- `Payload::new`. -/
def new (bytes : Bytes) (format : CodecFormat) : LazyPayload crate :=
  ⟨bytes, format, none, none, .new⟩

/-- `Payload::from_message`. -/
def fromMessage (message : AnyMessage crate) (format : CodecFormat) : LazyPayload crate :=
  { new [] format with replaced := some (.new message) }

/-- `Payload::with_decode_options`. -/
def withDecodeOptions (p : LazyPayload crate) (options : DecodeOptions) : LazyPayload crate :=
  { p with decodeOptions := options }

/-- The error where the replacement is of another type. -/
def replacedMismatch (replaced : AnyMessage crate) (t : crate.Ty) : ConnectError :=
  let found := replaced.typeName
  let wanted := crate.typeName t
  .internal s!"payload replacement is a {found}, not a {wanted}"

/-- The error where the body was decoded as another type. -/
def decodedMismatch (cached : AnyMessage crate) (t : crate.Ty) : ConnectError :=
  let found := cached.typeName
  let wanted := crate.typeName t
  .internal s!"payload was previously decoded as a {found}, not a {wanted}"

/-- Decode the bytes as they were received. -/
def decodeBytes (p : LazyPayload crate) (t : crate.Ty) : Except ConnectError (crate.Msg t) :=
  match p.format with
  | .proto => decodeProtoWithOptions t p.bytes p.decodeOptions
  | .json => decodeJson t p.bytes

/-- `Payload::message`. -/
def message (p : LazyPayload crate) (t : crate.Ty) :
    Except ConnectError (crate.Msg t) × LazyPayload crate :=
  match p.replaced with
  | some replaced => (replaced.message.downcastOr t (replacedMismatch replaced.message t), p)
  | none =>
    match p.decoded with
    | some cached => (cached.downcastOr t (decodedMismatch cached t), p)
    | none =>
      match p.decodeBytes t with
      | .error err => (.error err, p)
      | .ok value =>
        let cached : AnyMessage crate := ⟨t, value⟩
        (cached.downcastOr t (decodedMismatch cached t), { p with decoded := some cached })

/-- `Payload::take_message`. -/
def takeMessage (p : LazyPayload crate) (t : crate.Ty) : Except ConnectError (crate.Msg t) :=
  match p.replaced with
  | some replaced => replaced.message.downcastOr t (replacedMismatch replaced.message t)
  | none =>
    match p.decoded with
    | some cached => cached.downcastOr t (decodedMismatch cached t)
    | none => p.decodeBytes t

/-- `Payload::encoded`. -/
def encoded (p : LazyPayload crate) : Except ConnectError Bytes × LazyPayload crate :=
  match p.replaced with
  | none => (.ok p.bytes, p)
  | some replaced =>
    match replaced.encoded with
    | some cached => (.ok cached, p)
    | none =>
      match replaced.message.encode p.format with
      | .error err => (.error err, p)
      | .ok bytes =>
        (.ok bytes, { p with replaced := some { replaced with encoded := some bytes } })

/-- `Payload::encoded_as`. -/
def encodedAs (p : LazyPayload crate) (format : CodecFormat) :
    Except ConnectError Bytes × LazyPayload crate :=
  if format = p.format then p.encoded
  else
    match p.replaced with
    | some replaced => (replaced.message.encode format, p)
    | none =>
      let held := Payload.formatName p.format
      let negotiated := Payload.formatName format
      (.error (.internal (s!"payload carries {held} wire bytes but the " ++
        s!"call negotiated {negotiated}")), p)

/-- `Payload::view`. -/
def view (p : LazyPayload crate) (v : crate.ViewTy) :
    Except ConnectError (crate.OwnedView v) × LazyPayload crate :=
  match p.replaced with
  | some replaced =>
    let (bytes, p) := match p.format with
      | .proto => p.encoded
      | .json => (replaced.message.encode .proto, p)
    (bytes.bind fun bytes => (crate.viewDecode v bytes).mapError fun e =>
      .internal s!"failed to decode replacement as view: {e}", p)
  | none =>
    if p.format ≠ .proto then
      (.error (.internal
        "Payload::view requires a proto-encoded wire; use Payload::message for JSON"), p)
    else
      ((crate.viewDecodeWithOptions v p.decodeOptions p.bytes).mapError fun e =>
        .invalidArgument s!"failed to decode payload as view: {e}", p)

/-- `Payload::try_clone`. -/
def tryClone (p : LazyPayload crate) :
    Except ConnectError (LazyPayload crate) × LazyPayload crate :=
  match p.encoded with
  | (.error err, p) => (.error err, p)
  | (.ok bytes, p) =>
    let copy := new bytes p.format
    (.ok (if p.replaced.isSome then copy else copy.withDecodeOptions p.decodeOptions), p)

/-- `Payload::set_message`. -/
def setMessage (p : LazyPayload crate) (message : AnyMessage crate) : LazyPayload crate :=
  { p with replaced := some (.new message), decoded := none }

end LazyPayload

/-! ## Calls -/

/-- A call of an accessor. -/
inductive PayloadOp (crate : MessageCrate) : Type where
  | message (t : crate.Ty)
  | view (v : crate.ViewTy)
  | encoded
  | encodedAs (format : CodecFormat)
  | tryClone
  | setMessage (message : AnyMessage crate)

/-- What a call leaves behind. -/
def PayloadOp.apply (p : LazyPayload crate) : PayloadOp crate → LazyPayload crate
  | message t => (p.message t).2
  | view v => (p.view v).2
  | encoded => p.encoded.2
  | encodedAs format => (p.encodedAs format).2
  | tryClone => p.tryClone.2
  | setMessage m => p.setMessage m

/-- The message that a call puts in place. -/
def PayloadOp.sets : PayloadOp crate → Option (AnyMessage crate)
  | setMessage m => some m
  | _ => none

/-- Calls, one after the other. -/
def LazyPayload.run (p : LazyPayload crate) (ops : List (PayloadOp crate)) : LazyPayload crate :=
  ops.foldl PayloadOp.apply p

/-! ## Without the caches -/

namespace LazyPayload

/-- The message that is in place of the bytes. -/
def current (p : LazyPayload crate) : Option (AnyMessage crate) :=
  p.replaced.map Replacement.message

/-- A payload without its caches, as interceptors know it. -/
def toPayload (p : LazyPayload crate) : Payload :=
  ⟨p.bytes, p.format, p.current.map AnyMessage.encode, p.decodeOptions⟩

/-- What is kept as the encoding of a message is its encoding. -/
def Memoized (p : LazyPayload crate) : Prop :=
  ∀ replaced, p.replaced = some replaced → ∀ bytes, replaced.encoded = some bytes →
    replaced.message.encode p.format = .ok bytes

/-- Nothing but the caches has changed, and a memo is still right. -/
structure Reads (p q : LazyPayload crate) : Prop where
  /-- the bytes -/
  bytes : q.bytes = p.bytes
  /-- the codec -/
  format : q.format = p.format
  /-- the message in their place -/
  current : q.current = p.current
  /-- the limits -/
  decodeOptions : q.decodeOptions = p.decodeOptions
  /-- the memo -/
  memoized : q.Memoized

variable {p q : LazyPayload crate}

theorem Memoized.reads (h : p.Memoized) : p.Reads p :=
  ⟨rfl, rfl, rfl, rfl, h⟩

theorem Reads.trans {r : LazyPayload crate} (h : p.Reads q) (h' : q.Reads r) : p.Reads r where
  bytes := h'.bytes.trans h.bytes
  format := h'.format.trans h.format
  current := h'.current.trans h.current
  decodeOptions := h'.decodeOptions.trans h.decodeOptions
  memoized := h'.memoized

/-- The two are the same payload without their caches. -/
theorem Reads.toPayload (h : p.Reads q) : q.toPayload = p.toPayload := by
  rw [LazyPayload.toPayload, LazyPayload.toPayload, h.bytes, h.format, h.current, h.decodeOptions]

theorem current_of_replaced {replaced : Replacement crate} (h : p.replaced = some replaced) :
    p.current = some replaced.message := by
  rw [current, h]
  rfl

/-- **What is sent** is what is sent without caches, and asking for it is a read. -/
theorem Memoized.encoded (h : p.Memoized) :
    p.encoded.1 = p.toPayload.encoded ∧ p.Reads p.encoded.2 := by
  rw [LazyPayload.encoded, Payload.encoded, LazyPayload.toPayload, current]
  rcases hreplaced : p.replaced with _ | replaced
  · exact ⟨rfl, h.reads⟩
  · simp only [Option.map_some]
    rcases hencoded : replaced.encoded with _ | cached
    · simp only
      have hencode : AnyMessage.encode replaced.message p.format =
        replaced.message.encode p.format := rfl
      rcases hresult : replaced.message.encode p.format with err | bytes
      · exact ⟨rfl, h.reads⟩
      · refine ⟨rfl, rfl, rfl, ?_, rfl, ?_⟩
        · rw [current_of_replaced hreplaced]
          rfl
        · rintro replaced' hreplaced' bytes' hbytes'
          obtain rfl := Option.some.inj hreplaced'
          obtain rfl := Option.some.inj hbytes'
          exact hresult
    · exact ⟨(h replaced hreplaced cached hencoded).symm, h.reads⟩

theorem Memoized.encodedAs (h : p.Memoized) (format : CodecFormat) :
    (p.encodedAs format).1 = p.toPayload.encodedAs format ∧ p.Reads (p.encodedAs format).2 := by
  have hsame : p.toPayload.format = p.format := rfl
  rw [LazyPayload.encodedAs, Payload.encodedAs, hsame]
  by_cases hformat : format = p.format
  · rw [if_pos hformat, if_pos hformat]
    exact h.encoded
  · rw [if_neg hformat, if_neg hformat, LazyPayload.toPayload, current]
    rcases p.replaced with _ | replaced
    · exact ⟨rfl, h.reads⟩
    · exact ⟨rfl, h.reads⟩

/-- Decoding fills the cache and nothing else. -/
theorem Memoized.message (h : p.Memoized) (t : crate.Ty) : p.Reads (p.message t).2 := by
  rw [LazyPayload.message]
  rcases hreplaced : p.replaced with _ | replaced
  · simp only
    rcases p.decoded with _ | cached
    · simp only
      rcases p.decodeBytes t with err | value
      · exact h.reads
      · refine ⟨rfl, rfl, (congrArg (Option.map _) hreplaced).symm, rfl, ?_⟩
        intro replaced hnone
        cases hnone
    · exact h.reads
  · exact h.reads

theorem Memoized.view (h : p.Memoized) (v : crate.ViewTy) : p.Reads (p.view v).2 := by
  rw [LazyPayload.view]
  rcases p.replaced with _ | replaced
  · simp only
    split
    · exact h.reads
    · exact h.reads
  · simp only
    cases p.format with
    | proto => exact h.encoded.2
    | json => exact h.reads

theorem Memoized.tryClone (h : p.Memoized) : p.Reads p.tryClone.2 := by
  have hencoded := h.encoded.2
  rw [LazyPayload.tryClone]
  rcases hresult : p.encoded with ⟨err | bytes, q⟩
  · rwa [hresult] at hencoded
  · rwa [hresult] at hencoded

/-- **A call** that puts no message in place is a read. -/
theorem Memoized.apply (h : p.Memoized) {op : PayloadOp crate} (hop : op.sets = none) :
    p.Reads (op.apply p) := by
  cases op with
  | message t => exact h.message t
  | view v => exact h.view v
  | encoded => exact h.encoded.2
  | encodedAs format => exact (h.encodedAs format).2
  | tryClone => exact h.tryClone
  | setMessage m => cases hop

/-- Reads, one after the other. -/
theorem Memoized.run (h : p.Memoized) (ops : List (PayloadOp crate))
    (hops : ∀ op ∈ ops, op.sets = none) : p.Reads (p.run ops) := by
  induction ops generalizing p with
  | nil => exact h.reads
  | cons op ops ih =>
    have hread := h.apply (hops op List.mem_cons_self)
    exact hread.trans (ih hread.memoized fun op' hop' => hops op' (List.mem_cons_of_mem op hop'))

/-! ## Replacements -/

/-- A message that was put in place, with nothing encoded yet. -/
theorem memoized_setMessage (p : LazyPayload crate) (m : AnyMessage crate) :
    (p.setMessage m).Memoized := by
  intro replaced hreplaced bytes hbytes
  obtain rfl := Option.some.inj hreplaced
  cases hbytes

/-- Any calls: the message in place is the last one that was put there. -/
theorem run_law (ops : List (PayloadOp crate)) (h : p.Memoized) :
    (p.run ops).Memoized ∧ (p.run ops).bytes = p.bytes ∧ (p.run ops).format = p.format ∧
      (p.run ops).decodeOptions = p.decodeOptions ∧
      (p.run ops).current = ((ops.filterMap PayloadOp.sets).getLast?).or p.current := by
  induction ops generalizing p with
  | nil => exact ⟨h, rfl, rfl, rfl, rfl⟩
  | cons op ops ih =>
    rcases hop : op.sets with _ | m
    · have hread := h.apply hop
      obtain ⟨hmemo, hbytes, hformat, hoptions, hcurrent⟩ := ih hread.memoized
      refine ⟨hmemo, hbytes.trans hread.bytes, hformat.trans hread.format,
        hoptions.trans hread.decodeOptions, ?_⟩
      rw [List.filterMap_cons, hop, ← hread.current]
      exact hcurrent
    · obtain rfl : op = .setMessage m := by
        cases op with
        | setMessage m' => exact congrArg PayloadOp.setMessage (Option.some.inj hop)
        | _ => cases hop
      obtain ⟨hmemo, hbytes, hformat, hoptions, hcurrent⟩ := ih (memoized_setMessage p m)
      refine ⟨hmemo, hbytes, hformat, hoptions, hcurrent.trans ?_⟩
      rw [List.filterMap_cons, hop, List.getLast?_cons]
      cases (ops.filterMap PayloadOp.sets).getLast? with
      | none => rfl
      | some last => rfl

/-- Taking a message gives what reading it gives. -/
theorem takeMessage_eq (p : LazyPayload crate) (t : crate.Ty) :
    p.takeMessage t = (p.message t).1 := by
  rw [takeMessage, LazyPayload.message]
  rcases p.replaced with _ | replaced
  · simp only
    rcases p.decoded with _ | cached
    · simp only
      rcases p.decodeBytes t with err | value
      · rfl
      · simp only [AnyMessage.downcastOr, AnyMessage.downcast_self]
    · rfl
  · rfl

/-- A message in place is what is read, whatever was decoded before. -/
theorem message_current {m : AnyMessage crate} (h : p.current = some m) (t : crate.Ty) :
    (p.message t).1 = m.downcastOr t (replacedMismatch m t) := by
  obtain ⟨replaced, hreplaced, rfl⟩ := Option.map_eq_some_iff.mp h
  rw [LazyPayload.message, hreplaced]

/-- And it is what is viewed. -/
theorem Memoized.view_current (hmemo : p.Memoized) {m : AnyMessage crate}
    (h : p.current = some m) (v : crate.ViewTy) :
    (p.view v).1 = (m.encode .proto).bind fun bytes =>
      (crate.viewDecode v bytes).mapError fun e =>
        .internal s!"failed to decode replacement as view: {e}" := by
  have hencoded := hmemo.encoded.1
  rw [Payload.encoded, LazyPayload.toPayload, h] at hencoded
  obtain ⟨replaced, hreplaced, rfl⟩ := Option.map_eq_some_iff.mp h
  rw [LazyPayload.view, hreplaced]
  simp only
  rcases hformat : p.format with _ | _
  · rw [hformat] at hencoded
    simp only
    rw [hencoded]
    rfl
  · rfl

/-- A copy is sent as the original is, in the same codec. -/
theorem Memoized.tryClone_encoded (h : p.Memoized) :
    (p.tryClone.1.bind fun copy => copy.encoded.1) = p.encoded.1 ∧
      ∀ copy, p.tryClone.1 = .ok copy → copy.format = p.format := by
  have hread := h.encoded.2
  rw [LazyPayload.tryClone]
  rcases hresult : p.encoded with ⟨err | bytes, q⟩
  · exact ⟨rfl, nofun⟩
  · rw [hresult] at hread
    have hcopy : ∀ options : DecodeOptions, (if q.replaced.isSome then new bytes q.format
        else (new bytes q.format).withDecodeOptions options : LazyPayload crate).encoded.1 =
          .ok bytes ∧
        (if q.replaced.isSome then new bytes q.format
        else (new bytes q.format).withDecodeOptions options : LazyPayload crate).format =
          p.format := by
      intro options
      split
      · exact ⟨rfl, hread.format⟩
      · exact ⟨rfl, hread.format⟩
    refine ⟨(hcopy q.decodeOptions).1, fun copy heq => ?_⟩
    obtain rfl := Except.ok.inj heq
    exact (hcopy q.decodeOptions).2

end LazyPayload

/-- How a payload starts. -/
inductive PayloadStart (crate : MessageCrate) : Type where
  | received (bytes : Bytes) (format : CodecFormat) (options : DecodeOptions)
  | fromMessage (message : AnyMessage crate) (format : CodecFormat) (options : DecodeOptions)

namespace PayloadStart

/-- The payload. -/
def payload : PayloadStart crate → LazyPayload crate
  | received bytes format options => (LazyPayload.new bytes format).withDecodeOptions options
  | fromMessage m format options => (LazyPayload.fromMessage m format).withDecodeOptions options

/-- The bytes that were received. -/
def bytes : PayloadStart crate → Bytes
  | received bytes _ _ => bytes
  | fromMessage _ _ _ => []

/-- The codec. -/
def format : PayloadStart crate → CodecFormat
  | received _ format _ => format
  | fromMessage _ format _ => format

/-- The message that it was made from. -/
def message : PayloadStart crate → Option (AnyMessage crate)
  | received _ _ _ => none
  | fromMessage m _ _ => some m

/-- The last message that was put in place, by some calls or before them. -/
def latest (start : PayloadStart crate) (ops : List (PayloadOp crate)) :
    Option (AnyMessage crate) :=
  ((ops.filterMap PayloadOp.sets).getLast?).or start.message

theorem law (start : PayloadStart crate) :
    start.payload.Memoized ∧ start.payload.bytes = start.bytes ∧
      start.payload.format = start.format ∧ start.payload.current = start.message := by
  cases start with
  | received bytes format options => exact ⟨nofun, rfl, rfl, rfl⟩
  | fromMessage m format options =>
    refine ⟨?_, rfl, rfl, rfl⟩
    intro replaced hreplaced bytes hbytes
    obtain rfl := Option.some.inj hreplaced
    cases hbytes

end PayloadStart

/-- **The accessors of a payload agree**, after any calls with any types. What is sent is the
encoding of the latest message put in place, or the bytes as received, and reading changes nothing
of that. A copy is sent in the same codec and as the same bytes. A message is taken exactly where
it could be read, with the same outcome. And a message put in place is what is read and viewed,
whatever was decoded before. -/
theorem payload_consistent (start : PayloadStart crate) (ops : List (PayloadOp crate)) :
    let p := start.payload.run ops
    (start.latest ops = none → p.encoded.1 = .ok start.bytes) ∧
    (∀ m, start.latest ops = some m → p.encoded.1 = m.encode start.format) ∧
    (∀ reads : List (PayloadOp crate), (∀ op ∈ reads, op.sets = none) →
      (p.run reads).encoded.1 = p.encoded.1) ∧
    (p.tryClone.1.bind fun copy => copy.encoded.1) = p.encoded.1 ∧
    (∀ copy, p.tryClone.1 = .ok copy → copy.format = p.format) ∧
    (∀ t, p.takeMessage t = (p.message t).1) ∧
    ∀ m, start.latest ops = some m →
      (∀ t, (p.message t).1 = m.downcastOr t (LazyPayload.replacedMismatch m t)) ∧
      ∀ v, (p.view v).1 = (m.encode .proto).bind fun bytes =>
        (crate.viewDecode v bytes).mapError fun e =>
          .internal s!"failed to decode replacement as view: {e}" := by
  intro p
  obtain ⟨hstart, hbytes, hformat, hmessage⟩ := start.law
  obtain ⟨hmemo, hbytes', hformat', -, hcurrent⟩ := LazyPayload.run_law ops hstart
  rw [hmessage] at hcurrent
  have hlatest : p.current = start.latest ops := hcurrent
  have hencoded := hmemo.encoded.1
  obtain ⟨hclone, hcopy⟩ := hmemo.tryClone_encoded
  refine ⟨fun hnone => ?_, fun m hm => ?_, fun reads hreads => ?_, hclone, hcopy,
    LazyPayload.takeMessage_eq p, fun m hm => ⟨fun t => ?_, fun v => ?_⟩⟩
  · rw [hencoded, Payload.encoded, LazyPayload.toPayload, hlatest, hnone]
    exact congrArg Except.ok (hbytes'.trans hbytes)
  · rw [hencoded, Payload.encoded, LazyPayload.toPayload, hlatest, hm]
    exact congrArg m.encode (hformat'.trans hformat)
  · have hread := hmemo.run reads hreads
    rw [hread.memoized.encoded.1, hread.toPayload, ← hencoded]
  · exact LazyPayload.message_current (hlatest.trans hm) t
  · exact hmemo.view_current (hlatest.trans hm) v

end ConnectRpc
