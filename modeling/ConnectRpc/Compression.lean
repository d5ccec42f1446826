import ConnectRpc.Error

/-!
# Compression

Providers, the registry that looks them up by encoding name, and the policy that
decides per message. A registry only holds providers whose names are HTTP tokens,
as `register` admits no others.
-/

namespace ConnectRpc

open Lib

/-- Whether a text is an RFC 9110 token. -/
def isHttpToken (s : String) : Bool :=
  !s.toList.isEmpty &&
    s.toList.all fun c => c.isAlphanum || "!#$%&'*+-.^_`|~".toList.contains c

/-- A compression algorithm. -/
structure CompressionProvider where
  /-- its encoding name -/
  name : String
  /-- compress a message -/
  compress : Bytes → Except ConnectError Bytes
  /-- decompress a message, refusing one larger than the bound -/
  decompressWithLimit : Bytes → ℕ → Except ConnectError Bytes

/-- The providers registered, at most one for each name. -/
structure CompressionRegistry where
  /-- the providers -/
  providers : List CompressionProvider
  /-- every name is a token -/
  tokens : ∀ p ∈ providers, isHttpToken p.name = true

namespace CompressionRegistry

/-- A registry with no providers. -/
def new : CompressionRegistry :=
  ⟨[], by simp⟩

/-- Register a provider, replacing one of the same name. -/
def register (reg : CompressionRegistry) (p : CompressionProvider)
    (h : isHttpToken p.name = true) : CompressionRegistry :=
  ⟨p :: reg.providers.filter (fun q => q.name ≠ p.name), by
    intro q hq
    rcases List.mem_cons.mp hq with rfl | hq
    · exact h
    · exact reg.tokens q (List.mem_filter.mp hq).1⟩

/-- The provider of a name. -/
def get (reg : CompressionRegistry) (name : String) : Option CompressionProvider :=
  reg.providers.find? (fun p => p.name = name)

/-- Whether a name is registered. -/
def supports (reg : CompressionRegistry) (name : String) : Bool :=
  (reg.get name).isSome

/-- The error for an encoding no provider is registered for. -/
def unsupported (encoding : String) : ConnectError :=
  .unimplemented s!"unsupported compression encoding: {encoding}"

/-- Decompress with a bound on the result. `identity` is the message itself, and
an empty message is never decompressed. -/
def decompressWithLimit (reg : CompressionRegistry) (encoding : String) (data : Bytes)
    (maxSize : ℕ) : Except ConnectError Bytes :=
  if encoding = "identity" then
    if data.length > maxSize then
      .error (.resourceExhausted s!"message size {data.length} exceeds limit {maxSize}")
    else .ok data
  else
    match reg.get encoding with
    | none => .error (unsupported encoding)
    | some p => if data = [] then .ok data else p.decompressWithLimit data maxSize

/-- Compress. `identity` is the message itself. -/
def compress (reg : CompressionRegistry) (encoding : String) (data : Bytes) :
    Except ConnectError Bytes :=
  if encoding = "identity" then .ok data
  else
    match reg.get encoding with
    | none => .error (unsupported encoding)
    | some p => p.compress data

theorem get_name {reg : CompressionRegistry} {name : String} {p : CompressionProvider}
    (h : reg.get name = some p) : p.name = name := by
  have := List.find?_some h
  simpa using this

theorem isHttpToken_of_get {reg : CompressionRegistry} {name : String}
    {p : CompressionProvider} (h : reg.get name = some p) : isHttpToken name = true := by
  rw [← get_name h]
  exact reg.tokens p (List.mem_of_find?_eq_some h)

end CompressionRegistry

/-- A provider never yields more than the bound, as its trait demands. -/
def CompressionProvider.HonoursLimit (p : CompressionProvider) : Prop :=
  ∀ {z d : Bytes} {limit : ℕ}, p.decompressWithLimit z limit = .ok d → d.length ≤ limit

namespace CompressionRegistry

/-- All providers keep to the bound. -/
def HonoursLimit (reg : CompressionRegistry) : Prop :=
  ∀ p ∈ reg.providers, p.HonoursLimit

/-- Then so does the registry. -/
theorem HonoursLimit.length_le {reg : CompressionRegistry} (h : reg.HonoursLimit)
    {encoding : String} {z d : Bytes} {limit : ℕ}
    (hd : reg.decompressWithLimit encoding z limit = .ok d) : d.length ≤ limit := by
  rw [decompressWithLimit] at hd
  by_cases hid : encoding = "identity"
  · rw [if_pos hid] at hd
    by_cases hlong : z.length > limit
    · rw [if_pos hlong] at hd
      cases hd
    · rw [if_neg hlong] at hd
      obtain rfl := Except.ok.inj hd
      exact Nat.le_of_not_lt hlong
  · rw [if_neg hid] at hd
    rcases hp : reg.get encoding with _ | p
    · rw [hp] at hd
      cases hd
    · rw [hp] at hd
      simp only at hd
      by_cases hempty : z = []
      · rw [if_pos hempty] at hd
        obtain rfl := Except.ok.inj hd
        rw [hempty]
        exact Nat.zero_le _
      · rw [if_neg hempty] at hd
        exact h p (List.mem_of_find?_eq_some hp) hd

end CompressionRegistry

/-- What one side's provider compresses, the other side's provider decompresses
within any bound the message keeps to; a message that is not empty is never
compressed to nothing, which a receiver would take for an empty one. -/
structure Inverts (sender receiver : CompressionRegistry) (encoding : String) : Prop where
  /-- the receiver has a provider -/
  registered : encoding ≠ "identity" → receiver.supports encoding = true
  /-- decompressing inverts compressing -/
  inverts : ∀ {p q : CompressionProvider}, sender.get encoding = some p →
    receiver.get encoding = some q → ∀ {data z : Bytes} {limit : ℕ}, p.compress data = .ok z →
      data.length ≤ limit → q.decompressWithLimit z limit = .ok data
  /-- only an empty message is compressed to nothing -/
  nonempty : ∀ {p : CompressionProvider}, sender.get encoding = some p →
    ∀ {data : Bytes}, p.compress data = .ok [] → data = []

/-- The registries invert each other as their providers do. -/
theorem Inverts.decompress_compress {sender receiver : CompressionRegistry} {encoding : String}
    (h : Inverts sender receiver encoding) {data z : Bytes} {limit : ℕ}
    (hz : sender.compress encoding data = .ok z) (hlen : data.length ≤ limit) :
    receiver.decompressWithLimit encoding z limit = .ok data := by
  rw [CompressionRegistry.compress] at hz
  rw [CompressionRegistry.decompressWithLimit]
  by_cases hid : encoding = "identity"
  · rw [if_pos hid] at hz
    obtain rfl := Except.ok.inj hz
    rw [if_pos hid, if_neg (Nat.not_lt.mpr hlen)]
  · rw [if_neg hid] at hz
    obtain ⟨q, hq⟩ := Option.isSome_iff_exists.mp (h.registered hid)
    rcases hp : sender.get encoding with _ | p
    · rw [hp] at hz
      cases hz
    · rw [hp] at hz
      simp only at hz
      rw [if_neg hid, hq]
      simp only
      by_cases hempty : z = []
      · subst hempty
        rw [if_pos rfl, h.nonempty hp hz]
      · rw [if_neg hempty, h.inverts hp hq hz hlen]

/-- When to compress. -/
structure CompressionPolicy where
  /-- whether to compress at all -/
  enabled : Bool
  /-- the smallest message compressed -/
  minSize : ℕ
  deriving DecidableEq

/-- The default smallest message compressed. -/
def DEFAULT_COMPRESSION_MIN_SIZE : ℕ := 1024

namespace CompressionPolicy

/-- The default policy. -/
def default : CompressionPolicy := ⟨true, DEFAULT_COMPRESSION_MIN_SIZE⟩

/-- Never compress. -/
def disabled : CompressionPolicy := ⟨false, 0⟩

/-- Whether a message of this size is compressed. -/
def shouldCompress (p : CompressionPolicy) (messageSize : ℕ) : Bool :=
  p.enabled && p.minSize ≤ messageSize

/-- The policy after a per-call override. -/
def withOverride (p : CompressionPolicy) : Option Bool → CompressionPolicy
  | none => p
  | some true => ⟨true, 0⟩
  | some false => disabled

end CompressionPolicy

end ConnectRpc
