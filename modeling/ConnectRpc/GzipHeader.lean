import ConnectRpc.Error
import Mathlib.Data.List.TakeWhile

/-!
# The gzip header

A gzip member begins with ten bytes and up to four fields, which flags in the fourth byte announce.
The code walks over them by an offset into bytes that it was sent by someone else; it may read
outside of them only by a panic, which `Outcome` makes visible.

`IsGzipHeader` is the grammar of RFC 1952. The offset is found if and only if the bytes begin with
a header, and is its length (`gzipHeaderLen_eq_iff`); else there is an error (`gzipHeaderLen_safe`).
-/

namespace ConnectRpc

/-- What comes of code that may panic, or not have ended yet. -/
inductive Outcome (α : Type) : Type where
  | value (a : α) : Outcome α
  | failed (e : ConnectError) : Outcome α
  | panicked : Outcome α
  | running : Outcome α

/-- Goes on with the value. -/
def Outcome.bind {α β : Type} (o : Outcome α) (f : α → Outcome β) : Outcome β :=
  match o with
  | value a => f a
  | failed e => failed e
  | panicked => panicked
  | running => running

theorem Outcome.bind_eq_value {α β : Type} {o : Outcome α} {f : α → Outcome β} {b : β} :
    o.bind f = .value b ↔ ∃ a, o = .value a ∧ f a = .value b := by
  cases o with
  | value a =>
    constructor
    · exact fun h => ⟨a, rfl, h⟩
    · rintro ⟨a', ha, h⟩
      cases ha
      exact h
  | failed e => simp [bind]
  | panicked => simp [bind]
  | running => simp [bind]

/-- A compressed payload that cannot be read. -/
def malformedCompressedPayload (message : String) : ConnectError :=
  .invalidArgument message

/-- Code that has ended, and has not panicked. It says of what is wrong that the payload is
malformed. -/
def Outcome.Parses {α : Type} (o : Outcome α) : Prop :=
  (∃ a, o = .value a) ∨ ∃ message, o = .failed (malformedCompressedPayload message)

theorem Outcome.Parses.bind {α β : Type} {o : Outcome α} {f : α → Outcome β} (ho : o.Parses)
    (hf : ∀ a, o = .value a → (f a).Parses) : (o.bind f).Parses := by
  obtain ⟨a, rfl⟩ | ⟨message, rfl⟩ := ho
  · exact hf a rfl
  · exact .inr ⟨message, rfl⟩

theorem Outcome.Parses.value {α : Type} (a : α) : (Outcome.value a).Parses := .inl ⟨a, rfl⟩

theorem Outcome.Parses.malformed {α : Type} (message : String) :
    (Outcome.failed (malformedCompressedPayload message) : Outcome α).Parses :=
  .inr ⟨message, rfl⟩

namespace Gzip

/-- One byte, by its place. -/
def byteAt (data : Bytes) (i : ℕ) : Outcome UInt8 :=
  match data[i]? with
  | some b => .value b
  | none => .panicked

theorem byteAt_of_lt {data : Bytes} {i : ℕ} (h : i < data.length) :
    byteAt data i = .value data[i] := by
  rw [byteAt, List.getElem?_eq_getElem h]

/-- The error for a header that ends too soon. -/
def truncatedHeader : ConnectError :=
  malformedCompressedPayload "truncated gzip header"

/-- The fixed part of the header: the flags. -/
def fixedHeader (data : Bytes) : Outcome UInt8 :=
  if data.length < 10 then .failed (malformedCompressedPayload "gzip data too short for header")
  else
    (byteAt data 0).bind fun m0 =>
    (byteAt data 1).bind fun m1 =>
    if m0 ≠ 0x1f ∨ m1 ≠ 0x8b then .failed (malformedCompressedPayload "invalid gzip magic")
    else
      (byteAt data 2).bind fun method =>
      if method ≠ 0x08 then
        .failed (malformedCompressedPayload "unsupported gzip compression method")
      else byteAt data 3

/-- FEXTRA. The offset after it may be past the end. -/
def skipExtra (flags : UInt8) (data : Bytes) (pos : ℕ) : Outcome ℕ :=
  if flags &&& 0x04 ≠ 0 then
    if pos + 2 > data.length then .failed truncatedHeader
    else
      (byteAt data pos).bind fun lo =>
      (byteAt data (pos + 1)).bind fun hi =>
      .value (pos + (2 + (lo.toNat + 0x100 * hi.toNat)))
  else .value pos

/-- FNAME and FCOMMENT, each of which is announced by a bit and ended by a zero. -/
def skipText (bit flags : UInt8) (data : Bytes) (pos : ℕ) : Outcome ℕ :=
  if flags &&& bit ≠ 0 then
    let pos := pos + ((data.drop pos).takeWhile fun b => b != 0).length
    if pos ≥ data.length then .failed truncatedHeader
    else .value (pos + 1)
  else .value pos

/-- FHCRC, and whether the header has ended before the bytes do. -/
def skipHcrc (flags : UInt8) (data : Bytes) (pos : ℕ) : Outcome ℕ :=
  let pos := if flags &&& 0x02 ≠ 0 then pos + 2 else pos
  if pos > data.length then .failed truncatedHeader
  else .value pos

/-- `gzip_header_len`. -/
def gzipHeaderLen (data : Bytes) : Outcome ℕ :=
  (fixedHeader data).bind fun flags =>
  (skipExtra flags data 10).bind fun pos =>
  (skipText 0x08 flags data pos).bind fun pos =>
  (skipText 0x10 flags data pos).bind fun pos =>
  skipHcrc flags data pos

/-! ## The grammar -/

/-- A field that is there only if it is announced. -/
def Field (announced : Prop) (form : Bytes → Prop) (field : Bytes) : Prop :=
  (announced ∧ form field) ∨ (¬ announced ∧ field = [])

/-- A field with its length in front. -/
def IsExtra (field : Bytes) : Prop :=
  ∃ lo hi body, field = lo :: hi :: body ∧ body.length = lo.toNat + 0x100 * hi.toNat

/-- A text, ended by a zero. -/
def IsText (field : Bytes) : Prop :=
  ∃ text, (0 : UInt8) ∉ text ∧ field = text ++ [0]

/-- A gzip header. After the flags come the time, the extra flags and the operating system, which
are skipped as the checksum of the header is. -/
def IsGzipHeader (header : Bytes) : Prop :=
  ∃ flags skipped extra name comment hcrc,
    header = [0x1f, 0x8b, 0x08, flags] ++ skipped ++ extra ++ name ++ comment ++ hcrc ∧
    skipped.length = 6 ∧ Field (flags &&& 0x04 ≠ 0) IsExtra extra ∧
    Field (flags &&& 0x08 ≠ 0) IsText name ∧ Field (flags &&& 0x10 ≠ 0) IsText comment ∧
    Field (flags &&& 0x02 ≠ 0) (fun hcrc => hcrc.length = 2) hcrc

/-! ## What is skipped -/

/-- A field lies at an offset, and ends at another. -/
def Spans (data : Bytes) (pos stop : ℕ) (form : Bytes → Prop) : Prop :=
  ∃ field, form field ∧ field <+: data.drop pos ∧ stop = pos + field.length

theorem fixedHeader_eq_iff {data : Bytes} {flags : UInt8} :
    fixedHeader data = .value flags ↔
      ∃ skipped rest, skipped.length = 6 ∧
        data = [0x1f, 0x8b, 0x08, flags] ++ skipped ++ rest := by
  by_cases hshort : data.length < 10
  · rw [fixedHeader, if_pos hshort]
    constructor
    · intro h
      cases h
    · rintro ⟨skipped, rest, hskipped, rfl⟩
      simp only [List.length_append, List.length_cons, List.length_nil] at hshort
      omega
  · obtain ⟨m0, m1, method, flags', tail, rfl⟩ :
        ∃ m0 m1 method flags' tail, data = m0 :: m1 :: method :: flags' :: tail := by
      rcases data with _ | ⟨m0, _ | ⟨m1, _ | ⟨method, _ | ⟨flags', tail⟩⟩⟩⟩
      · simp at hshort
      · simp at hshort
      · simp at hshort
      · simp at hshort
      · exact ⟨m0, m1, method, flags', tail, rfl⟩
    have htail : 6 ≤ tail.length := by
      simp only [List.length_cons] at hshort
      omega
    rw [fixedHeader, if_neg hshort]
    change (if m0 ≠ 0x1f ∨ m1 ≠ 0x8b then _
      else if method ≠ 0x08 then _ else Outcome.value flags') = _ ↔ _
    constructor
    · intro h
      split at h
      · cases h
      · next hmagic =>
        split at h
        · cases h
        · next hmethod =>
          cases h
          obtain ⟨rfl, rfl⟩ : m0 = 0x1f ∧ m1 = 0x8b := by
            refine ⟨?_, ?_⟩
            · exact Classical.not_not.mp fun hne => hmagic (.inl hne)
            · exact Classical.not_not.mp fun hne => hmagic (.inr hne)
          obtain rfl := Classical.not_not.mp hmethod
          refine ⟨tail.take 6, tail.drop 6, ?_, ?_⟩
          · rw [List.length_take, Nat.min_eq_left htail]
          · rw [List.append_assoc, List.take_append_drop]
            rfl
    · rintro ⟨skipped, rest, -, heq⟩
      rw [List.append_assoc] at heq
      simp only [List.cons_append, List.nil_append, List.cons.injEq] at heq
      obtain ⟨rfl, rfl, rfl, rfl, -⟩ := heq
      rfl

theorem fixedHeader_safe (data : Bytes) : (fixedHeader data).Parses := by
  rw [fixedHeader]
  by_cases hshort : data.length < 10
  · rw [if_pos hshort]
    exact .malformed _
  · rw [if_neg hshort, byteAt_of_lt (by omega), byteAt_of_lt (by omega), byteAt_of_lt (by omega),
      byteAt_of_lt (by omega)]
    simp only [Outcome.bind]
    split
    · exact .malformed _
    · split
      · exact .malformed _
      · exact .value _

theorem skipExtra_eq_iff {flags : UInt8} {data : Bytes} {pos stop : ℕ}
    (hstop : stop ≤ data.length) :
    skipExtra flags data pos = .value stop ↔
      Spans data pos stop (Field (flags &&& 0x04 ≠ 0) IsExtra) := by
  rw [skipExtra]
  by_cases hflag : flags &&& 0x04 ≠ 0
  · rw [if_pos hflag]
    constructor
    · intro h
      split at h
      · cases h
      · next hlong =>
        have hpos : pos < data.length := by omega
        have hpos' : pos + 1 < data.length := by omega
        rw [byteAt_of_lt hpos, byteAt_of_lt hpos'] at h
        cases h
        generalize hn : data[pos].toNat + 0x100 * data[pos + 1].toNat = n at hstop
        have hbody : data.drop pos = data[pos] :: data[pos + 1] :: data.drop (pos + 2) := by
          rw [List.drop_eq_getElem_cons hpos, List.drop_eq_getElem_cons hpos']
        refine ⟨data[pos] :: data[pos + 1] :: (data.drop (pos + 2)).take n,
          .inl ⟨hflag, _, _, _, rfl, ?_⟩, ?_, ?_⟩
        · rw [List.length_take, List.length_drop, hn]
          omega
        · rw [hbody]
          exact List.cons_prefix_cons.mpr ⟨rfl, List.cons_prefix_cons.mpr ⟨rfl, List.take_prefix n _⟩⟩
        · simp only [List.length_cons, List.length_take, List.length_drop]
          omega
    · rintro ⟨field, hfield, hpre, rfl⟩
      rcases hfield with ⟨-, lo, hi, body, rfl, hbody⟩ | ⟨hno, -⟩
      · obtain ⟨rest, hrest⟩ := hpre
        simp only [List.length_cons] at hstop ⊢
        have hlo : data[pos]? = some lo := by
          have := congrArg (·[0]?) hrest
          simpa using this.symm
        have hhi : data[pos + 1]? = some hi := by
          have := congrArg (·[1]?) hrest
          simpa using this.symm
        rw [if_neg (by omega), byteAt, byteAt, hlo, hhi]
        refine congrArg Outcome.value ?_
        omega
      · exact absurd hflag hno
  · rw [if_neg hflag]
    constructor
    · intro h
      cases h
      exact ⟨[], .inr ⟨hflag, rfl⟩, List.nil_prefix, rfl⟩
    · rintro ⟨field, ⟨hyes, -⟩ | ⟨-, rfl⟩, -, rfl⟩
      · exact absurd hyes hflag
      · rfl

theorem skipExtra_safe (flags : UInt8) (data : Bytes) (pos : ℕ) :
    (skipExtra flags data pos).Parses := by
  rw [skipExtra]
  split
  · split
    · exact .malformed _
    · rw [byteAt_of_lt (by omega), byteAt_of_lt (by omega)]
      exact .value _
  · exact .value _

theorem skipText_eq_iff {bit flags : UInt8} {data : Bytes} {pos stop : ℕ} :
    skipText bit flags data pos = .value stop ↔
      Spans data pos stop (Field (flags &&& bit ≠ 0) IsText) := by
  rw [skipText]
  by_cases hflag : flags &&& bit ≠ 0
  · rw [if_pos hflag]
    have hsplit : (data.drop pos).takeWhile (fun b => b != 0) ++
        (data.drop pos).dropWhile (fun b => b != 0) = data.drop pos :=
      List.takeWhile_append_dropWhile
    have hlen := congrArg List.length hsplit
    rw [List.length_append, List.length_drop] at hlen
    constructor
    · intro h
      dsimp only at h
      split at h
      · cases h
      · next hin =>
        cases h
        refine ⟨(data.drop pos).takeWhile (· != 0) ++ [0], .inl ⟨hflag, _, ?_, rfl⟩, ?_, ?_⟩
        · intro hzero
          have := List.mem_takeWhile_imp hzero
          simp at this
        · rcases hrest : (data.drop pos).dropWhile (· != 0) with _ | ⟨b, rest⟩
          · rw [hrest] at hlen
            simp only [List.length_nil] at hlen
            omega
          · have hb := List.head?_dropWhile_not (fun b : UInt8 => b != 0) (data.drop pos)
            rw [hrest] at hb
            have hzero : b = 0 := by simpa using hb
            rw [hrest, hzero] at hsplit
            exact ⟨rest, by rw [List.append_assoc]; exact hsplit⟩
        · rw [List.length_append]
          simp only [List.length_cons, List.length_nil]
          omega
    · rintro ⟨field, hfield, hpre, rfl⟩
      rcases hfield with ⟨-, text, htext, rfl⟩ | ⟨hno, -⟩
      · obtain ⟨rest, hrest⟩ := hpre
        have htake : (data.drop pos).takeWhile (fun b => b != 0) = text := by
          rw [← hrest, List.append_assoc, List.takeWhile_append_of_pos]
          · simp
          · intro b hb
            have hne : b ≠ 0 := fun h => htext (h ▸ hb)
            simpa using hne
        have hall := congrArg List.length hrest
        simp only [List.length_append, List.length_cons, List.length_nil, List.length_drop] at hall
        dsimp only
        rw [htake, if_neg (by omega), List.length_append]
        rfl
      · exact absurd hflag hno
  · rw [if_neg hflag]
    constructor
    · intro h
      cases h
      exact ⟨[], .inr ⟨hflag, rfl⟩, List.nil_prefix, rfl⟩
    · rintro ⟨field, ⟨hyes, -⟩ | ⟨-, rfl⟩, -, rfl⟩
      · exact absurd hyes hflag
      · rfl

theorem skipText_safe (bit flags : UInt8) (data : Bytes) (pos : ℕ) :
    (skipText bit flags data pos).Parses := by
  rw [skipText]
  split
  · dsimp only
    split
    · exact .malformed _
    · exact .value _
  · exact .value _

theorem skipHcrc_eq_iff {flags : UInt8} {data : Bytes} {pos stop : ℕ} :
    skipHcrc flags data pos = .value stop ↔ stop ≤ data.length ∧
      Spans data pos stop (Field (flags &&& 0x02 ≠ 0) fun hcrc => hcrc.length = 2) := by
  rw [skipHcrc]
  by_cases hflag : flags &&& 0x02 ≠ 0
  · rw [if_pos hflag]
    constructor
    · intro h
      split at h
      · cases h
      · next hin =>
        cases h
        have hlen : ((data.drop pos).take 2).length = 2 := by
          rw [List.length_take, List.length_drop]
          omega
        refine ⟨by omega, (data.drop pos).take 2, .inl ⟨hflag, hlen⟩, List.take_prefix 2 _, ?_⟩
        rw [hlen]
    · rintro ⟨hin, field, ⟨-, hlen⟩ | ⟨hno, -⟩, -, rfl⟩
      · rw [hlen] at hin ⊢
        rw [if_neg (by omega)]
      · exact absurd hflag hno
  · rw [if_neg hflag]
    constructor
    · intro h
      split at h
      · cases h
      · next hin =>
        cases h
        exact ⟨by omega, [], .inr ⟨hflag, rfl⟩, List.nil_prefix, rfl⟩
    · rintro ⟨hin, field, ⟨hyes, -⟩ | ⟨-, rfl⟩, -, rfl⟩
      · exact absurd hyes hflag
      · exact if_neg (Nat.not_lt.mpr hin)

theorem skipHcrc_safe (flags : UInt8) (data : Bytes) (pos : ℕ) :
    (skipHcrc flags data pos).Parses := by
  rw [skipHcrc]
  split
  · split
    · exact .malformed _
    · exact .value _
  · split
    · exact .malformed _
    · exact .value _

/-! ## The offset -/

theorem take_span {data field : Bytes} {pos : ℕ} (h : field <+: data.drop pos) :
    data.take (pos + field.length) = data.take pos ++ field := by
  rw [List.take_add]
  obtain ⟨rest, hrest⟩ := h
  rw [← hrest, List.take_left]

theorem spans_of_append (before : Bytes) {field : Bytes} (rest : Bytes) {form : Bytes → Prop}
    (h : form field) :
    Spans (before ++ field ++ rest) before.length (before ++ field).length form := by
  refine ⟨field, h, ?_, List.length_append⟩
  rw [List.append_assoc, List.drop_left]
  exact List.prefix_append field rest

/-- **The offset** is that of the end of a header, and there is one only if the bytes begin with a
header. -/
theorem gzipHeaderLen_eq_iff {data : Bytes} {n : ℕ} :
    gzipHeaderLen data = .value n ↔
      ∃ header rest, data = header ++ rest ∧ header.length = n ∧ IsGzipHeader header := by
  constructor
  · intro h
    obtain ⟨flags, hflags, h⟩ := Outcome.bind_eq_value.mp h
    obtain ⟨p1, hp1, h⟩ := Outcome.bind_eq_value.mp h
    obtain ⟨p2, hp2, h⟩ := Outcome.bind_eq_value.mp h
    obtain ⟨p3, hp3, hp4⟩ := Outcome.bind_eq_value.mp h
    obtain ⟨hn, hcrc, hhcrc, hpre4, rfl⟩ := skipHcrc_eq_iff.mp hp4
    obtain ⟨comment, hcomment, hpre3, rfl⟩ := skipText_eq_iff.mp hp3
    obtain ⟨name, hname, hpre2, rfl⟩ := skipText_eq_iff.mp hp2
    obtain ⟨extra, hextra, hpre1, rfl⟩ := (skipExtra_eq_iff (by omega)).mp hp1
    obtain ⟨skipped, rest, hskipped, hdata⟩ := fixedHeader_eq_iff.mp hflags
    have hfixed : data.take 10 = [0x1f, 0x8b, 0x08, flags] ++ skipped := by
      rw [hdata]
      refine List.take_left' ?_
      rw [List.length_append, hskipped]
      rfl
    refine ⟨data.take (10 + extra.length + name.length + comment.length + hcrc.length),
      data.drop (10 + extra.length + name.length + comment.length + hcrc.length),
      (List.take_append_drop _ _).symm, List.length_take_of_le hn, flags, skipped, extra, name,
      comment, hcrc, ?_, hskipped, hextra, hname, hcomment, hhcrc⟩
    rw [take_span hpre4, take_span hpre3, take_span hpre2, take_span hpre1, hfixed]
  · rintro ⟨header, rest, rfl, rfl, flags, skipped, extra, name, comment, hcrc, rfl, hskipped,
      hextra, hname, hcomment, hhcrc⟩
    have hfixed : ([0x1f, 0x8b, 0x08, flags] ++ skipped).length = 10 := by
      rw [List.length_append, hskipped]
      rfl
    refine Outcome.bind_eq_value.mpr ⟨flags, fixedHeader_eq_iff.mpr
      ⟨skipped, extra ++ name ++ comment ++ hcrc ++ rest, hskipped, ?_⟩, ?_⟩
    · simp only [List.append_assoc]
    refine Outcome.bind_eq_value.mpr
      ⟨([0x1f, 0x8b, 0x08, flags] ++ skipped ++ extra).length, ?_, ?_⟩
    · refine (skipExtra_eq_iff ?_).mpr ?_
      · simp only [List.length_append]
        omega
      · have hspan := spans_of_append ([0x1f, 0x8b, 0x08, flags] ++ skipped)
          (name ++ comment ++ hcrc ++ rest) hextra
        rw [hfixed] at hspan
        simpa only [List.append_assoc] using hspan
    refine Outcome.bind_eq_value.mpr
      ⟨([0x1f, 0x8b, 0x08, flags] ++ skipped ++ extra ++ name).length, ?_, ?_⟩
    · refine skipText_eq_iff.mpr ?_
      have hspan := spans_of_append ([0x1f, 0x8b, 0x08, flags] ++ skipped ++ extra)
        (comment ++ hcrc ++ rest) hname
      simpa only [List.append_assoc] using hspan
    refine Outcome.bind_eq_value.mpr
      ⟨([0x1f, 0x8b, 0x08, flags] ++ skipped ++ extra ++ name ++ comment).length, ?_, ?_⟩
    · refine skipText_eq_iff.mpr ?_
      have hspan := spans_of_append ([0x1f, 0x8b, 0x08, flags] ++ skipped ++ extra ++ name)
        (hcrc ++ rest) hcomment
      simpa only [List.append_assoc] using hspan
    · refine skipHcrc_eq_iff.mpr ⟨?_, ?_⟩
      · exact (List.prefix_append _ rest).length_le
      · exact spans_of_append _ rest hhcrc

/-- No byte is read that is not there. -/
theorem gzipHeaderLen_safe (data : Bytes) : (gzipHeaderLen data).Parses := by
  refine (fixedHeader_safe data).bind fun flags _ => ?_
  refine (skipExtra_safe flags data 10).bind fun pos _ => ?_
  refine (skipText_safe 0x08 flags data pos).bind fun pos _ => ?_
  refine (skipText_safe 0x10 flags data pos).bind fun pos _ => ?_
  exact skipHcrc_safe flags data pos

end Gzip

end ConnectRpc
