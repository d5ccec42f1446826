import ConnectRpc.ClientRequest
import ConnectRpc.Lib.Units

/-!
# Timeouts on the wire

A client writes a timeout into a header and keeps to what it has written; a server reads it.
On Connect that is a number of milliseconds, on gRPC and gRPC-Web a number of at most eight
digits with a unit.

`encodedTimeout_greatest` says that what is written is the longest timeout that can be, up
to the one asked for, and `timeout_roundTrip` that the server reads it as it was meant. The
server reads more than is ever written: `parseTimeout_eq_some_iff` says all that it accepts,
and `parseTimeout_exact_iff` where that is the grammar.
-/

namespace ConnectRpc

open Lib

/-! ## What the server reads -/

/-- What a unit of gRPC stands for. -/
def timeoutUnit : Char → Option Duration
  | 'H' => some (.fromSecs 3600)
  | 'M' => some (.fromSecs 60)
  | 'S' => some (.fromSecs 1)
  | 'm' => some (.fromMillis 1)
  | 'u' => some (.fromMicros 1)
  | 'n' => some (.fromNanos 1)
  | _ => none

/-- Digits with a unit after them. -/
def UnitTimeout (sign : List Char) (most : ℕ) (s : String) (d : Duration) : Prop :=
  ∃ ds c u, s.toList = sign ++ ds ++ [c] ∧ IsNumber most ds ∧ timeoutUnit c = some u ∧
    d = Nat.ofDigitChars 10 ds 0 * u

/-- Digits without one, which are milliseconds. -/
def BareTimeout (sign : List Char) (most : ℕ) (s : String) (d : Duration) : Prop :=
  ∃ ds, s.toList = sign ++ ds ∧ IsNumber most ds ∧ d = .fromMillis (Nat.ofDigitChars 10 ds 0)

/-- The grammar of timeouts, with what they mean. -/
def TimeoutGrammar (s : String) (d : Duration) : Protocol → Prop
  | .connect => BareTimeout [] 10 s d
  | .grpc | .grpcWeb => UnitTimeout [] 8 s d

/-- A timeout with a plus sign in the place of its first digit. -/
def SignedTimeout (s : String) (d : Duration) : Protocol → Prop
  | .connect => BareTimeout ['+'] 9 s d
  | .grpc | .grpcWeb => UnitTimeout ['+'] 7 s d

/-- Digits are ASCII. -/
theorem asciiChar_of_isDigit {c : Char} (h : c.isDigit = true) : asciiChar c = true := by
  rw [Char.isDigit_iff_toNat] at h
  have hnine : '9'.toNat = 57 := rfl
  have hlow : c.toNat < 128 := by omega
  simpa [asciiChar] using hlow

/-- So are units. -/
theorem asciiChar_of_timeoutUnit {c : Char} {u : Duration} (h : timeoutUnit c = some u) :
    asciiChar c = true := by
  rw [timeoutUnit.eq_def] at h
  split at h
  any_goals decide
  cases h

/-- A text has at least as many bytes as characters. -/
theorem length_le_asBytes (s : String) : s.toList.length ≤ (asBytes s).length := by
  rw [asBytes]
  induction s.toList with
  | nil => exact Nat.le_refl _
  | cons c cs ih =>
    have hone : 0 < (String.utf8EncodeChar c).length := by
      rw [String.length_utf8EncodeChar]
      exact c.utf8Size_pos
    rw [utf8_cons, List.length_append, List.length_cons]
    omega

/-- As many, in ASCII. -/
theorem length_asBytes {s : String} (h : ∀ c ∈ s.toList, asciiChar c = true) :
    (asBytes s).length = s.toList.length := by
  rw [asBytes, utf8_ascii h, List.length_map]

/-- A number under any unit, hours included, does not overflow. -/
theorem checkedMul_small {value k : ℕ} (hvalue : value < 10 ^ 8) (hk : k ≤ 3600) :
    checkedMul value k = some (value * k) := by
  have hle : value * k ≤ 10 ^ 8 * 3600 := Nat.mul_le_mul hvalue.le hk
  exact if_pos (hle.trans (by decide))

/-- What a number and a unit are read as. -/
theorem parseGrpcTimeout_concat (ds : List Char) (c : Char) :
    parseGrpcTimeout (ds ++ [c]) =
      if (ds ++ [c]).all asciiChar = false ∨ ds = [] ∨ 8 < ds.length then none
      else (parseUnsigned u64Max ds).bind fun value => (timeoutUnit c).map (value * ·) := by
  rw [parseGrpcTimeout, List.dropLast_concat, List.getLast?_concat]
  simp only [List.append_eq_nil_iff, List.cons_ne_nil, and_false, false_or]
  by_cases hascii : (ds ++ [c]).all asciiChar = false
  · rw [if_pos hascii, if_pos (.inl hascii)]
  · rw [if_neg hascii]
    by_cases hlen : ds = [] ∨ 8 < ds.length
    · rw [if_pos hlen, if_pos (.inr hlen)]
    · rw [if_neg hlen, if_neg (by tauto)]
      rcases hvalue : parseUnsigned u64Max ds with _ | value
      · rfl
      · have hsmall : value < 10 ^ 8 := by
          have hshort : ds.length ≤ 8 := by omega
          rcases (parseUnsigned_eq_some_iff (by decide) hshort).mp hvalue with
            ⟨hnumber, rfl⟩ | ⟨ds', -, hnumber, rfl⟩
          · exact hnumber.lt
          · exact hnumber.lt.trans (by decide)
        have hhours := checkedMul_small hsmall (k := 3600) (by decide)
        have hminutes := checkedMul_small hsmall (k := 60) (by decide)
        rw [Option.bind_some, timeoutUnit.eq_def]
        split
        · rename_i v hv hc
          cases hv
          cases hc
          rw [hhours]
          exact congrArg some (Nat.mul_assoc value _ _)
        · rename_i v hv hc
          cases hv
          cases hc
          rw [hminutes]
          exact congrArg some (Nat.mul_assoc value _ _)
        · rename_i v hv hc
          cases hv
          cases hc
          exact congrArg some (congrArg (value * ·) (Nat.one_mul _).symm)
        · rename_i v hv hc
          cases hv
          cases hc
          exact congrArg some (congrArg (value * ·) (Nat.one_mul _).symm)
        · rename_i v hv hc
          cases hv
          cases hc
          exact congrArg some (congrArg (value * ·) (Nat.one_mul _).symm)
        · rename_i v hv hc
          cases hv
          cases hc
          exact congrArg some (Nat.mul_one value).symm
        · rename_i hH hM hS hm hu hn
          split
          · exact absurd rfl (hH value rfl)
          · exact absurd rfl (hM value rfl)
          · exact absurd rfl (hS value rfl)
          · exact absurd rfl (hm value rfl)
          · exact absurd rfl (hu value rfl)
          · exact absurd rfl (hn value rfl)
          · rfl

/-- What a text with a number and a unit comes to. -/
theorem parseGrpcTimeout_read {ds : List Char} {c : Char} {u : Duration} {value : ℕ}
    (hlen : ds.length ≤ 8) (hvalue : parseUnsigned u64Max ds = some value)
    (hunit : timeoutUnit c = some u) (hascii : ∀ c ∈ ds, asciiChar c = true) :
    parseGrpcTimeout (ds ++ [c]) = some (value * u) := by
  have hall : (ds ++ [c]).all asciiChar = true := by
    rw [List.all_append, List.all_eq_true.mpr hascii, List.all_cons,
      asciiChar_of_timeoutUnit hunit]
    rfl
  have hne : ds ≠ [] := by
    rintro rfl
    cases hvalue
  rw [parseGrpcTimeout_concat, if_neg (by rw [hall]; simp [hne, hlen]), hvalue, hunit]
  rfl

/-- What gRPC accepts: its grammar, and a plus sign. -/
theorem parseGrpcTimeout_eq_some_iff {s : String} {d : Duration} :
    parseGrpcTimeout s.toList = some d ↔ UnitTimeout [] 8 s d ∨ UnitTimeout ['+'] 7 s d := by
  constructor
  · intro h
    rcases List.eq_nil_or_concat s.toList with hnil | ⟨ds, c, hs⟩
    · rw [hnil] at h
      cases h
    · rw [List.concat_eq_append] at hs
      rw [hs, parseGrpcTimeout_concat] at h
      split at h
      · cases h
      · rename_i hshape
        have hlen : ds.length ≤ 8 := by
          by_contra hlong
          exact hshape (.inr (.inr (by omega)))
        obtain ⟨value, hvalue, hd⟩ := Option.bind_eq_some_iff.mp h
        obtain ⟨u, hunit, rfl⟩ := Option.map_eq_some_iff.mp hd
        rcases (parseUnsigned_eq_some_iff (by decide) hlen).mp hvalue with
          ⟨hnumber, rfl⟩ | ⟨ds', rfl, hnumber, rfl⟩
        · exact .inl ⟨ds, c, u, hs, hnumber, hunit, rfl⟩
        · exact .inr ⟨ds', c, u, hs, hnumber, hunit, rfl⟩
  · rintro (⟨ds, c, u, hs, hnumber, hunit, rfl⟩ | ⟨ds, c, u, hs, hnumber, hunit, rfl⟩)
    · have hvalue : parseUnsigned u64Max ds = some (Nat.ofDigitChars 10 ds 0) :=
        (parseUnsigned_eq_some_iff (by decide) hnumber.length_le).mpr (.inl ⟨hnumber, rfl⟩)
      rw [hs]
      exact parseGrpcTimeout_read hnumber.length_le hvalue hunit fun c hc =>
        asciiChar_of_isDigit (hnumber.digits c hc)
    · have hlen : (['+'] ++ ds).length ≤ 8 := Nat.succ_le_succ hnumber.length_le
      have hvalue : parseUnsigned u64Max ('+' :: ds) = some (Nat.ofDigitChars 10 ds 0) :=
        (parseUnsigned_eq_some_iff (by decide) hlen).mpr (.inr ⟨ds, rfl, hnumber, rfl⟩)
      rw [hs]
      refine parseGrpcTimeout_read hlen hvalue hunit ?_
      rintro c hc
      rcases List.mem_append.mp hc with hplus | hc
      · rw [List.mem_singleton.mp hplus]
        decide
      · exact asciiChar_of_isDigit (hnumber.digits c hc)

/-- What Connect accepts: its grammar, and a plus sign. -/
theorem parseTimeout_connect_iff {s : String} {d : Duration} :
    parseTimeout s .connect = some d ↔ BareTimeout [] 10 s d ∨ BareTimeout ['+'] 9 s d := by
  rw [parseTimeout]
  constructor
  · intro h
    split at h
    · cases h
    · rename_i hshape
      have hlen : s.toList.length ≤ 10 := by
        have hbytes := length_le_asBytes s
        by_contra hlong
        exact hshape (.inr (by omega))
      obtain ⟨value, hvalue, rfl⟩ := Option.map_eq_some_iff.mp h
      rcases (parseUnsigned_eq_some_iff (by decide) hlen).mp hvalue with
        ⟨hnumber, rfl⟩ | ⟨ds, hs, hnumber, rfl⟩
      · exact .inl ⟨s.toList, rfl, hnumber, rfl⟩
      · exact .inr ⟨ds, hs, hnumber, rfl⟩
  · have hread {value : ℕ} (hlen : s.toList.length ≤ 10)
        (hascii : ∀ c ∈ s.toList, asciiChar c = true)
        (hvalue : parseUnsigned u64Max s.toList = some value) :
        (if s = "" ∨ 10 < (asBytes s).length then none
          else (parseUnsigned u64Max s.toList).map Duration.fromMillis) =
        some (.fromMillis value) := by
      have hne : s ≠ "" := by
        rintro rfl
        cases hvalue
      rw [if_neg (by rw [length_asBytes hascii]; simp [hne, hlen]), hvalue]
      rfl
    rintro (⟨ds, hs, hnumber, rfl⟩ | ⟨ds, hs, hnumber, rfl⟩)
    · rw [List.nil_append] at hs
      subst hs
      exact hread hnumber.length_le (fun c hc => asciiChar_of_isDigit (hnumber.digits c hc))
        ((parseUnsigned_eq_some_iff (by decide) hnumber.length_le).mpr (.inl ⟨hnumber, rfl⟩))
    · have hlen : s.toList.length ≤ 10 := by
        rw [hs]
        exact Nat.succ_le_succ hnumber.length_le
      refine hread hlen ?_
        ((parseUnsigned_eq_some_iff (by decide) hlen).mpr (.inr ⟨ds, hs, hnumber, rfl⟩))
      intro c hc
      rw [hs] at hc
      rcases List.mem_append.mp hc with hplus | hc
      · rw [List.mem_singleton.mp hplus]
        decide
      · exact asciiChar_of_isDigit (hnumber.digits c hc)

/-- The server accepts its grammar, and a plus sign in the place of the first digit. -/
theorem parseTimeout_eq_some_iff {s : String} {p : Protocol} {d : Duration} :
    parseTimeout s p = some d ↔ TimeoutGrammar s d p ∨ SignedTimeout s d p := by
  cases p with
  | connect => exact parseTimeout_connect_iff
  | grpc => exact parseGrpcTimeout_eq_some_iff
  | grpcWeb => exact parseGrpcTimeout_eq_some_iff

/-- A plus sign is not a digit. -/
theorem TimeoutGrammar.not_signed {s : String} {p : Protocol} {d e : Duration}
    (h : TimeoutGrammar s d p) : ¬SignedTimeout s e p := by
  have hhead {most : ℕ} {ds rest rest' : List Char} (hnumber : IsNumber most ds)
      (heq : ds ++ rest = '+' :: rest') : False := by
    obtain ⟨c, ds', rfl⟩ := List.exists_cons_of_ne_nil hnumber.nonempty
    have hplus : c = '+' := (List.cons.inj heq).1
    have hdigit := hnumber.digits c List.mem_cons_self
    rw [hplus] at hdigit
    exact absurd hdigit (by decide)
  cases p with
  | connect =>
    rintro ⟨ds', hs', -⟩
    obtain ⟨ds, hs, hnumber, -⟩ := h
    rw [hs, List.nil_append, ← List.append_nil ds] at hs'
    exact hhead hnumber hs'
  | grpc =>
    rintro ⟨ds', c', u', hs', -⟩
    obtain ⟨ds, c, u, hs, hnumber, -⟩ := h
    rw [hs] at hs'
    exact hhead hnumber hs'
  | grpcWeb =>
    rintro ⟨ds', c', u', hs', -⟩
    obtain ⟨ds, c, u, hs, hnumber, -⟩ := h
    rw [hs] at hs'
    exact hhead hnumber hs'

/-- An hour is the largest unit. -/
theorem timeoutUnit_le {c : Char} {u : Duration} (h : timeoutUnit c = some u) :
    u ≤ .fromSecs 3600 := by
  rw [timeoutUnit.eq_def] at h
  split at h <;> cases h <;> decide

/-- Everything the server accepts is a duration. -/
theorem parseTimeout_le_max {s : String} {p : Protocol} {d : Duration}
    (h : parseTimeout s p = some d) : d ≤ Duration.MAX := by
  have hunit {sign : List Char} {most : ℕ} (hmost : most ≤ 8) (h : UnitTimeout sign most s d) :
      d ≤ Duration.MAX := by
    obtain ⟨ds, c, u, -, hnumber, hu, rfl⟩ := h
    have hvalue : Nat.ofDigitChars 10 ds 0 ≤ 10 ^ 8 :=
      hnumber.lt.le.trans (Nat.pow_le_pow_right (by decide) hmost)
    exact (Nat.mul_le_mul hvalue (timeoutUnit_le hu)).trans (by decide)
  have hbare {sign : List Char} {most : ℕ} (hmost : most ≤ 10) (h : BareTimeout sign most s d) :
      d ≤ Duration.MAX := by
    obtain ⟨ds, -, hnumber, rfl⟩ := h
    have hvalue : Nat.ofDigitChars 10 ds 0 ≤ 10 ^ 10 :=
      hnumber.lt.le.trans (Nat.pow_le_pow_right (by decide) hmost)
    exact (Nat.mul_le_mul_right 1000000 hvalue).trans (by decide)
  have haccepted := parseTimeout_eq_some_iff.mp h
  cases p with
  | connect => exact haccepted.elim (hbare le_rfl) (hbare (by decide))
  | grpc => exact haccepted.elim (hunit le_rfl) (hunit (by decide))
  | grpcWeb => exact haccepted.elim (hunit le_rfl) (hunit (by decide))

/-- The server accepts what the grammar has and nothing else, and overflows nowhere, except of
a text with a plus sign in the place of the first digit. -/
theorem parseTimeout_exact_iff (s : String) (p : Protocol) :
    ((∀ d, parseTimeout s p = some d ↔ TimeoutGrammar s d p) ∧
        ∀ d, parseTimeout s p = some d → d ≤ Duration.MAX) ↔
      ¬∃ d, SignedTimeout s d p := by
  constructor
  · rintro ⟨hexact, -⟩ ⟨d, hsigned⟩
    have haccepted := parseTimeout_eq_some_iff.mpr (.inr hsigned)
    exact ((hexact d).mp haccepted).not_signed hsigned
  · intro hunsigned
    refine ⟨fun d => parseTimeout_eq_some_iff.trans (or_iff_left ?_), fun _ => parseTimeout_le_max⟩
    exact fun hsigned => hunsigned ⟨d, hsigned⟩

/-- `+5` is five milliseconds to Connect. -/
theorem plus_accepted :
    parseTimeout "+5" .connect = some 5000000 ∧ ¬∃ d, TimeoutGrammar "+5" d .connect := by
  refine ⟨by decide, ?_⟩
  rintro ⟨d, hgrammar⟩
  have hfive : IsNumber 9 ['5'] := by
    refine ⟨List.cons_ne_nil _ _, by decide, ?_⟩
    rintro c hc
    rw [List.mem_singleton.mp hc]
    decide
  exact hgrammar.not_signed (e := .fromMillis 5) ⟨['5'], rfl, hfive, rfl⟩

/-! ## What the client writes -/

/-- `EncodedTimeout::duration`. -/
def EncodedTimeout.duration : EncodedTimeout → Duration
  | connect millis => .fromMillis millis
  | grpc _ _ duration => duration

/-- The units a client writes. -/
def encoderUnits : List Char := ['n', 'u', 'm', 'S']

/-- A timeout as a client may write it, and what it stands for. -/
def WireTimeout (s : String) (d : Duration) : Protocol → Prop
  | .connect => BareTimeout [] 10 s d
  | .grpc | .grpcWeb =>
    ∃ ds, ∃ c ∈ encoderUnits, ∃ u, s.toList = ds ++ [c] ∧ IsNumber 8 ds ∧
      timeoutUnit c = some u ∧ d = Nat.ofDigitChars 10 ds 0 * u

/-- It is one that the server accepts. -/
theorem WireTimeout.grammar {s : String} {d : Duration} {p : Protocol} (h : WireTimeout s d p) :
    TimeoutGrammar s d p := by
  cases p with
  | connect => exact h
  | grpc =>
    obtain ⟨ds, c, -, u, hs⟩ := h
    exact ⟨ds, c, u, hs⟩
  | grpcWeb =>
    obtain ⟨ds, c, -, u, hs⟩ := h
    exact ⟨ds, c, u, hs⟩

/-- The units of gRPC, in nanoseconds. -/
def grpcUnits : Set ℕ := {1, 1000, 1000000, 1000000000}

/-- What a client of a protocol can express. -/
def expressible (p : Protocol) : Set Duration := {d | ∃ s, WireTimeout s d p}

/-- A number as it is written. -/
theorem toList_toString (n : ℕ) : (toString n).toList = Nat.toDigits 10 n := by
  rw [Nat.toString_eq_ofList_toDigits, String.toList_ofList]

/-- A number of milliseconds is written with its digits. -/
theorem wireTimeout_connect {n : ℕ} (h : n ≤ CONNECT_TIMEOUT_MAX_MILLIS) :
    WireTimeout (EncodedTimeout.connect n).headerValue (.fromMillis n) .connect := by
  refine ⟨Nat.toDigits 10 n, toList_toString n, .toDigits (by decide) (Nat.lt_succ_of_le h), ?_⟩
  rw [Nat.ofDigitChars_ten_toDigits]

/-- So is a number of any other unit. -/
theorem wireTimeout_grpc {n : ℕ} {c : Char} {u d : Duration} (h : n ≤ GRPC_TIMEOUT_MAX_SECONDS)
    (hc : c ∈ encoderUnits) (hunit : timeoutUnit c = some u) :
    WireTimeout (EncodedTimeout.grpc n c d).headerValue (n * u) .grpc := by
  refine ⟨Nat.toDigits 10 n, c, hc, u, ?_, .toDigits (by decide) (Nat.lt_succ_of_le h), hunit, ?_⟩
  · rw [EncodedTimeout.headerValue, String.toList_append, toList_toString, String.toList_ofList]
  · rw [Nat.ofDigitChars_ten_toDigits]

/-- Connect counts milliseconds. -/
theorem expressible_connect :
    expressible .connect = countable CONNECT_TIMEOUT_MAX_MILLIS {1000000} := by
  ext d
  constructor
  · rintro ⟨s, ds, -, hnumber, rfl⟩
    exact ⟨_, rfl, _, Nat.le_of_lt_succ hnumber.lt, rfl⟩
  · rintro ⟨_, rfl, n, hn, rfl⟩
    exact ⟨_, wireTimeout_connect hn⟩

/-- The units that a client writes, one by one. -/
theorem mem_grpcUnits {u : Duration} :
    u ∈ grpcUnits ↔ ∃ c ∈ encoderUnits, timeoutUnit c = some u := by
  simp only [encoderUnits, List.mem_cons, List.not_mem_nil, or_false, exists_eq_or_imp,
    exists_eq_left, grpcUnits, Set.mem_insert_iff, Set.mem_singleton_iff]
  have hunit {c : Char} {n : Duration} (h : timeoutUnit c = some n) :
      u = n ↔ timeoutUnit c = some u := by
    rw [h, Option.some_inj, eq_comm]
  exact or_congr (hunit rfl) (or_congr (hunit rfl) (or_congr (hunit rfl) (hunit rfl)))

/-- gRPC counts in four units. -/
theorem expressible_grpc : expressible .grpc = countable GRPC_TIMEOUT_MAX_SECONDS grpcUnits := by
  ext d
  constructor
  · rintro ⟨s, ds, c, hc, u, -, hnumber, hunit, rfl⟩
    exact ⟨u, mem_grpcUnits.mpr ⟨c, hc, hunit⟩, _, Nat.le_of_lt_succ hnumber.lt, rfl⟩
  · rintro ⟨u, hu, n, hn, rfl⟩
    obtain ⟨c, hc, hunit⟩ := mem_grpcUnits.mp hu
    exact ⟨_, wireTimeout_grpc (d := 0) hn hc hunit⟩

/-- What a client writes over gRPC: a count of one of its units, which is as long as a timeout
can get. -/
structure Encodes (t : Duration) (e : EncodedTimeout) : Prop where
  /-- the count and the unit -/
  written : ∃ n c u d, e = .grpc n c d ∧ n ≤ GRPC_TIMEOUT_MAX_SECONDS ∧ c ∈ encoderUnits ∧
    timeoutUnit c = some u ∧ d = n * u
  /-- the duration -/
  greatest : IsGreatest {d ∈ countable GRPC_TIMEOUT_MAX_SECONDS grpcUnits | d ≤ t} e.duration

theorem mod_mul {t u : ℕ} (h : t % u = 0) : t / u * u = t :=
  Nat.div_mul_cancel (Nat.dvd_of_mod_eq_zero h)

/-- A unit that divides the timeout loses nothing. -/
theorem encodes_exact {t u d : Duration} {c : Char} (hc : c ∈ encoderUnits)
    (hunit : timeoutUnit c = some u) (hmod : t % u = 0) (hfits : t / u ≤ GRPC_TIMEOUT_MAX_SECONDS)
    (hd : d = t / u * u) : Encodes t (.grpc (t / u) c d) := by
  refine ⟨⟨_, c, u, d, rfl, hfits, hc, hunit, hd⟩, ?_⟩
  have hmem := mem_countable (mem_grpcUnits.mpr ⟨c, hc, hunit⟩) hfits
  rw [EncodedTimeout.duration, hd]
  rw [mod_mul hmod] at hmem ⊢
  exact isGreatest_exact hmem

/-- Neither does the finest unit that fits, of what the finer units can express. -/
theorem encodes_finest {t u d : Duration} {c : Char} (hc : c ∈ encoderUnits)
    (hunit : timeoutUnit c = some u) (hpos : 0 < u) (hfits : t / u ≤ GRPC_TIMEOUT_MAX_SECONDS)
    (hrest : ∀ w ∈ grpcUnits, u ∣ w ∨ GRPC_TIMEOUT_MAX_SECONDS * w ≤ t / u * u)
    (hd : d = t / u * u) : Encodes t (.grpc (t / u) c d) := by
  refine ⟨⟨_, c, u, d, rfl, hfits, hc, hunit, hd⟩, ?_⟩
  rw [EncodedTimeout.duration, hd]
  exact isGreatest_finest (mem_grpcUnits.mpr ⟨c, hc, hunit⟩) hpos hfits hrest

theorem grpcEncodedTimeout_encodes (t : Duration) : Encodes t (grpcEncodedTimeout t) := by
  have hS : 'S' ∈ encoderUnits := by decide
  have hm : 'm' ∈ encoderUnits := by decide
  have hu : 'u' ∈ encoderUnits := by decide
  have hn : 'n' ∈ encoderUnits := by decide
  have hmax : GRPC_TIMEOUT_MAX_SECONDS = 99999999 := rfl
  rw [grpcEncodedTimeout]
  split_ifs with hzero hsecs hmillis hmicros hnanos hmicros' hmillis' hsecs'
  · subst hzero
    exact encodes_exact (t := 0) hn rfl (Nat.zero_mod 1) (Nat.zero_le _) rfl
  · exact encodes_exact hS (u := 1000000000) rfl hsecs.1 hsecs.2 rfl
  · exact encodes_exact hm (u := 1000000) rfl hmillis.1 hmillis.2 rfl
  · exact encodes_exact hu (u := 1000) rfl hmicros.1 hmicros.2 rfl
  · have hexact := encodes_exact (t := t) (d := t) hn (u := 1) rfl (Nat.mod_one t)
      (by rwa [Nat.div_one]) (by rw [Nat.div_one, Nat.mul_one])
    rwa [Nat.div_one] at hexact
  -- from here on the finer units are too fine: the most of each is below the timeout
  · refine encodes_finest hu (u := 1000) rfl (by decide) hmicros' ?_ rfl
    have hlong := Nat.lt_of_not_le hnanos
    rintro w (rfl | rfl | rfl | rfl)
    · exact .inr (by omega)
    · exact .inl (by decide)
    · exact .inl (by decide)
    · exact .inl (by decide)
  · refine encodes_finest hm (u := 1000000) rfl (by decide) hmillis' ?_ rfl
    rw [Duration.asMicros] at hmicros'
    rintro w (rfl | rfl | rfl | rfl)
    · exact .inr (by omega)
    · exact .inr (by omega)
    · exact .inl (by decide)
    · exact .inl (by decide)
  · refine encodes_finest hS (u := 1000000000) rfl (by decide) hsecs' ?_ rfl
    rw [Duration.asMillis] at hmillis'
    rintro w (rfl | rfl | rfl | rfl)
    · exact .inr (by omega)
    · exact .inr (by omega)
    · exact .inr (by omega)
    · exact .inl (by decide)
  · rw [Duration.asSecs] at hsecs'
    refine ⟨⟨_, _, 1000000000, _, rfl, le_rfl, hS, rfl, rfl⟩, ?_⟩
    refine isGreatest_coarsest (mem_grpcUnits.mpr ⟨'S', hS, rfl⟩) (by omega) ?_
    rintro w (rfl | rfl | rfl | rfl) <;> decide

/-- Connect rounds to milliseconds, and caps them. -/
theorem connect_greatest (t : Duration) :
    IsGreatest {d ∈ expressible .connect | d ≤ t} (encodedTimeout t .connect).duration := by
  rw [expressible_connect, encodedTimeout, EncodedTimeout.duration, Duration.fromMillis,
    Duration.asMillis]
  rcases Nat.le_total (t / 1000000) CONNECT_TIMEOUT_MAX_MILLIS with hfits | hfull
  · rw [min_eq_left hfits]
    refine isGreatest_finest rfl (by decide) hfits ?_
    rintro w rfl
    exact .inl (Nat.dvd_refl _)
  · rw [min_eq_right hfull]
    refine isGreatest_coarsest rfl ((Nat.le_div_iff_mul_le (by decide)).mp hfull) ?_
    rintro w rfl
    exact Nat.le_refl _

/-- What is written stands for the duration that the client keeps to. -/
theorem wireTimeout_encoded (t : Duration) (p : Protocol) :
    WireTimeout (formatTimeout t p) (encodedTimeout t p).duration p := by
  have hgrpc : WireTimeout (grpcEncodedTimeout t).headerValue (grpcEncodedTimeout t).duration
      .grpc := by
    obtain ⟨n, c, u, d, he, hfits, hc, hunit, rfl⟩ := (grpcEncodedTimeout_encodes t).written
    rw [he]
    exact wireTimeout_grpc hfits hc hunit
  cases p with
  | connect => exact wireTimeout_connect (Nat.min_le_right ..)
  | grpc => exact hgrpc
  | grpcWeb => exact hgrpc

/-- The client keeps to the longest timeout it can express, up to the one asked for. -/
theorem encodedTimeout_greatest (t : Duration) (p : Protocol) :
    IsGreatest {d ∈ expressible p | d ≤ t} (encodedTimeout t p).duration := by
  have hgrpc : IsGreatest {d ∈ expressible .grpc | d ≤ t} (grpcEncodedTimeout t).duration := by
    rw [expressible_grpc]
    exact (grpcEncodedTimeout_encodes t).greatest
  cases p with
  | connect => exact connect_greatest t
  | grpc => exact hgrpc
  | grpcWeb => exact hgrpc

/-- What the client writes has the form of its protocol, the server reads it as the duration
that the client keeps to, and that is the longest one that can be written, up to the timeout
asked for. -/
theorem timeout_roundTrip (p : Protocol) :
    (∀ t, WireTimeout (formatTimeout t p) (encodedTimeout t p).duration p ∧
      parseTimeout (formatTimeout t p) p = some (encodedTimeout t p).duration ∧
      IsGreatest {d | (∃ s, WireTimeout s d p) ∧ d ≤ t} (encodedTimeout t p).duration) ∧
    Monotone fun t => (encodedTimeout t p).duration := by
  refine ⟨fun t => ?_, monotone_of_isGreatest fun t => encodedTimeout_greatest t p⟩
  have hwire := wireTimeout_encoded t p
  exact ⟨hwire, parseTimeout_eq_some_iff.mpr (.inl hwire.grammar), encodedTimeout_greatest t p⟩

end ConnectRpc
