import ConnectRpc.Gzip

/-!
# What the gzip provider does

The law of the provider (`gzip_law`) rests on what `flate2` promises. That the promises can be kept
is shown by a small codec, of those DEFLATE streams that are made of stored blocks only: its
`Decompress` is a machine that reads a byte at a time (`stored_lawful`).
-/

namespace ConnectRpc.Gzip

/-! ## Stored blocks -/

/-- Where a reader of stored blocks is. -/
inductive Phase : Type where
  /-- in the header of a block -/
  | header (seen : Bytes)
  /-- in a block, with so many bytes to go; the last block is marked -/
  | block (left : ℕ) (last : Bool)
  /-- after the last block -/
  | done
  deriving DecidableEq

/-- The start of a block, or of what follows an empty one. -/
def Phase.enter (left : ℕ) (last : Bool) : Phase :=
  if left = 0 then (if last then done else header []) else block left last

/-- The reader takes a byte. -/
def Phase.next : Phase → UInt8 → Option (Phase × Bytes)
  | header [first, l0, l1, n0], n1 =>
    if first &&& 0x07 ≤ 1 ∧ l0.toNat + 0x100 * l1.toNat + (n0.toNat + 0x100 * n1.toNat) = 0xFFFF then
      some (enter (l0.toNat + 0x100 * l1.toNat) (first &&& 0x07 == 1), [])
    else none
  | header seen, b => some (header (seen ++ [b]), [])
  | block left last, b => some (enter (left - 1) last, [b])
  | done, _ => none

/-- The reader takes some bytes. -/
def Phase.run : Phase → Bytes → Option (Phase × Bytes)
  | p, [] => some (p, [])
  | p, b :: rest => (p.next b).bind fun q => (run q.1 rest).map fun r => (r.1, q.2 ++ r.2)

/-- A stream of stored blocks, and what it holds. -/
def Stored (z x : Bytes) : Prop :=
  (Phase.header []).run z = some (.done, x)

namespace Phase

theorem next_done (b : UInt8) : done.next b = none := by
  unfold next
  rfl

theorem next_length {p q : Phase} {b : UInt8} {out : Bytes} (h : p.next b = some (q, out)) :
    out.length ≤ 1 := by
  unfold next at h
  split at h
  · split at h
    · cases h
      exact Nat.zero_le _
    · cases h
  · cases h
    exact Nat.zero_le _
  · cases h
    exact Nat.le_refl _
  · cases h

theorem run_append (p : Phase) (c d : Bytes) :
    p.run (c ++ d) = (p.run c).bind fun q => (q.1.run d).map fun r => (r.1, q.2 ++ r.2) := by
  induction c generalizing p with
  | nil =>
    rw [List.nil_append, run, Option.bind_some]
    cases p.run d with
    | none => rfl
    | some r => rfl
  | cons b c ih =>
    rw [List.cons_append, run, run]
    rcases p.next b with _ | ⟨q, out⟩
    · rfl
    · rw [Option.bind_some, Option.bind_some, ih]
      rcases q.run c with _ | ⟨q', out'⟩
      · rfl
      · rw [Option.bind_some, Option.map_some, Option.bind_some]
        cases q'.run d with
        | none => rfl
        | some r => exact congrArg some (Prod.ext rfl (List.append_assoc out out' r.2).symm)

theorem run_done {c : Bytes} {q : Phase} {out : Bytes} (h : done.run c = some (q, out)) :
    c = [] ∧ q = done ∧ out = [] := by
  cases c with
  | nil =>
    cases h
    exact ⟨rfl, rfl, rfl⟩
  | cons b c =>
    rw [run, next_done] at h
    cases h

theorem run_silent {p q : Phase} {b : UInt8} (h : p.next b = some (q, [])) (rest : Bytes) :
    p.run (b :: rest) = q.run rest := by
  rw [run, h, Option.bind_some]
  cases q.run rest with
  | none => rfl
  | some r => rfl

/-- If all of it is read, the rest of it is read from where the first part ends. -/
theorem run_rest {p q : Phase} {c d x : Bytes} {o : Bytes} (hc : p.run c = some (q, o))
    (h : p.run (c ++ d) = some (done, x)) : ∃ y, q.run d = some (done, y) ∧ x = o ++ y := by
  rw [run_append, hc, Option.bind_some] at h
  obtain ⟨⟨q', y⟩, hrun, heq⟩ := Option.map_eq_some_iff.mp h
  cases heq
  exact ⟨y, hrun, rfl⟩

end Phase

/-! ## Its `Decompress` -/

/-- What comes of some input. -/
structure Feed where
  /-- where the reader is -/
  phase : Phase
  /-- how much was consumed -/
  consumed : ℕ
  /-- what was written -/
  written : Bytes
  /-- whether the next byte cannot follow -/
  bad : Bool

/-- Feeds the reader, as long as there is room. -/
def feed : Phase → Bytes → ℕ → Feed
  | p, [], _ => ⟨p, 0, [], false⟩
  | p, b :: rest, room =>
    if p = .done then ⟨p, 0, [], false⟩
    else
      match p.next b with
      | none => ⟨p, 0, [], true⟩
      | some (q, out) =>
        if room < out.length then ⟨p, 0, [], false⟩
        else
          let r := feed q rest (room - out.length)
          ⟨r.phase, r.consumed + 1, out ++ r.written, r.bad⟩

/-- What a feed tells. -/
structure FeedSpec (p : Phase) (input : Bytes) (room : ℕ) (r : Feed) : Prop where
  consumed : r.consumed ≤ input.length
  written : r.written.length ≤ room
  run : p.run (input.take r.consumed) = some (r.phase, r.written)
  /-- it stops at the end of the stream or of the input, or for want of room -/
  stops : r.bad = false → r.phase ≠ .done → r.consumed = input.length ∨ r.written.length = room
  /-- or at a byte that cannot follow -/
  bad : r.bad = true → r.phase ≠ .done ∧
    ∃ b rest, input.drop r.consumed = b :: rest ∧ r.phase.next b = none

theorem feed_spec (p : Phase) (input : Bytes) (room : ℕ) :
    FeedSpec p input room (feed p input room) := by
  induction input generalizing p room with
  | nil => exact ⟨Nat.le_refl _, Nat.zero_le _, rfl, fun _ _ => .inl rfl, (nomatch ·)⟩
  | cons b input ih =>
    rw [feed]
    by_cases hdone : p = .done
    · rw [if_pos hdone]
      exact ⟨Nat.zero_le _, Nat.zero_le _, rfl, fun _ hno => absurd hdone hno, (nomatch ·)⟩
    · rw [if_neg hdone]
      rcases hnext : p.next b with _ | ⟨q, out⟩
      · exact ⟨Nat.zero_le _, Nat.zero_le _, rfl, (nomatch ·),
          fun _ => ⟨hdone, b, input, rfl, hnext⟩⟩
      · dsimp only
        by_cases hroom : room < out.length
        · rw [if_pos hroom]
          have hone := Phase.next_length hnext
          refine ⟨Nat.zero_le _, Nat.zero_le _, rfl, fun _ _ => .inr ?_, (nomatch ·)⟩
          rw [List.length_nil]
          omega
        · rw [if_neg hroom]
          obtain ⟨hc, hw, hrun, hstops, hbad⟩ := ih q (room - out.length)
          refine ⟨Nat.succ_le_succ hc, ?_, ?_, fun hok hno => ?_, fun hno => ?_⟩
          · rw [List.length_append]
            omega
          · dsimp only
            rw [List.take_succ_cons, Phase.run, hnext, Option.bind_some, hrun]
            rfl
          · rcases hstops hok hno with hall | hfull
            · exact .inl (congrArg (· + 1) hall)
            · refine .inr ?_
              rw [List.length_append]
              omega
          · obtain ⟨hnot, b', rest, hdrop, hnone⟩ := hbad hno
            exact ⟨hnot, b', rest, hdrop, hnone⟩

/-- Whether progress was possible. -/
def Feed.status (r : Feed) : Except String CodecStatus :=
  if r.bad then .error "deflate decompression error"
  else if r.phase = .done then .ok .streamEnd
  else if r.consumed = 0 then .ok .bufError
  else .ok .ok

/-- A `Decompress` of stored blocks, with what it has consumed. -/
abbrev storedDecompress : RawCodec where
  State := Phase × ℕ
  totalIn := Prod.snd
  vec s input room :=
    let r := feed s.1 input room
    ⟨r.status, r.written, (r.phase, s.2 + r.consumed)⟩
  reset _ := (.header [], 0)
  le_totalIn _ _ _ := Nat.le_add_right _ _
  totalIn_le s input room := Nat.add_le_add_left (feed_spec s.1 input room).consumed _
  fits s input room := (feed_spec s.1 input room).written

/-- A new one. -/
def newStoredDecompress : storedDecompress.State := ((.header [], 0) : Phase × ℕ)

theorem consumed_stored (s : storedDecompress.State) (input : Bytes) (room : ℕ) :
    storedDecompress.consumed s input room = input.take (feed s.1 input room).consumed := by
  rw [RawCodec.consumed]
  refine congrArg (input.take ·) ?_
  exact Nat.add_sub_cancel_left _ _

/-- What was consumed has taken the reader where it is. -/
theorem Reads.run {s : storedDecompress.State} {c o : Bytes}
    (h : storedDecompress.Reads newStoredDecompress s c o) :
    (Phase.header []).run c = some (s.1, o) := by
  induction h with
  | start => rfl
  | @vec s c o _ input room hok ih =>
    rw [consumed_stored, Phase.run_append, ih, Option.bind_some, (feed_spec s.1 input room).run]
    rfl

/-! ## Its `Compress` -/

/-- Two bytes of a length. -/
def le16 (n : ℕ) : Bytes := [UInt8.ofNat n, UInt8.ofNat (n / 0x100)]

/-- One block. -/
def storedBlock (last : Bool) (data : Bytes) : Bytes :=
  (if last then 0x01 else 0x00) :: (le16 data.length ++ le16 (0xFFFF - data.length) ++ data)

/-- Some blocks, no more than so many and one. -/
def storedBlocks : ℕ → Bytes → Bytes
  | 0, data => storedBlock true data
  | n + 1, data =>
    if data.length ≤ 0xFFFF then storedBlock true data
    else storedBlock false (data.take 0xFFFF) ++ storedBlocks n (data.drop 0xFFFF)

theorem run_block {last : Bool} (data rest : Bytes) :
    (Phase.enter data.length last).run (data ++ rest) =
      ((Phase.enter 0 last).run rest).map fun r => (r.1, data ++ r.2) := by
  induction data with
  | nil =>
    rw [List.nil_append, List.length_nil]
    cases (Phase.enter 0 last).run rest with
    | none => rfl
    | some r => rfl
  | cons b data ih =>
    have henter : Phase.enter (b :: data).length last = .block (data.length + 1) last :=
      if_neg (Nat.succ_ne_zero _)
    have hnext : (Phase.block (data.length + 1) last).next b =
        some (Phase.enter data.length last, [b]) := rfl
    rw [henter, List.cons_append, Phase.run, hnext, Option.bind_some, ih]
    cases (Phase.enter 0 last).run rest with
    | none => rfl
    | some r => rfl

theorem run_storedBlock {last : Bool} {data : Bytes} (hlen : data.length ≤ 0xFFFF) (rest : Bytes) :
    (Phase.header []).run (storedBlock last data ++ rest) =
      ((Phase.enter 0 last).run rest).map fun r => (r.1, data ++ r.2) := by
  have hbyte : ∀ n, n ≤ 0xFFFF →
      (UInt8.ofNat n).toNat + 0x100 * (UInt8.ofNat (n / 0x100)).toNat = n := by
    intro n hn
    simp only [UInt8.toNat_ofNat']
    omega
  have hhead : (Phase.header []).run (storedBlock last data ++ rest) =
      (Phase.enter data.length last).run (data ++ rest) := by
    have hl := hbyte data.length hlen
    have hn := hbyte (0xFFFF - data.length) (by omega)
    have hlast : ((if last then 0x01 else 0x00 : UInt8) &&& 0x07 ≤ 1) ∧
        ((if last then 0x01 else 0x00 : UInt8) &&& 0x07 == 1) = last := by
      cases last with
      | true => decide
      | false => decide
    have hnext : (Phase.header [if last then 0x01 else 0x00, UInt8.ofNat data.length,
        UInt8.ofNat (data.length / 0x100), UInt8.ofNat (0xFFFF - data.length)]).next
          (UInt8.ofNat ((0xFFFF - data.length) / 0x100)) =
        some (Phase.enter data.length last, []) := by
      rw [Phase.next, hl, hn, if_pos ⟨hlast.1, by omega⟩, hlast.2]
    change (Phase.header []).run (_ :: _ :: _ :: _ :: _ :: (data ++ rest)) = _
    rw [Phase.run_silent rfl, Phase.run_silent rfl, Phase.run_silent rfl, Phase.run_silent rfl]
    exact Phase.run_silent hnext _
  rw [hhead, run_block]

/-- **The blocks** hold the data. -/
theorem stored_storedBlocks (n : ℕ) (data : Bytes) (hlen : data.length ≤ 0xFFFF * (n + 1)) :
    Stored (storedBlocks n data) data := by
  have hlast : ∀ data : Bytes, data.length ≤ 0xFFFF → Stored (storedBlock true data) data := by
    intro data hshort
    rw [Stored, ← List.append_nil (storedBlock true data), run_storedBlock hshort]
    exact congrArg (fun x => some (Phase.done, x)) (List.append_nil data)
  induction n generalizing data with
  | zero => exact hlast data (by omega)
  | succ n ih =>
    rw [storedBlocks]
    by_cases hshort : data.length ≤ 0xFFFF
    · rw [if_pos hshort]
      exact hlast data hshort
    · rw [if_neg hshort]
      have htake : (data.take 0xFFFF).length ≤ 0xFFFF := by
        rw [List.length_take]
        exact Nat.min_le_left _ _
      have hrest := ih (data.drop 0xFFFF) (by
        rw [List.length_drop]
        omega)
      rw [Stored, run_storedBlock htake]
      change ((Phase.header []).run _).map _ = _
      rw [show (Phase.header []).run _ = _ from hrest]
      exact congrArg (fun x => some (Phase.done, x)) (List.take_append_drop _ _)

/-- A `Compress` to stored blocks. It takes all its input at once, and keeps what there is no room
for. -/
abbrev storedCompress : RawCodec where
  State := Option Bytes × ℕ
  totalIn := Prod.snd
  vec s input room :=
    let queue := s.1.getD (storedBlocks input.length input)
    ⟨.ok (if queue.length ≤ room then .streamEnd else .ok), queue.take room,
      (some (queue.drop room), if s.1 = none then s.2 + input.length else s.2)⟩
  reset _ := (none, 0)
  le_totalIn s input room := by
    dsimp only
    split
    · exact Nat.le_add_right _ _
    · exact Nat.le_refl _
  totalIn_le s input room := by
    dsimp only
    split
    · exact Nat.le_refl _
    · exact Nat.le_add_right _ _
  fits s input room := by
    rw [List.length_take]
    exact Nat.min_le_left _ _

/-- The two together. -/
abbrev storedFlate2 : Flate2 where
  compress := storedCompress
  newCompress _ := ((none, 0) : Option Bytes × ℕ)
  decompress := storedDecompress
  newDecompress := newStoredDecompress

/-- What is written and what is kept are the blocks. -/
theorem Finishes.queue {level : ℕ} {data : Bytes} {s : storedCompress.State} {n : ℕ} {o : Bytes}
    (h : storedCompress.Finishes (storedFlate2.newCompress level) data s n o) :
    (s.1 = none ∧ n = 0 ∧ o = []) ∨
      ∃ queue, s.1 = some queue ∧ o ++ queue = storedBlocks data.length data := by
  induction h with
  | start => exact .inl ⟨rfl, rfl, rfl⟩
  | @vec s n o _ room status hok hmore ih =>
    refine .inr ⟨_, rfl, ?_⟩
    rcases ih with ⟨hs, rfl, rfl⟩ | ⟨queue, hs, hq⟩
    · change [] ++ List.take room (s.1.getD _) ++ List.drop room (s.1.getD _) = _
      rw [hs, List.nil_append, List.take_append_drop]
      rfl
    · change o ++ List.take room (s.1.getD _) ++ List.drop room (s.1.getD _) = _
      rw [hs, List.append_assoc, List.take_append_drop]
      exact hq

/-- **The promises** can be kept. -/
theorem stored_lawful : storedFlate2.Lawful Stored where
  holds_one hx hy := by
    rw [Stored] at hx hy
    rw [hx] at hy
    injection hy with hy
    exact (Prod.mk.inj hy).2
  tells_end hx hy := by
    obtain ⟨y, hrun, -⟩ := Phase.run_rest hx hy
    exact (Phase.run_done hrun).1
  reset_decompress _ := rfl
  reset_compress _ := rfl
  stream_end := by
    intro d c o input room hreads hstatus
    have hspec := feed_spec d.1 input room
    have hdone : (feed d.1 input room).phase = .done := by
      change (feed d.1 input room).status = _ at hstatus
      rw [Feed.status] at hstatus
      split at hstatus
      · cases hstatus
      · split at hstatus
        · assumption
        · split at hstatus
          · cases hstatus
          · cases hstatus
    change Stored (c ++ storedDecompress.consumed d input room) (o ++ (feed d.1 input room).written)
    rw [consumed_stored, Stored, Phase.run_append, Reads.run hreads, Option.bind_some, hspec.run,
      hdone]
    rfl
  progress := by
    intro d c o input room _ hstatus
    refine .inl ?_
    change (feed d.1 input room).status = _ at hstatus
    rw [Feed.status] at hstatus
    split at hstatus
    · cases hstatus
    · split at hstatus
      · cases hstatus
      · split at hstatus
        · cases hstatus
        · next hpos => exact Nat.lt_add_of_pos_right (Nat.pos_of_ne_zero hpos)
  inflates := by
    intro d c o input z x room hreads hz hpre hroom
    have hspec := feed_spec d.1 input room
    have hreads := Reads.run hreads
    change ((feed d.1 input room).status = _ ∨ (feed d.1 input room).status = _) ∧
      o ++ (feed d.1 input room).written <+: x
    generalize feed d.1 input room = r at hspec
    have hrun : (Phase.header []).run (c ++ input.take r.consumed) =
        some (r.phase, o ++ r.written) := by
      rw [Phase.run_append, hreads, Option.bind_some, hspec.run]
      rfl
    have hpart : c ++ input.take r.consumed <+: c ++ input :=
      (List.prefix_append_right_inj c).mpr (List.take_prefix _ _)
    rw [Feed.status]
    rcases List.prefix_or_prefix_of_prefix hpre hpart with ⟨rest, hrest⟩ | ⟨rest, hrest⟩
    · -- the stream has ended
      rw [← hrest] at hrun
      rw [Phase.run_append, show (Phase.header []).run z = _ from hz, Option.bind_some] at hrun
      obtain ⟨⟨q, y⟩, hq, heq⟩ := Option.map_eq_some_iff.mp hrun
      obtain ⟨-, rfl, rfl⟩ := Phase.run_done hq
      obtain ⟨hphase, hout⟩ := Prod.mk.inj heq
      dsimp only at hphase hout
      rw [List.append_nil] at hout
      refine ⟨.inr ?_, ⟨[], by rw [List.append_nil]; exact hout.symm⟩⟩
      have hok : ¬ r.bad = true := fun hbad => (hspec.bad hbad).1 hphase.symm
      rw [if_neg hok, if_pos hphase.symm]
    · -- it goes on
      subst hrest
      obtain ⟨y, hy, rfl⟩ := Phase.run_rest hrun hz
      refine ⟨?_, List.prefix_append _ _⟩
      have hsame : rest <+: input.drop r.consumed := by
        have hall : c ++ input.take r.consumed ++ input.drop r.consumed = c ++ input := by
          rw [List.append_assoc, List.take_append_drop]
        rw [← hall] at hpre
        exact (List.prefix_append_right_inj _).mp hpre
      have hok : ¬ r.bad = true := by
        intro hbad
        obtain ⟨hnot, b, more, hdrop, hnone⟩ := hspec.bad hbad
        rw [hdrop] at hsame
        cases rest with
        | nil => exact hnot (Prod.mk.inj (Option.some.inj hy)).1
        | cons b' rest =>
          obtain ⟨rfl, -⟩ := List.cons_prefix_cons.mp hsame
          rw [Phase.run, hnone] at hy
          cases hy
      rw [if_neg hok]
      by_cases hdone : r.phase = .done
      · rw [if_pos hdone]
        exact .inr rfl
      · rw [if_neg hdone]
        refine .inl (if_neg fun hzero => ?_)
        -- nothing was consumed, although there is input and room
        have hempty := hspec.run
        rw [hzero] at hempty
        have hwritten : r.written = [] := (Prod.mk.inj (Option.some.inj hempty)).2.symm
        rcases hspec.stops (Bool.eq_false_iff.mpr hok) hdone with hall | hfull
        · have hnil : input.drop r.consumed = [] := List.drop_of_length_le hall.ge
          rw [hnil] at hsame
          rw [List.prefix_nil.mp hsame] at hy
          exact hdone (Prod.mk.inj (Option.some.inj hy)).1
        · rw [hwritten] at hfull
          exact absurd hfull.symm hroom.ne'
  deflates := by
    intro level data c n room o _ hfinishes hroom
    have hqueue : o ++ c.1.getD (storedBlocks (data.drop n).length (data.drop n)) =
        storedBlocks data.length data := by
      rcases Finishes.queue hfinishes with ⟨hnone, rfl, rfl⟩ | ⟨queue, hsome, hq⟩
      · rw [hnone]
        rfl
      · rw [hsome]
        exact hq
    have hstream : Stored (storedBlocks data.length data) data :=
      stored_storedBlocks data.length data (by omega)
    change (Except.ok (if (c.1.getD _).length ≤ room then _ else _) = _ ∧
      Stored (o ++ (c.1.getD _).take room) data) ∨ ∃ status,
        Except.ok (if (c.1.getD _).length ≤ room then _ else _) = _ ∧ status ≠ _ ∧
          (_ ∨ (c.1.getD _).take room ≠ [])
    generalize c.1.getD (storedBlocks (data.drop n).length (data.drop n)) = queue at hqueue
    by_cases hfits : queue.length ≤ room
    · rw [if_pos hfits, List.take_of_length_le hfits, hqueue]
      exact .inl ⟨rfl, hstream⟩
    · rw [if_neg hfits]
      refine .inr ⟨.ok, rfl, (nomatch ·), .inr fun hnil => ?_⟩
      have hlen := congrArg List.length hnil
      rw [List.length_take, List.length_nil] at hlen
      omega
  deflate_bound := by
    intro level data _
    refine ⟨(storedBlocks data.length data).length, ?_⟩
    intro c n o hfinishes
    rcases Finishes.queue hfinishes with ⟨-, -, rfl⟩ | ⟨queue, -, hq⟩
    · exact Nat.zero_le _
    · rw [← hq, List.length_append]
      exact Nat.le_add_right _ _

/-! ## The law -/

/-- **The gzip provider.** With a limit, decompressing ends, reads only what is there, and returns
`x` if and only if the payload begins with a gzip member that holds `x`, which is not larger than
the limit; it reports that a limit is exceeded only if it is, and its buffer is bounded. So it is
with the codecs of a provider that has served any calls before; and what such a provider
compresses, such a provider decompresses again. -/
theorem gzip_law {f : Flate2} {stream : Bytes → Bytes → Prop} (h : f.Lawful stream) :
    (∀ data limit fuel, data.length + limit + 2 ≤ fuel →
      DecompressLaw f stream data limit
        (decompressInner f.decompress fuel f.newDecompress data (some limit)).1
        (decompressInner f.decompress fuel f.newDecompress data (some limit)).2.output.capacity) ∧
    ∀ level (p : GzipProvider f), p.Reachable level →
      (∀ data limit fuel, data.length + limit + 2 ≤ fuel →
        DecompressLaw f stream data limit (p.decompressWithLimit fuel data limit).1.1
          (p.decompressWithLimit fuel data limit).1.2) ∧
      (level ≤ 9 → ∀ data, ∃ enough, ∀ fuel, enough ≤ fuel → ∃ z,
        (p.compress fuel data).1 = .value z ∧
        ∀ level' (q : GzipProvider f), q.Reachable level' → ∀ limit fuel', data.length ≤ limit →
          z.length + limit + 2 ≤ fuel' → (q.decompressWithLimit fuel' z limit).1.1 = .value data) := by
  have hinner : ∀ data limit fuel, data.length + limit + 2 ≤ fuel → DecompressLaw f stream data limit
      (decompressInner f.decompress fuel f.newDecompress data (some limit)).1
      (decompressInner f.decompress fuel f.newDecompress data (some limit)).2.output.capacity :=
    fun data limit fuel hfuel => decompressInner_law h hfuel
  have hpooled : ∀ level (p : GzipProvider f), p.Reachable level → ∀ data limit fuel,
      data.length + limit + 2 ≤ fuel →
        DecompressLaw f stream data limit (p.decompressWithLimit fuel data limit).1.1
          (p.decompressWithLimit fuel data limit).1.2 := by
    intro level p hp data limit fuel hfuel
    rw [(hp.decompress h fuel data limit).1]
    exact hinner data limit fuel hfuel
  refine ⟨hinner, fun level p hp => ⟨hpooled level p hp, fun hlevel data => ?_⟩⟩
  obtain ⟨enough, hcompress⟩ := compressInner_member h hlevel data
  refine ⟨enough, fun fuel hfuel => ?_⟩
  obtain ⟨z, hz, hmember⟩ := hcompress fuel hfuel
  refine ⟨z, ?_, fun level' q hq limit fuel' hlimit hfuel' => ?_⟩
  · rw [(hp.compress h fuel data).1]
    exact hz
  · exact ((hpooled level' q hq z limit fuel' hfuel').exact_iff data).mpr ⟨hmember, hlimit⟩

/-- A member with a name in its header and a byte after its end. -/
theorem gzip_law_named :
    (decompressInner storedFlate2.decompress 64 storedFlate2.newDecompress
      [0x1f, 0x8b, 0x08, 0x08, 0x00, 0x00, 0x00, 0x00, 0x00, 0x03, 0x61, 0x00,
        0x01, 0x02, 0x00, 0xfd, 0xff, 0x68, 0x69,
        0xac, 0x2a, 0x93, 0xd8, 0x02, 0x00, 0x00, 0x00, 0x07] (some 2)).1 = .value [0x68, 0x69] := by
  refine (((gzip_law stored_lawful).1 _ 2 64 (by decide)).exact_iff _).mpr ⟨?_, by decide⟩
  refine ⟨[0x1f, 0x8b, 0x08, 0x08, 0x00, 0x00, 0x00, 0x00, 0x00, 0x03, 0x61, 0x00],
    [0x01, 0x02, 0x00, 0xfd, 0xff, 0x68, 0x69], [0x07], ?_, rfl, by decide +kernel⟩
  exact ⟨0x08, [0x00, 0x00, 0x00, 0x00, 0x00, 0x03], [], [0x61, 0x00], [], [], rfl, rfl,
    .inr ⟨by decide, rfl⟩, .inl ⟨by decide, [0x61], by decide, rfl⟩, .inr ⟨by decide, rfl⟩,
    .inr ⟨by decide, rfl⟩⟩

end ConnectRpc.Gzip
