import ConnectRpc.DescriptorSet
import ConnectRpc.Lib.Worklist

/-!
# Reflection

A reflector answers with serialized files. It keeps a pool of decoded files, which belongs to
another crate, and beside it the bytes of each file under its name. Both see the same sets in
the same order, and both keep what came first under a name.

`reflection_complete` says that the two stay in step, whatever sets are added: every file of
the pool has bytes, and they are those of the very copy that the pool keeps. It also says what
`closure` returns: the bytes of the requested file, and then of every file that it imports,
directly or not, each once, whatever the imports look like.
-/

namespace ConnectRpc

open Lib Lib.Wire

/-- `FileDescriptorProto`, as far as it is read here. -/
structure FileDescriptorProto where
  /-- its name -/
  name : Option String
  /-- the names of the files that it imports -/
  dependency : List String
  deriving DecidableEq

/-- What is used of `buffa` and `buffa-descriptor`. -/
structure DescriptorCrate where
  /-- `DecodeError` -/
  DecodeError : Type
  /-- `PoolError` -/
  PoolError : Type
  /-- `DescriptorPool` -/
  Pool : Type
  /-- `DescriptorPool::default` -/
  default : Pool
  /-- the files of a pool -/
  files : Pool → List FileDescriptorProto
  /-- `DescriptorPool::file_by_name` -/
  fileByName : Pool → String → Option FileDescriptorProto
  /-- `DescriptorPool::add_file_descriptor_set` -/
  addFileDescriptorSet : Pool → List FileDescriptorProto → Except PoolError Pool
  /-- `FileDescriptorSet::decode_from_slice` -/
  decodeFromSlice : Bytes → Except DecodeError (List FileDescriptorProto)
  /-- whether an error is `ElementMemoryLimitExceeded` -/
  elementMemoryLimitExceeded : DecodeError → Bool
  /-- `FileDescriptorProto::encode_to_vec` -/
  encodeToVec : FileDescriptorProto → Bytes

/-- Put the files in that have a new name. -/
def mergeFirst : List FileDescriptorProto → List FileDescriptorProto → List FileDescriptorProto
  | files, [] => files
  | files, fd :: set =>
    if files.any (fun f => f.name = fd.name) then mergeFirst files set
    else mergeFirst (files ++ [fd]) set

/-- A pool keeps the first file registered under a name and skips later ones. -/
structure DescriptorCrate.KeepsFirst (crate : DescriptorCrate) : Prop where
  /-- there is nothing in a new pool -/
  default_files : crate.files crate.default = []
  /-- files with a new name are added -/
  add_files : ∀ {pool set pool'}, crate.addFileDescriptorSet pool set = .ok pool' →
    crate.files pool' = mergeFirst (crate.files pool) set
  /-- no name is registered twice -/
  distinct : ∀ pool, ((crate.files pool).map FileDescriptorProto.name).Nodup
  /-- files are found by name -/
  fileByName_eq : ∀ pool name,
    crate.fileByName pool name = (crate.files pool).find? fun fd => fd.name = some name

variable {crate : DescriptorCrate}

/-! ## The reflector -/

/-- A map from names to bytes. -/
abbrev ResponseBytes := List (String × Bytes)

/-- `entry(name).or_insert_with(..)` -/
def ResponseBytes.orInsert (m : ResponseBytes) (name : String) (bytes : Bytes) : ResponseBytes :=
  if (m.lookup name).isSome then m else m ++ [(name, bytes)]

/-- Insert entries one by one. -/
def ResponseBytes.orInsertAll : ResponseBytes → List (String × Bytes) → ResponseBytes
  | m, [] => m
  | m, e :: es => (m.orInsert e.1 e.2).orInsertAll es

/-- `Reflector`, without the services it advertises. -/
structure Reflector (crate : DescriptorCrate) where
  /-- the pool -/
  pool : crate.Pool
  /-- the bytes of the files -/
  responseBytes : ResponseBytes

/-- The names of files, or the place of one without a name. -/
def namesOf {D P : Type} : ℕ → List FileDescriptorProto → Except (ReflectionError D P) (List String)
  | _, [] => .ok []
  | index, fd :: set =>
    match fd.name with
    | none => .error (.unnamedFile index)
    | some name => (namesOf (index + 1) set).map (name :: ·)

namespace Reflector

/-- The errors of a reflector. -/
abbrev Error (crate : DescriptorCrate) := ReflectionError crate.DecodeError crate.PoolError

/-- A reflector without files. -/
def empty : Reflector crate :=
  ⟨crate.default, []⟩

/-- `Reflector::from_descriptor_pool`. -/
def fromDescriptorPool (pool : crate.Pool) : Except (Error crate) (Reflector crate) :=
  (namesOf 0 (crate.files pool)).map fun names =>
    ⟨pool, ResponseBytes.orInsertAll [] (names.zip ((crate.files pool).map crate.encodeToVec))⟩

/-- `From<DecodeError>` -/
def decodeError (e : crate.DecodeError) : Error crate :=
  if crate.elementMemoryLimitExceeded e then .elementBudget else .decode e

/-- `Reflector::add_descriptor_set_bytes`; `shared` is whether there are other references to the
pool. It is nothing where the source panics. -/
def addDescriptorSetBytes (r : Reflector crate) (shared : Bool) (bytes : Bytes) :
    Option (Except (Error crate) (Reflector crate)) :=
  (splitDescriptorSet bytes).map fun framed =>
    framed.bind fun rawFiles =>
      match crate.decodeFromSlice bytes with
      | .error e => .error (decodeError e)
      | .ok set =>
        if rawFiles.length ≠ set.length then .error (.countMismatch rawFiles.length set.length)
        else
          (namesOf 0 set).bind fun names =>
            if shared then .error .sharedPool
            else
              match crate.addFileDescriptorSet r.pool set with
              | .error e => .error (.pool e)
              | .ok pool => .ok ⟨pool, r.responseBytes.orInsertAll (names.zip rawFiles)⟩

/-- `Reflector::from_descriptor_set_bytes`. -/
def fromDescriptorSetBytes (bytes : Bytes) : Option (Except (Error crate) (Reflector crate)) :=
  empty.addDescriptorSetBytes false bytes

/-- The files that a file imports, as far as they are there, the last on top. -/
def imported (r : Reflector crate) (fd : FileDescriptorProto) : List FileDescriptorProto :=
  (fd.dependency.filterMap (crate.fileByName r.pool)).reverse

/-- The loop of `DescriptorSource::closure`, so many rounds of it at most. The end of the source's
vector is the head of the list. -/
def closureLoop (r : Reflector crate) :
    ℕ → List String → List Bytes → List FileDescriptorProto → Option (List Bytes)
  | 0, _, _, _ => none
  | _ + 1, _, out, [] => some out
  | fuel + 1, seen, out, fd :: stack =>
    match fd.name with
    | none => closureLoop r fuel seen out stack
    | some name =>
      if name ∈ seen then closureLoop r fuel seen out stack
      else
        closureLoop r fuel (name :: seen) (out ++ (r.responseBytes.lookup name).toList)
          (r.imported fd ++ stack)

/-- `DescriptorSource::closure`, so many rounds of it at most. -/
def closure (r : Reflector crate) (fuel : ℕ) (fd : FileDescriptorProto) : Option (List Bytes) :=
  r.closureLoop fuel [] [] [fd]

end Reflector

/-! ## First wins -/

variable {files set : List FileDescriptorProto} {fd : FileDescriptorProto} {name : String}

/-- Every file put in is one of those that were there, or are to be put in. -/
theorem mem_of_mem_mergeFirst (h : fd ∈ mergeFirst files set) : fd ∈ files ∨ fd ∈ set := by
  induction set generalizing files with
  | nil => exact .inl h
  | cons fd' set ih =>
    rw [mergeFirst] at h
    split at h
    · exact (ih h).imp_right (List.mem_cons_of_mem fd')
    · rcases ih h with hmem | hmem
      · rcases List.mem_append.mp hmem with hmem | hmem
        · exact .inl hmem
        · exact .inr (List.mem_singleton.mp hmem ▸ List.mem_cons_self)
      · exact .inr (List.mem_cons_of_mem fd' hmem)

/-- What is found in a pool is what comes first. -/
theorem find?_mergeFirst (p : Option String → Bool) :
    (mergeFirst files set).find? (fun fd => p fd.name) =
      (files ++ set).find? fun fd => p fd.name := by
  induction set generalizing files with
  | nil => rw [mergeFirst, List.append_nil]
  | cons fd set ih =>
    rw [mergeFirst]
    split
    · -- one of this name is there
      rename_i hany
      rw [ih, List.find?_append, List.find?_append, List.find?_cons]
      rcases hp : p fd.name with _ | _
      · rfl
      · obtain ⟨f, hf, hname⟩ := List.any_eq_true.mp hany
        have hfound : (files.find? fun fd => p fd.name).isSome = true :=
          List.find?_isSome.mpr ⟨f, hf, by rw [of_decide_eq_true hname, hp]⟩
        obtain ⟨g, hg⟩ := Option.isSome_iff_exists.mp hfound
        rw [hg]
        rfl
    · rw [ih, List.append_assoc, List.singleton_append]

/-- No name is put in twice. -/
theorem mergeFirst_distinct (h : (files.map FileDescriptorProto.name).Nodup) :
    ((mergeFirst files set).map FileDescriptorProto.name).Nodup := by
  induction set generalizing files with
  | nil => exact h
  | cons fd set ih =>
    rw [mergeFirst]
    split
    · exact ih h
    · rename_i hany
      refine ih ?_
      rw [List.map_append]
      refine List.nodup_append.mpr ⟨h, List.nodup_singleton _, ?_⟩
      rintro n hn n' hn' rfl
      obtain ⟨f, hf, hname⟩ := List.mem_map.mp hn
      refine hany (List.any_eq_true.mpr ⟨f, hf, decide_eq_true ?_⟩)
      exact hname.trans (List.mem_singleton.mp hn')

/-- What is found among the bytes is what comes first. -/
theorem ResponseBytes.lookup_orInsert (m : ResponseBytes) (n : String) (bytes : Bytes) :
    (m.orInsert n bytes).lookup name = (m ++ [(n, bytes)]).lookup name := by
  rw [orInsert]
  split
  · rename_i hsome
    rw [List.lookup_append]
    by_cases hname : name = n
    · obtain ⟨b, hb⟩ := Option.isSome_iff_exists.mp hsome
      rw [hname, hb]
      rfl
    · have hnone : List.lookup name [(n, bytes)] = none :=
        List.lookup_eq_none_iff.mpr (by simpa using hname)
      rw [hnone, Option.or_none]
  · rfl

theorem ResponseBytes.lookup_orInsertAll (m : ResponseBytes) (es : List (String × Bytes)) :
    (m.orInsertAll es).lookup name = (m ++ es).lookup name := by
  induction es generalizing m with
  | nil => rw [orInsertAll, List.append_nil]
  | cons e es ih =>
    rw [orInsertAll, ih, List.lookup_append, lookup_orInsert, ← List.lookup_append,
      List.append_assoc, List.singleton_append]

/-- The names of files that have names. -/
theorem namesOf_ok {D P : Type} {index : ℕ} {names : List String}
    (h : (namesOf index set : Except (ReflectionError D P) _) = .ok names) :
    set.map FileDescriptorProto.name = names.map some := by
  induction set generalizing index names with
  | nil =>
    obtain rfl := Except.ok.inj h
    rfl
  | cons fd set ih =>
    rw [namesOf] at h
    rcases hname : fd.name with _ | name
    · rw [hname] at h
      cases h
    · rw [hname] at h
      rcases hrest : (namesOf (index + 1) set : Except (ReflectionError D P) _) with e | rest
      · simp only [hrest] at h
        cases h
      · simp only [hrest] at h
        obtain rfl := Except.ok.inj h
        rw [List.map_cons, List.map_cons, hname, ih hrest]

namespace Reflector

variable {history : List (FileDescriptorProto × Bytes)} {r r' : Reflector crate} {bytes : Bytes}

/-- A reflector, and every copy of a file that was added to it, with its bytes. -/
inductive Built : List (FileDescriptorProto × Bytes) → Reflector crate → Prop
  | empty : Built [] .empty
  | adopted {pool : crate.Pool} {r : Reflector crate} :
    fromDescriptorPool pool = .ok r →
    Built ((crate.files pool).map fun fd => (fd, crate.encodeToVec fd)) r
  | added {history : List (FileDescriptorProto × Bytes)} {r r' : Reflector crate} {shared : Bool}
      {bytes : Bytes} {rawFiles : List Bytes} {set : List FileDescriptorProto} :
    Built history r → r.addDescriptorSetBytes shared bytes = some (.ok r') →
    (splitDescriptorSet bytes : Option (Except (Error crate) _)) = some (.ok rawFiles) →
    crate.decodeFromSlice bytes = .ok set →
    Built (history ++ set.zip rawFiles) r'

/-- The first copy that was added under a name. -/
def firstCopy (history : List (FileDescriptorProto × Bytes)) (name : String) :
    Option (FileDescriptorProto × Bytes) :=
  history.find? fun copy => copy.1.name = some name

/-- Both stores give the first copy under every name. -/
structure Tracks (history : List (FileDescriptorProto × Bytes)) (r : Reflector crate) : Prop where
  /-- the files of the pool have names -/
  named : ∀ fd ∈ crate.files r.pool, fd.name.isSome = true
  /-- a file is that of the first copy -/
  file : ∀ name, (crate.files r.pool).find? (fun fd => fd.name = some name) =
    (firstCopy history name).map Prod.fst
  /-- and so are its bytes -/
  served : ∀ name, r.responseBytes.lookup name = (firstCopy history name).map Prod.snd

/-- The files of copies. -/
theorem find?_copies (copies : List (FileDescriptorProto × Bytes)) :
    (copies.map Prod.fst).find? (fun fd => fd.name = some name) =
      (firstCopy copies name).map Prod.fst := by
  rw [List.find?_map]
  rfl

/-- The bytes of copies that have these names. -/
theorem lookup_copies {names : List String} {rawFiles : List Bytes}
    (hnames : set.map FileDescriptorProto.name = names.map some) :
    (names.zip rawFiles).lookup name = (firstCopy (set.zip rawFiles) name).map Prod.snd := by
  induction set generalizing names rawFiles with
  | nil =>
    obtain rfl := List.map_eq_nil_iff.mp hnames.symm
    rfl
  | cons fd set ih =>
    cases names with
    | nil => cases hnames
    | cons n names =>
      obtain ⟨hn, hnames⟩ := List.cons.inj hnames
      cases rawFiles with
      | nil => rfl
      | cons raw rawFiles =>
        rw [List.zip_cons_cons, List.zip_cons_cons, List.lookup_cons, firstCopy, List.find?_cons]
        by_cases hname : name = n
        · subst hname
          simp [hn]
        · have hne : ¬ fd.name = some name := by
            rw [hn]
            exact fun h => hname (Option.some.inj h).symm
          rw [beq_false_of_ne hname, decide_eq_false hne]
          exact ih hnames

theorem firstCopy_append (copies copies' : List (FileDescriptorProto × Bytes)) :
    firstCopy (copies ++ copies') name = (firstCopy copies name).or (firstCopy copies' name) :=
  List.find?_append

theorem tracks_empty (hcrate : crate.KeepsFirst) : Tracks [] (empty : Reflector crate) where
  named := by
    intro fd h
    rw [empty, hcrate.default_files] at h
    cases h
  file := by
    intro name
    rw [empty, hcrate.default_files]
    rfl
  served := fun name => rfl

/-- An adopted pool, and what it encodes to. -/
theorem tracks_adopted {pool : crate.Pool} (h : fromDescriptorPool pool = .ok r) :
    Tracks ((crate.files pool).map fun fd => (fd, crate.encodeToVec fd)) r := by
  obtain ⟨names, hmap, rfl⟩ : ∃ names : List String,
      (crate.files pool).map FileDescriptorProto.name = names.map some ∧
      r = ⟨pool, ResponseBytes.orInsertAll []
        (names.zip ((crate.files pool).map crate.encodeToVec))⟩ := by
    rw [fromDescriptorPool] at h
    rcases hnames : (namesOf 0 (crate.files pool) : Except (Error crate) _) with e | names
    · rw [hnames] at h
      cases h
    · rw [hnames] at h
      exact ⟨names, namesOf_ok hnames, (Except.ok.inj h).symm⟩
  have hzip : (crate.files pool).map (fun fd => (fd, crate.encodeToVec fd)) =
      (crate.files pool).zip ((crate.files pool).map crate.encodeToVec) :=
    List.map_prod_left_eq_zip
  refine ⟨fun fd hfd => ?_, fun name => ?_, fun name => ?_⟩
  · have hmem := List.mem_map_of_mem (f := FileDescriptorProto.name) hfd
    rw [hmap] at hmem
    obtain ⟨n, -, hn⟩ := List.mem_map.mp hmem
    rw [← hn]
    rfl
  · rw [← find?_copies, List.map_map]
    exact congrArg _ (List.map_id _).symm
  · rw [hzip, ← lookup_copies hmap, ResponseBytes.lookup_orInsertAll, List.nil_append]

/-- A set that is added without an error. -/
theorem add_ok {shared : Bool} {rawFiles : List Bytes} {set : List FileDescriptorProto}
    (h : r.addDescriptorSetBytes shared bytes = some (.ok r'))
    (hraw : (splitDescriptorSet bytes : Option (Except (Error crate) _)) = some (.ok rawFiles))
    (hset : crate.decodeFromSlice bytes = .ok set) :
    ∃ (names : List String) (pool : crate.Pool),
      set.map FileDescriptorProto.name = names.map some ∧ rawFiles.length = set.length ∧
      crate.addFileDescriptorSet r.pool set = .ok pool ∧
      r' = ⟨pool, r.responseBytes.orInsertAll (names.zip rawFiles)⟩ := by
  rw [addDescriptorSetBytes, hraw] at h
  simp only [Option.map_some, Except.bind, hset] at h
  by_cases hlength : rawFiles.length = set.length
  · rw [if_neg (not_not.mpr hlength)] at h
    rcases hnames : (namesOf 0 set : Except (Error crate) _) with e | names
    · rw [hnames] at h
      cases h
    · rw [hnames] at h
      cases shared with
      | true => cases h
      | false =>
        rcases hpool : crate.addFileDescriptorSet r.pool set with e | pool
        · simp only [hpool] at h
          cases h
        · simp only [hpool] at h
          exact ⟨names, pool, namesOf_ok hnames, hlength, rfl,
            (Except.ok.inj (Option.some.inj h)).symm⟩
  · rw [if_pos hlength] at h
    cases h

/-- A set that is added keeps the stores in step. -/
theorem Tracks.add {shared : Bool} {rawFiles : List Bytes} {set : List FileDescriptorProto}
    (hcrate : crate.KeepsFirst) (htracks : Tracks history r)
    (h : r.addDescriptorSetBytes shared bytes = some (.ok r'))
    (hraw : (splitDescriptorSet bytes : Option (Except (Error crate) _)) = some (.ok rawFiles))
    (hset : crate.decodeFromSlice bytes = .ok set) :
    Tracks (history ++ set.zip rawFiles) r' := by
  obtain ⟨names, pool, hnames, hlength, hpool, rfl⟩ := add_ok h hraw hset
  have hfiles := hcrate.add_files hpool
  refine ⟨fun fd hfd => ?_, fun name => ?_, fun name => ?_⟩
  · rw [hfiles] at hfd
    rcases mem_of_mem_mergeFirst hfd with hmem | hmem
    · exact htracks.named fd hmem
    · have hname := List.mem_map_of_mem (f := FileDescriptorProto.name) hmem
      rw [hnames] at hname
      obtain ⟨n, -, hn⟩ := List.mem_map.mp hname
      rw [← hn]
      rfl
  · have hfst : (set.zip rawFiles).map Prod.fst = set :=
      List.map_fst_zip (Nat.le_of_eq hlength.symm)
    have hnew : set.find? (fun fd => fd.name = some name) =
        (firstCopy (set.zip rawFiles) name).map Prod.fst := by
      rw [← find?_copies, hfst]
    rw [hfiles, find?_mergeFirst fun n => n = some name, List.find?_append, htracks.file name, hnew,
      firstCopy_append]
    cases firstCopy history name with
    | none => rfl
    | some copy => rfl
  · rw [ResponseBytes.lookup_orInsertAll, List.lookup_append, htracks.served name,
      lookup_copies hnames, firstCopy_append]
    cases firstCopy history name with
    | none => rfl
    | some copy => rfl

/-- **The two stores stay in step.** -/
theorem Built.tracks (hcrate : crate.KeepsFirst) (h : Built history r) : Tracks history r := by
  induction h with
  | empty => exact tracks_empty hcrate
  | adopted h => exact tracks_adopted h
  | added _ hadd hraw hset ih => exact ih.add hcrate hadd hraw hset

/-! ## The closure -/

/-- One file imports another, which is in the pool. -/
def Imports (r : Reflector crate) (fd fd' : FileDescriptorProto) : Prop :=
  ∃ dep ∈ fd.dependency, fd' ∈ crate.files r.pool ∧ fd'.name = some dep

/-- The bytes of a file. -/
def served (r : Reflector crate) (fd : FileDescriptorProto) : Option Bytes :=
  fd.name.bind fun name => r.responseBytes.lookup name

/-- So many rounds are more than enough. -/
def rounds (r : Reflector crate) : ℕ :=
  2 + ((crate.files r.pool).map fun fd => fd.dependency.length).sum

/-- Files of a pool are told apart by their names. -/
theorem eq_of_name_eq (hcrate : crate.KeepsFirst) {pool : crate.Pool} {fd fd' : FileDescriptorProto}
    (hfd : fd ∈ crate.files pool) (hfd' : fd' ∈ crate.files pool) (hname : fd.name = fd'.name) :
    fd = fd' :=
  List.inj_on_of_nodup_map (hcrate.distinct pool) hfd hfd' hname

/-- A file is found under its name. -/
theorem find?_name (hcrate : crate.KeepsFirst) {pool : crate.Pool} :
    (crate.files pool).find? (fun fd => fd.name = some name) = some fd ↔
      fd ∈ crate.files pool ∧ fd.name = some name := by
  constructor
  · intro h
    have hname := List.find?_some h
    exact ⟨List.mem_of_find?_eq_some h, of_decide_eq_true hname⟩
  · rintro ⟨hmem, hname⟩
    have hsome : ((crate.files pool).find? fun fd => fd.name = some name).isSome = true :=
      List.find?_isSome.mpr ⟨fd, hmem, decide_eq_true hname⟩
    obtain ⟨fd', hfd'⟩ := Option.isSome_iff_exists.mp hsome
    have hname' := List.find?_some hfd'
    have hsame := hname.trans (of_decide_eq_true hname').symm
    rw [hfd', eq_of_name_eq hcrate hmem (List.mem_of_find?_eq_some hfd') hsame]

theorem mem_imported_iff (hcrate : crate.KeepsFirst) {fd' : FileDescriptorProto} :
    fd' ∈ r.imported fd ↔ r.Imports fd fd' := by
  rw [imported, List.mem_reverse, List.mem_filterMap]
  refine exists_congr fun dep => and_congr_right fun _ => ?_
  rw [hcrate.fileByName_eq, find?_name hcrate]

theorem imported_in_pool (hcrate : crate.KeepsFirst) {fd' : FileDescriptorProto}
    (h : fd' ∈ r.imported fd) : fd' ∈ crate.files r.pool := by
  obtain ⟨-, -, hmem, -⟩ := (mem_imported_iff hcrate).mp h
  exact hmem

/-- The names that were seen are those of the files that were visited. -/
theorem mem_seen_iff (hcrate : crate.KeepsFirst) {seen : List String}
    {visited : List FileDescriptorProto}
    (hseen : seen.map some = (visited.map FileDescriptorProto.name).reverse)
    (hvisited : ∀ fd ∈ visited, fd ∈ crate.files r.pool) (hfd : fd ∈ crate.files r.pool)
    (hname : fd.name = some name) : name ∈ seen ↔ fd ∈ visited := by
  have hmem : name ∈ seen ↔ some name ∈ visited.map FileDescriptorProto.name := by
    have hreverse : some name ∈ (visited.map FileDescriptorProto.name).reverse ↔
        some name ∈ visited.map FileDescriptorProto.name := List.mem_reverse
    rw [← hreverse, ← hseen, List.mem_map]
    constructor
    · exact fun h => ⟨name, h, rfl⟩
    · rintro ⟨n, hn, heq⟩
      exact Option.some.inj heq ▸ hn
  rw [hmem, List.mem_map]
  constructor
  · rintro ⟨fd', hfd', hname'⟩
    rwa [eq_of_name_eq hcrate hfd (hvisited fd' hfd') (hname.trans hname'.symm)]
  · exact fun h => ⟨fd, h, hname⟩

/-- **The loop** is a search through the imports. -/
theorem closureLoop_eq (hcrate : crate.KeepsFirst)
    (hnamed : ∀ fd ∈ crate.files r.pool, fd.name.isSome = true) {fuel : ℕ} {seen : List String}
    {visited stack : List FileDescriptorProto}
    (hseen : seen.map some = (visited.map FileDescriptorProto.name).reverse)
    (hvisited : ∀ fd ∈ visited, fd ∈ crate.files r.pool)
    (hstack : ∀ fd ∈ stack, fd ∈ crate.files r.pool) :
    r.closureLoop fuel seen (visited.filterMap r.served) stack =
      (explore r.imported fuel visited stack).map (·.filterMap r.served) := by
  induction fuel generalizing seen visited stack with
  | zero => rfl
  | succ fuel ih =>
    cases stack with
    | nil => rfl
    | cons fd stack =>
      have hfd := hstack fd List.mem_cons_self
      have hrest : ∀ fd ∈ stack, fd ∈ crate.files r.pool :=
        fun fd' h => hstack fd' (List.mem_cons_of_mem fd h)
      obtain ⟨name, hname⟩ := Option.isSome_iff_exists.mp (hnamed fd hfd)
      have hmem := mem_seen_iff hcrate hseen hvisited hfd hname
      rw [closureLoop, explore, hname]
      simp only
      by_cases hold : fd ∈ visited
      · rw [if_pos (hmem.mpr hold), if_pos hold]
        exact ih hseen hvisited hrest
      · rw [if_neg fun h => hold (hmem.mp h), if_neg hold]
        have hbytes : (r.responseBytes.lookup name).toList = [fd].filterMap r.served := by
          rw [List.filterMap_cons, served, hname, Option.bind_some]
          cases r.responseBytes.lookup name with
          | none => rfl
          | some bytes => rfl
        rw [hbytes, ← List.filterMap_append]
        refine ih ?_ (fun fd' h => ?_) (fun fd' h => ?_)
        · rw [List.map_cons, hseen, List.map_append, List.reverse_append, ← hname]
          rfl
        · rcases List.mem_append.mp h with h | h
          · exact hvisited fd' h
          · exact List.mem_singleton.mp h ▸ hfd
        · rcases List.mem_append.mp h with h | h
          · exact imported_in_pool hcrate h
          · exact hrest fd' h

/-- The search ends in this many rounds. -/
theorem stepsLeft_lt (hcrate : crate.KeepsFirst) :
    stepsLeft r.imported (crate.files r.pool).toFinset [] [fd] < r.rounds := by
  have hnodup : (crate.files r.pool).Nodup := (hcrate.distinct r.pool).of_map
  have hsum : ∑ fd ∈ (crate.files r.pool).toFinset, (r.imported fd).length ≤
      ((crate.files r.pool).map fun fd => fd.dependency.length).sum := by
    rw [List.sum_toFinset _ hnodup]
    refine List.sum_le_sum fun fd _ => ?_
    rw [imported, List.length_reverse]
    exact List.length_filterMap_le _ _
  rw [stepsLeft, rounds, List.toFinset_nil, Finset.sdiff_empty, List.length_singleton]
  omega

/-- What `closure` returns. -/
theorem closure_law (hcrate : crate.KeepsFirst)
    (hnamed : ∀ fd ∈ crate.files r.pool, fd.name.isSome = true) (hfd : fd ∈ crate.files r.pool) :
    ∃ visited : List FileDescriptorProto,
      (visited.head? = some fd ∧ visited.Nodup ∧
        ∀ fd', fd' ∈ visited ↔ Relation.ReflTransGen r.Imports fd fd') ∧
      ∀ fuel, r.rounds ≤ fuel → r.closure fuel fd = some (visited.filterMap r.served) := by
  have hclosed : ∀ a ∈ (crate.files r.pool).toFinset, ∀ b ∈ r.imported a,
      b ∈ (crate.files r.pool).toFinset :=
    fun _ _ b hb => List.mem_toFinset.mpr (imported_in_pool hcrate hb)
  have hroot : ∀ a ∈ [fd], a ∈ (crate.files r.pool).toFinset := by
    intro a ha
    rw [List.mem_singleton.mp ha]
    exact List.mem_toFinset.mpr hfd
  have hends := explore_isSome hclosed hroot (stepsLeft_lt hcrate)
  obtain ⟨visited, hvisited⟩ := Option.isSome_iff_exists.mp hends
  have himports : (fun a b => b ∈ r.imported a) = r.Imports :=
    funext fun a => funext fun b => propext (mem_imported_iff hcrate)
  obtain ⟨hfirst, hnodup, hmem⟩ := explore_law hvisited
  rw [Leads, himports] at hmem
  refine ⟨visited, ⟨hfirst, hnodup, hmem⟩, fun fuel hfuel => ?_⟩
  have hloop : r.closureLoop fuel [] (List.filterMap r.served []) [fd] = _ :=
    closureLoop_eq hcrate hnamed rfl (by simp) (by simpa using hfd)
  rw [explore_mono hfuel hvisited] at hloop
  exact hloop

end Reflector

/-- **Reflection.** Every file of the pool is served with the bytes of the copy that was added
first under its name, which is the copy in the pool. And `closure` gives the bytes of a file and
of all that can be reached from it through imports in the pool, each once and that of the file
first. It ends whatever the imports are. -/
theorem reflection_complete (hcrate : crate.KeepsFirst)
    {history : List (FileDescriptorProto × Bytes)} {r : Reflector crate}
    (hbuilt : Reflector.Built history r) :
    (∀ fd ∈ crate.files r.pool, ∃ name bytes before after,
      fd.name = some name ∧ r.responseBytes.lookup name = some bytes ∧
      history = before ++ (fd, bytes) :: after ∧ ∀ copy ∈ before, copy.1.name ≠ some name) ∧
    ∀ fd ∈ crate.files r.pool, ∃ (visited : List FileDescriptorProto) (out : List Bytes),
      visited.head? = some fd ∧ visited.Nodup ∧
      (∀ fd', fd' ∈ visited ↔ Relation.ReflTransGen r.Imports fd fd') ∧
      visited.map r.served = out.map some ∧
      ∀ fuel, r.rounds ≤ fuel → r.closure fuel fd = some out := by
  have htracks := hbuilt.tracks hcrate
  have hserved : ∀ fd ∈ crate.files r.pool, ∃ name bytes, fd.name = some name ∧
      r.responseBytes.lookup name = some bytes ∧
      Reflector.firstCopy history name = some (fd, bytes) := by
    intro fd hfd
    obtain ⟨name, hname⟩ := Option.isSome_iff_exists.mp (htracks.named fd hfd)
    have hfile := htracks.file name
    rw [(Reflector.find?_name hcrate).mpr ⟨hfd, hname⟩] at hfile
    obtain ⟨⟨fd', bytes⟩, hfirst, hsame⟩ := Option.map_eq_some_iff.mp hfile.symm
    obtain rfl : fd' = fd := hsame
    have hbytes := htracks.served name
    rw [hfirst] at hbytes
    exact ⟨name, bytes, hname, hbytes, hfirst⟩
  refine ⟨fun fd hfd => ?_, fun fd hfd => ?_⟩
  · obtain ⟨name, bytes, hname, hbytes, hfirst⟩ := hserved fd hfd
    obtain ⟨-, before, after, hhistory, hbefore⟩ := List.find?_eq_some_iff_append.mp hfirst
    refine ⟨name, bytes, before, after, hname, hbytes, hhistory, fun copy hcopy => ?_⟩
    simpa using hbefore copy hcopy
  · obtain ⟨visited, ⟨hfirst, hnodup, hmem⟩, hclosure⟩ :=
      Reflector.closure_law hcrate htracks.named hfd
    -- what is visited is in the pool, and so it is served
    have hpool : ∀ fd' ∈ visited, fd' ∈ crate.files r.pool := by
      intro fd' hfd'
      rcases Relation.ReflTransGen.cases_tail ((hmem fd').mp hfd') with heq | ⟨_, _, himports⟩
      · exact heq ▸ hfd
      · obtain ⟨-, -, hin, -⟩ := himports
        exact hin
    refine ⟨visited, visited.filterMap r.served, hfirst, hnodup, hmem, ?_, hclosure⟩
    clear hfirst hnodup hmem hclosure
    induction visited with
    | nil => rfl
    | cons fd' visited ih =>
      obtain ⟨name, bytes, hname, hbytes, -⟩ := hserved fd' (hpool fd' List.mem_cons_self)
      have hfd' : r.served fd' = some bytes := by
        rw [Reflector.served, hname, Option.bind_some, hbytes]
      have hrest := ih fun a ha => hpool a (List.mem_cons_of_mem fd' ha)
      rw [List.map_cons, List.filterMap_cons, hfd', hrest]
      rfl

/-- A crate that decodes one set. File `a` imports `b` and `c`, file `b` imports `a`, and there
is no file `c`. -/
def crateOfLists : DescriptorCrate where
  DecodeError := Unit
  PoolError := Unit
  Pool := { files : List FileDescriptorProto // (files.map FileDescriptorProto.name).Nodup }
  default := ⟨[], List.nodup_nil⟩
  files pool := pool.1
  fileByName pool name := pool.1.find? fun fd => fd.name = some name
  addFileDescriptorSet pool set := .ok ⟨mergeFirst pool.1 set, mergeFirst_distinct pool.2⟩
  decodeFromSlice bytes :=
    if bytes = [0x0A, 9, 0x0A, 1, 97, 0x1A, 1, 98, 0x1A, 1, 99, 0x0A, 6, 0x0A, 1, 98, 0x1A, 1, 97]
    then .ok [⟨some "a", ["b", "c"]⟩, ⟨some "b", ["a"]⟩]
    else .error ()
  elementMemoryLimitExceeded _ := false
  encodeToVec _ := []

theorem crateOfLists_keepsFirst : crateOfLists.KeepsFirst where
  default_files := rfl
  add_files := by
    intro pool set pool' h
    obtain rfl := Except.ok.inj h
    rfl
  distinct pool := pool.2
  fileByName_eq _ _ := rfl

/-- What the reflector of that set serves for `a`. -/
theorem reflection_two :
    ∃ (r : Reflector crateOfLists) (out : List Bytes),
      Reflector.fromDescriptorSetBytes
          [0x0A, 9, 0x0A, 1, 97, 0x1A, 1, 98, 0x1A, 1, 99, 0x0A, 6, 0x0A, 1, 98, 0x1A, 1, 97] =
        some (.ok r) ∧
      r.closure 100 ⟨some "a", ["b", "c"]⟩ = some out ∧
      out.head? = r.served ⟨some "a", ["b", "c"]⟩ := by
  let bytes : Bytes :=
    [0x0A, 9, 0x0A, 1, 97, 0x1A, 1, 98, 0x1A, 1, 99, 0x0A, 6, 0x0A, 1, 98, 0x1A, 1, 97]
  let a : FileDescriptorProto := ⟨some "a", ["b", "c"]⟩
  let b : FileDescriptorProto := ⟨some "b", ["a"]⟩
  let r : Reflector crateOfLists :=
    ⟨⟨[a, b], by decide⟩,
      [("a", [0x0A, 1, 97, 0x1A, 1, 98, 0x1A, 1, 99]), ("b", [0x0A, 1, 98, 0x1A, 1, 97])]⟩
  have hadd : Reflector.empty.addDescriptorSetBytes false bytes = some (.ok r) := rfl
  have hraw : (splitDescriptorSet bytes : Option (Except (Reflector.Error crateOfLists) _)) =
      some (.ok [[0x0A, 1, 97, 0x1A, 1, 98, 0x1A, 1, 99], [0x0A, 1, 98, 0x1A, 1, 97]]) := rfl
  have hset : crateOfLists.decodeFromSlice bytes = .ok [a, b] := rfl
  have hbuilt := Reflector.Built.added .empty hadd hraw hset
  obtain ⟨visited, out, hfirst, -, -, hout, hclosure⟩ :=
    (reflection_complete crateOfLists_keepsFirst hbuilt).2 a List.mem_cons_self
  refine ⟨r, out, hadd, hclosure 100 (by decide), ?_⟩
  have hhead := congrArg List.head? hout
  rw [List.head?_map, List.head?_map, hfirst] at hhead
  cases out with
  | nil => cases hhead
  | cons o out => exact (Option.some.inj hhead).symm

end ConnectRpc
