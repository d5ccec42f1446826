import ConnectRpc.Codegen
import Mathlib.Data.List.Flatten
import Mathlib.Data.List.Nodup
import Mathlib.Data.List.Perm.Basic

/-!
# No identifier twice

What a batch declares that is generated without an error (`Unique`): the functions of each trait and
of each client, the items of each package's module, and the implementations of `Encodable`.

The checks look at different identifiers, and each of what is declared is in one of them. Methods
are looked at service by service (`checkMethodCollisions_ok`); what services declare is taken in the
state of the batch, so that it is what the run has declared (`Emitted`); an alias that would stand in
the way is left out. No check looks at what a client always has, so a method may be called like it,
and `generated_unique_iff` says that nothing else is declared twice.
-/

namespace ConnectRpc.Codegen

open Lib

/-! ## What is asked of it -/

/-- The identifier of a function, which `r#` does not belong to. -/
def unraw (name : String) : String :=
  if startsWith "r#" name then String.ofList (name.toList.drop 2) else name

/-- The types and traits of a service. -/
def ServiceItems.types (s : ServiceItems) : List String :=
  [s.traitName, s.extTraitName, s.registerMarkerName, s.clientName, s.serverName]

/-- What a service declares in the module. -/
def ServiceItems.idents (s : ServiceItems) : List String :=
  s.types ++ s.serviceNameConst :: s.specConsts

/-- What a file declares in the module. -/
def Companion.idents (c : Companion) : List String :=
  c.aliases.map OwnedViewAlias.name ++ c.services.flatMap ServiceItems.idents

/-- The types among it. -/
def Companion.types (c : Companion) : List String :=
  c.aliases.map OwnedViewAlias.name ++ c.services.flatMap ServiceItems.types

/-- **No identifier is declared twice**, nor one that a message or an enum has. -/
structure Unique (rootTypes : IdentsByPackage) (cs : List Companion) : Prop where
  /-- the functions of a trait -/
  traits : ∀ c ∈ cs, ∀ s ∈ c.services, (s.traitMethods.map fun f => unraw f.name).Nodup
  /-- the functions of a client -/
  clients : ∀ c ∈ cs, ∀ s ∈ c.services, (s.clientMethods.map fun f => unraw f.name).Nodup
  /-- the items of a module -/
  modules : ∀ package,
    ((cs.filter fun c => c.package = package).flatMap Companion.idents).Nodup
  /-- and the messages that are in it -/
  messages : ∀ c ∈ cs, ∀ ident ∈ c.types, rootTypes.lookup (c.package, ident) = none
  /-- the implementations of `Encodable` -/
  impls : ((cs.flatMap Companion.impls).map EncodableImpls.fqn).Nodup

/-- What the case conversions give: words with underscores between them. A keyword is made an
identifier by `r#`, or where this is not possible by an underscore. -/
structure Casing.Lawful (casing : Casing) : Prop where
  /-- no other signs -/
  hash : ∀ s, '#' ∉ (casing.toSnakeCase s).toList
  /-- no underscore at the end -/
  last : ∀ s, (casing.toSnakeCase s).toList.getLast? ≠ some '_'
  /-- keywords -/
  field : ∀ s, casing.makeFieldIdent s = s ∨ casing.makeFieldIdent s = "r#" ++ s ∨
    (casing.makeFieldIdent s = s ++ "_" ∧ s ∈ ["self", "super", "Self", "crate"])

/-! ## Methods -/

/-- A name that is made of words. -/
def Clean (s : String) : Prop := '#' ∉ s.toList ∧ s.toList.getLast? ≠ some '_'

theorem unraw_of_hash {s : String} (h : '#' ∉ s.toList) : unraw s = s := by
  rw [unraw, if_neg]
  intro hstart
  obtain ⟨rest, hrest⟩ := List.isPrefixOf_iff_prefix.mp hstart
  exact h (by rw [← hrest]; simp)

theorem unraw_raw (s : String) : unraw ("r#" ++ s) = s := by
  have hstart : startsWith "r#" ("r#" ++ s) = true := by
    rw [startsWith, String.toList_append]
    exact List.isPrefixOf_iff_prefix.mpr (List.prefix_append _ _)
  rw [unraw, if_pos hstart, String.toList_append]
  exact String.ofList_toList

section

variable {casing : Casing} (hc : casing.Lawful)

include hc

theorem clean_snake (s : String) : Clean (casing.toSnakeCase s) := ⟨hc.hash s, hc.last s⟩

theorem clean_with_options (s : String) : Clean (casing.toSnakeCase s ++ "_with_options") := by
  refine ⟨?_, ?_⟩
  · rw [String.toList_append, List.mem_append, not_or]
    exact ⟨hc.hash s, by decide⟩
  · rw [String.toList_append, List.getLast?_append]
    simp

/-- What a method's identifier is. -/
theorem unraw_field {s : String} (h : Clean s) :
    unraw (casing.makeFieldIdent s) = s ∨
      (unraw (casing.makeFieldIdent s) = s ++ "_" ∧ s ∈ ["self", "super", "Self", "crate"]) := by
  rcases hc.field s with hs | hs | ⟨hs, hkeyword⟩
  · rw [hs]
    exact .inl (unraw_of_hash h.1)
  · rw [hs]
    exact .inl (unraw_raw s)
  · rw [hs]
    refine .inr ⟨unraw_of_hash ?_, hkeyword⟩
    rw [String.toList_append, List.mem_append, not_or]
    exact ⟨h.1, by decide⟩

/-- Identifiers tell methods apart. -/
theorem unraw_field_inj {s t : String} (hs : Clean s) (ht : Clean t)
    (h : unraw (casing.makeFieldIdent s) = unraw (casing.makeFieldIdent t)) : s = t := by
  have hno : ∀ {u v : String}, Clean u → u ≠ v ++ "_" := by
    intro u v hu huv
    refine hu.2 ?_
    rw [huv, String.toList_append, List.getLast?_append]
    rfl
  rcases unraw_field hc hs with hs' | ⟨hs', _⟩
  · rcases unraw_field hc ht with ht' | ⟨ht', _⟩
    · rw [← hs', h, ht']
    · exact absurd (by rw [← hs', h, ht']) (hno hs)
  · rcases unraw_field hc ht with ht' | ⟨ht', _⟩
    · exact absurd (by rw [← ht', ← h, hs']) (hno ht)
    · have huv : s ++ "_" = t ++ "_" := by rw [← hs', h, ht']
      have hlist := congrArg String.toList huv
      rw [String.toList_append, String.toList_append] at hlist
      exact String.toList_inj.mp (List.append_cancel_right hlist)

theorem unraw_field_with_options (s : String) :
    unraw (casing.makeFieldIdent (casing.toSnakeCase s ++ "_with_options")) =
      casing.toSnakeCase s ++ "_with_options" := by
  refine (unraw_field hc (clean_with_options hc s)).resolve_right ?_
  rintro ⟨_, hkeyword⟩
  have hlong : ∀ k ∈ ["self", "super", "Self", "crate"], k.length ≤ 5 := by decide
  have hlength := hlong _ hkeyword
  rw [String.length_append] at hlength
  have : "_with_options".length = 13 := rfl
  omega

end

/-- What a client always has: `new`, `config` and `config_mut`. -/
def reserved : List String := clientItems.map Fn.name

theorem with_options_not_reserved (s : String) : s ++ "_with_options" ∉ reserved := by
  intro hmem
  have hlong : ∀ k ∈ reserved, k.length ≤ 10 := by decide
  have hlength := hlong _ hmem
  rw [String.length_append] at hlength
  have : "_with_options".length = 13 := rfl
  omega

theorem unraw_field_reserved {casing : Casing} (hc : casing.Lawful) {s : String} (h : Clean s) :
    unraw (casing.makeFieldIdent s) ∈ reserved ↔ s ∈ reserved := by
  rcases unraw_field hc h with hs | ⟨hs, hkeyword⟩
  · rw [hs]
  · have hall : ∀ k ∈ ["self", "super", "Self", "crate"], k ++ "_" ∉ reserved ∧ k ∉ reserved := by
      decide
    obtain ⟨hno, hno'⟩ := hall s hkeyword
    rw [hs]
    exact ⟨fun h => absurd h hno, fun h => absurd h hno'⟩

/-- What a client has for a method, without keywords in mind. -/
def methodNames (casing : Casing) (m : MethodDescriptorProto) : List String :=
  [casing.toSnakeCase (m.name.getD ""), casing.toSnakeCase (m.name.getD "") ++ "_with_options"]

/-- **The methods of a service** that are not refused. -/
theorem checkMethodCollisions_ok {casing : Casing} {serviceName : String}
    {seen : List (String × String)} {ms : List MethodDescriptorProto}
    (h : checkMethodCollisions casing serviceName seen ms = .ok ()) :
    (ms.flatMap (methodNames casing)).Nodup ∧
      ∀ name ∈ ms.flatMap (methodNames casing), name ∉ seen.map Prod.fst := by
  induction ms generalizing seen with
  | nil => exact ⟨List.nodup_nil, fun name hname => absurd hname List.not_mem_nil⟩
  | cons m ms ih =>
    rw [checkMethodCollisions] at h
    split at h
    · cases h
    · next hfree =>
      obtain ⟨hnodup, hseen⟩ := ih h
      have hnew : ∀ name ∈ methodNames casing m, name ∉ seen.map Prod.fst := by
        intro name hname
        have hnone := List.findSome?_eq_none_iff.mp hfree name hname
        rw [Option.map_eq_none_iff] at hnone
        exact lookup_eq_none.mp hnone
      have hpair : (methodNames casing m).Nodup := by
        rw [methodNames, List.nodup_cons, List.mem_singleton]
        refine ⟨fun heq => ?_, List.nodup_singleton _⟩
        have hlength := congrArg String.length heq
        rw [String.length_append] at hlength
        have : "_with_options".length = 13 := rfl
        omega
      have hlater : ∀ name ∈ ms.flatMap (methodNames casing),
          name ∉ methodNames casing m ∧ name ∉ seen.map Prod.fst := by
        intro name hname
        have hno := hseen name hname
        rw [List.map_append, List.mem_append, not_or] at hno
        exact ⟨hno.1, hno.2⟩
      rw [List.flatMap_cons]
      refine ⟨?_, ?_⟩
      · rw [List.nodup_append]
        refine ⟨hpair, hnodup, ?_⟩
        rintro name hname _ hlate rfl
        exact (hlater name hlate).1 hname
      · intro name hname
        rcases List.mem_append.mp hname with hname | hname
        · exact hnew name hname
        · exact (hlater name hname).2

/-! ## Services -/

section

variable {casing : Casing} {resolver : TypeResolver}

/-- What is declared for a service. -/
structure Declares (casing : Casing) (service : ServiceDescriptorProto) (s : ServiceItems) : Prop where
  /-- the types -/
  types : s.types = (ServiceIdents.new casing (service.name.getD "")).types
  /-- the name -/
  const : s.serviceNameConst = (ServiceIdents.new casing (service.name.getD "")).serviceNameConst
  /-- the methods -/
  specs : s.specConsts =
    service.method.map fun m => methodSpecConstIdent casing service (m.name.getD "")
  /-- which have no name in common -/
  methods : (service.method.flatMap (methodNames casing)).Nodup
  /-- the functions of the trait -/
  traitMethods : s.traitMethods.map Fn.name =
    service.method.map fun m => casing.makeFieldIdent (casing.toSnakeCase (m.name.getD ""))
  /-- those of the client -/
  clientMethods : s.clientMethods.map Fn.name = reserved ++ service.method.flatMap fun m =>
    [casing.makeFieldIdent (casing.toSnakeCase (m.name.getD "")),
      casing.toSnakeCase (m.name.getD "") ++ "_with_options"]

theorem generateTraitMethod_ok {package : String} {m : MethodDescriptorProto} {f : Fn}
    (h : generateTraitMethod casing resolver package m = .ok f) :
    f.name = casing.makeFieldIdent (casing.toSnakeCase (m.name.getD "")) := by
  obtain ⟨output, -, h⟩ := exists_of_bind_ok h
  obtain ⟨input, -, h⟩ := exists_of_bind_ok h
  cases h
  rfl

theorem generateClientMethod_ok {package : String} {m : MethodDescriptorProto} {fs : List Fn}
    (h : generateClientMethod casing resolver package m = .ok fs) :
    fs.map Fn.name = [casing.makeFieldIdent (casing.toSnakeCase (m.name.getD "")),
      casing.toSnakeCase (m.name.getD "") ++ "_with_options"] := by
  obtain ⟨input, -, h⟩ := exists_of_bind_ok h
  obtain ⟨outputView, -, h⟩ := exists_of_bind_ok h
  cases h
  rfl

theorem map_of_mapM_ok {α β γ ε : Type} {f : α → Except ε β} {g : β → γ} {k : α → γ}
    (hf : ∀ a b, f a = .ok b → g b = k a) {as : List α} {bs : List β} (h : as.mapM f = .ok bs) :
    bs.map g = as.map k := by
  have hall := forall₂_of_mapM_ok h
  clear h
  induction hall with
  | nil => rfl
  | cons hab _ ih => rw [List.map_cons, List.map_cons, hf _ _ hab, ih]

/-- The checks of a module, for a service. -/
theorem checkModuleCollisions_ok {file : FileDescriptorProto} {fullServiceName : String}
    {service : ServiceDescriptorProto} {idents : ServiceIdents} {b b' : BatchState}
    (h : checkModuleCollisions casing file fullServiceName service idents b = .ok b') :
    b' = { b with moduleIdents :=
        b.moduleIdents ++ moduleItems casing file fullServiceName service idents } ∧
      ((b.moduleIdents.map Prod.fst).Nodup → (b'.moduleIdents.map Prod.fst).Nodup) ∧
      ∀ ident ∈ idents.types, b.rootTypes.lookup (file.packageName, ident) = none := by
  rw [checkModuleCollisions] at h
  split at h
  · cases h
  · next hfree =>
    split at h
    · split at h
      · cases h
      · cases h
    · next taken hclaim =>
      obtain ⟨htaken, hnodup⟩ := claim_ok hclaim
      cases h
      refine ⟨by rw [htaken], hnodup, fun ident hident => ?_⟩
      have hnone := List.findSome?_eq_none_iff.mp hfree ident hident
      rwa [Option.map_eq_none_iff] at hnone

/-- What the services of a file do. -/
structure ServicesRun (casing : Casing) (package : String) (services : List ServiceDescriptorProto)
    (b : BatchState) (out : List ServiceItems) (new : IdentsByPackage) : Prop where
  /-- what they declare is taken -/
  taken : new.map Prod.fst = out.flatMap fun s => s.idents.map (package, ·)
  /-- nothing is taken twice -/
  nodup : (b.moduleIdents.map Prod.fst).Nodup → ((b.moduleIdents ++ new).map Prod.fst).Nodup
  /-- nor what a message is called -/
  free : ∀ s ∈ out, ∀ ident ∈ s.types, b.rootTypes.lookup (package, ident) = none
  /-- what is declared -/
  declares : List.Forall₂ (Declares casing) services out

theorem generateService_run {file : FileDescriptorProto} {service : ServiceDescriptorProto}
    {b b' : BatchState} {out : List ServiceItems}
    (h : generateService casing resolver file service b = .ok (out, b')) :
    ∃ new, b' = { b with moduleIdents := b.moduleIdents ++ new } ∧
      ServicesRun casing file.packageName [service] b out new := by
  obtain ⟨⟨⟩, hmethods, h⟩ := exists_of_bind_ok h
  obtain ⟨batch, hmodule, h⟩ := exists_of_bind_ok h
  obtain ⟨traitMethods, htrait, h⟩ := exists_of_bind_ok h
  obtain ⟨clientMethods, hclient, h⟩ := exists_of_bind_ok h
  obtain ⟨serverCalls, -, h⟩ := exists_of_bind_ok h
  obtain ⟨hbatch, hnodup, hfree⟩ := checkModuleCollisions_ok hmodule
  cases h
  refine ⟨_, hbatch, ?_, ?_, ?_, ?_⟩
  · simp [moduleItems, ServiceIdents.iter, ServiceIdents.types, ServiceItems.idents,
      ServiceItems.types, Function.comp_def]
  · rwa [hbatch] at hnodup
  · intro s hs ident hident
    rw [List.mem_singleton.mp hs] at hident
    exact hfree ident hident
  · refine .cons ⟨rfl, rfl, rfl, (checkMethodCollisions_ok hmethods).1, ?_, ?_⟩ .nil
    · exact map_of_mapM_ok (fun _ _ => generateTraitMethod_ok) htrait
    · have hnames := map_of_mapM_ok (fun _ _ => generateClientMethod_ok) hclient
      dsimp only
      rw [List.map_append, List.map_flatten, hnames, List.flatMap_def]
      rfl

theorem generateServices_run {file : FileDescriptorProto} {services : List ServiceDescriptorProto}
    {b b' : BatchState} {out : List ServiceItems}
    (h : emitAll (generateService casing resolver file) services b = .ok (out, b')) :
    ∃ new, b' = { b with moduleIdents := b.moduleIdents ++ new } ∧
      ServicesRun casing file.packageName services b out new := by
  refine emitAll_rule (fun services b out b' => ∃ new,
    b' = { b with moduleIdents := b.moduleIdents ++ new } ∧
      ServicesRun casing file.packageName services b out new) ?_ ?_ ?_ h
  · intro b
    exact ⟨[], by rw [List.append_nil], rfl, by rw [List.append_nil]; exact id,
      fun s hs => absurd hs List.not_mem_nil, .nil⟩
  · rintro service services b _ _ out out' ⟨new, rfl, hrun⟩ ⟨new', rfl, hrun'⟩
    refine ⟨new ++ new', by rw [List.append_assoc], ?_, ?_, ?_, ?_⟩
    · rw [List.map_append, hrun.taken, hrun'.taken, List.flatMap_append]
    · rw [← List.append_assoc]
      exact fun hb => hrun'.nodup (hrun.nodup hb)
    · intro s hs
      rcases List.mem_append.mp hs with hs | hs
      · exact hrun.free s hs
      · exact hrun'.free s hs
    · exact List.rel_append hrun.declares hrun'.declares
  · intro service _ b out b' hstep
    exact generateService_run hstep

/-! ## Aliases and implementations -/

/-- What the aliases of a file do. -/
structure AliasesRun (casing : Casing) (package : String) (fqns : List String) (b : BatchState)
    (out : List OwnedViewAlias) : Prop where
  /-- no message has two -/
  nodup : b.aliasSeen.Nodup → (b.aliasSeen ++ out.map fun a => (package, a.fqn)).Nodup
  /-- they are for the types of methods, and nothing else has their name -/
  aliases : ∀ a ∈ out, a.name = ownedViewAliasIdent casing a.fqn ∧ a.fqn ∈ fqns ∧
    aliasCollides casing b package a.fqn = false

theorem generateOwnedViewAliases_run {file : FileDescriptorProto} {b b' : BatchState}
    {out : List OwnedViewAlias}
    (h : generateOwnedViewAliases casing resolver file b = .ok (out, b')) :
    b' = { b with aliasSeen := b.aliasSeen ++ out.map fun a => (file.packageName, a.fqn) } ∧
      AliasesRun casing file.packageName (file.service.flatMap ServiceDescriptorProto.types) b
        out := by
  refine emitAll_rule (fun fqns b out b' =>
    b' = { b with aliasSeen := b.aliasSeen ++ out.map fun a => (file.packageName, a.fqn) } ∧
      AliasesRun casing file.packageName fqns b out) ?_ ?_ ?_ h
  · intro b
    exact ⟨by rw [List.map_nil, List.append_nil], by rw [List.map_nil, List.append_nil]; exact id,
      fun a ha => absurd ha List.not_mem_nil⟩
  · rintro fqn fqns b _ _ out out' ⟨rfl, hrun⟩ ⟨rfl, hrun'⟩
    refine ⟨by rw [List.map_append, List.append_assoc], ?_, ?_⟩
    · rw [List.map_append, ← List.append_assoc]
      exact fun hb => hrun'.nodup (hrun.nodup hb)
    · intro a ha
      rcases List.mem_append.mp ha with ha | ha
      · obtain ⟨hname, hmem, hfree⟩ := hrun.aliases a ha
        rw [List.mem_singleton] at hmem
        exact ⟨hname, hmem ▸ List.mem_cons_self, hfree⟩
      · obtain ⟨hname, hmem, hfree⟩ := hrun'.aliases a ha
        exact ⟨hname, List.mem_cons_of_mem fqn hmem, hfree⟩
  · intro fqn _ b out b' hstep
    have hskip : ∀ {out b'}, (Except.ok ([], b) : Except Error _) = .ok (out, b') →
        b' = { b with aliasSeen := b.aliasSeen ++ out.map fun a => (file.packageName, a.fqn) } ∧
          AliasesRun casing file.packageName [fqn] b out := by
      intro out b' hskip
      cases hskip
      exact ⟨by rw [List.map_nil, List.append_nil],
        by rw [List.map_nil, List.append_nil]; exact id, fun a ha => absurd ha List.not_mem_nil⟩
    rw [generateOwnedViewAlias] at hstep
    split at hstep
    · exact hskip hstep
    · next hfree =>
      split at hstep
      · exact hskip hstep
      · next hseen =>
        obtain ⟨view, -, hstep⟩ := exists_of_bind_ok hstep
        cases hstep
        refine ⟨rfl, fun hb => ?_, fun a ha => ?_⟩
        · rw [List.map_singleton, List.nodup_append]
          refine ⟨hb, List.nodup_singleton _, ?_⟩
          intro key hkey key' hkey'
          rw [List.mem_singleton.mp hkey']
          rintro rfl
          exact hseen (List.contains_iff_mem.mpr hkey)
        · rw [List.mem_singleton.mp ha]
          exact ⟨rfl, List.mem_singleton_self _, Bool.eq_false_iff.mpr hfree⟩

/-- What implementations of `Encodable` do. -/
theorem encodableImpls_run {package : String} {fqns : List String} {b b' : BatchState}
    {out : List EncodableImpls}
    (h : emitAll (encodableImplPair resolver package) fqns b = .ok (out, b')) :
    ∃ new, b' = { b with encodableSeen := b.encodableSeen ++ new } ∧
      (out.map EncodableImpls.fqn).Sublist new ∧
      (b.encodableSeen.Nodup → (b.encodableSeen ++ new).Nodup) := by
  refine emitAll_rule (fun _ b out b' => ∃ new,
    b' = { b with encodableSeen := b.encodableSeen ++ new } ∧
      (out.map EncodableImpls.fqn).Sublist new ∧
      (b.encodableSeen.Nodup → (b.encodableSeen ++ new).Nodup)) ?_ ?_ ?_ h
  · intro b
    exact ⟨[], by rw [List.append_nil], .slnil, by rw [List.append_nil]; exact id⟩
  · rintro fqn fqns b _ _ out out' ⟨new, rfl, hsub, hnodup⟩ ⟨new', rfl, hsub', hnodup'⟩
    refine ⟨new ++ new', by rw [List.append_assoc], ?_, ?_⟩
    · rw [List.map_append]
      exact hsub.append hsub'
    · rw [← List.append_assoc]
      exact fun hb => hnodup' (hnodup hb)
  · intro fqn _ b out b' hstep
    rw [encodableImplPair] at hstep
    split at hstep
    · cases hstep
      exact ⟨[], by rw [List.append_nil], .slnil, by rw [List.append_nil]; exact id⟩
    · next hseen =>
      have hnew : b.encodableSeen.Nodup → (b.encodableSeen ++ [fqn]).Nodup := by
        intro hb
        rw [List.nodup_append]
        refine ⟨hb, List.nodup_singleton _, ?_⟩
        intro key hkey key' hkey'
        rw [List.mem_singleton.mp hkey']
        rintro rfl
        exact hseen (List.contains_iff_mem.mpr hkey)
      obtain ⟨path, -, hstep⟩ := exists_of_bind_ok hstep
      split at hstep
      · cases hstep
        exact ⟨[fqn], rfl, List.nil_sublist _, hnew⟩
      · obtain ⟨owned, -, hstep⟩ := exists_of_bind_ok hstep
        obtain ⟨view, -, hstep⟩ := exists_of_bind_ok hstep
        cases hstep
        exact ⟨[fqn], rfl, List.Sublist.refl _, hnew⟩

end

/-! ## The batch -/

/-- The messages that a file has aliases for. -/
def Companion.aliasKeys (c : Companion) : List (String × String) :=
  c.aliases.map fun a => (c.package, a.fqn)

/-- What its services take. -/
def Companion.identKeys (c : Companion) : List (String × String) :=
  c.services.flatMap fun s => s.idents.map (c.package, ·)

/-- Its services. -/
def Companion.declared (c : Companion) : List (String × ServiceItems) :=
  c.services.map (c.package, ·)

theorem aliasCollides_congr {casing : Casing} {b b' : BatchState}
    (hcolliding : b'.collidingAliases = b.collidingAliases) (hroot : b'.rootTypes = b.rootTypes)
    (package fqn : String) :
    aliasCollides casing b' package fqn = aliasCollides casing b package fqn := by
  rw [aliasCollides, aliasCollides, hcolliding, hroot]

/-- **What a run does**: what it declares is what the state has taken. -/
structure Emitted (casing : Casing) (files : List FileDescriptorProto) (b : BatchState)
    (cs : List Companion) (b' : BatchState) : Prop where
  /-- what is known from before is kept -/
  colliding : b'.collidingAliases = b.collidingAliases
  /-- that, too -/
  rootTypes : b'.rootTypes = b.rootTypes
  /-- the aliases -/
  aliasSeen : b'.aliasSeen = b.aliasSeen ++ cs.flatMap Companion.aliasKeys
  /-- none of them twice -/
  aliasSeen_nodup : b.aliasSeen.Nodup → b'.aliasSeen.Nodup
  /-- the services -/
  moduleIdents :
    b'.moduleIdents.map Prod.fst = b.moduleIdents.map Prod.fst ++ cs.flatMap Companion.identKeys
  /-- none of them twice -/
  moduleIdents_nodup : (b.moduleIdents.map Prod.fst).Nodup → (b'.moduleIdents.map Prod.fst).Nodup
  /-- the implementations of `Encodable` -/
  encodableSeen : ∃ new, b'.encodableSeen = b.encodableSeen ++ new ∧
    ((cs.flatMap Companion.impls).map EncodableImpls.fqn).Sublist new
  /-- none of them twice -/
  encodableSeen_nodup : b.encodableSeen.Nodup → b'.encodableSeen.Nodup
  /-- an alias is for the type of a method, and nothing else has its name -/
  aliases : ∀ c ∈ cs, ∀ a ∈ c.aliases, a.name = ownedViewAliasIdent casing a.fqn ∧
    aliasCollides casing b c.package a.fqn = false ∧
    ∃ f ∈ files, f.packageName = c.package ∧ a.fqn ∈ f.service.flatMap ServiceDescriptorProto.types
  /-- nor has a message the name of a service's type -/
  free : ∀ c ∈ cs, ∀ s ∈ c.services, ∀ ident ∈ s.types,
    b.rootTypes.lookup (c.package, ident) = none
  /-- every service is declared -/
  declares : List.Forall₂ (fun p q => p.1 = q.1 ∧ Declares casing p.2 q.2)
    (files.flatMap fun f => f.service.map (f.packageName, ·)) (cs.flatMap Companion.declared)

theorem Emitted.refl {casing : Casing} {files : List FileDescriptorProto} (b : BatchState)
    (h : ∀ f ∈ files, f.service = []) : Emitted casing files b [] b where
  colliding := rfl
  rootTypes := rfl
  aliasSeen := (List.append_nil _).symm
  aliasSeen_nodup := id
  moduleIdents := (List.append_nil _).symm
  moduleIdents_nodup := id
  encodableSeen := ⟨[], (List.append_nil _).symm, .slnil⟩
  encodableSeen_nodup := id
  aliases c hc := absurd hc List.not_mem_nil
  free c hc := absurd hc List.not_mem_nil
  declares := by
    have hnil : (files.flatMap fun f => f.service.map (f.packageName, ·)) = [] := by
      rw [List.flatMap_eq_nil_iff]
      intro f hf
      rw [h f hf]
      rfl
    rw [hnil]
    exact .nil

theorem Emitted.append {casing : Casing} {files files' : List FileDescriptorProto}
    {b b' b'' : BatchState} {cs cs' : List Companion} (h : Emitted casing files b cs b')
    (h' : Emitted casing files' b' cs' b'') :
    Emitted casing (files ++ files') b (cs ++ cs') b'' where
  colliding := h'.colliding.trans h.colliding
  rootTypes := h'.rootTypes.trans h.rootTypes
  aliasSeen := by rw [h'.aliasSeen, h.aliasSeen, List.flatMap_append, List.append_assoc]
  aliasSeen_nodup hb := h'.aliasSeen_nodup (h.aliasSeen_nodup hb)
  moduleIdents := by rw [h'.moduleIdents, h.moduleIdents, List.flatMap_append, List.append_assoc]
  moduleIdents_nodup hb := h'.moduleIdents_nodup (h.moduleIdents_nodup hb)
  encodableSeen := by
    obtain ⟨new, hnew, hsub⟩ := h.encodableSeen
    obtain ⟨new', hnew', hsub'⟩ := h'.encodableSeen
    refine ⟨new ++ new', by rw [hnew', hnew, List.append_assoc], ?_⟩
    rw [List.flatMap_append, List.map_append]
    exact hsub.append hsub'
  encodableSeen_nodup hb := h'.encodableSeen_nodup (h.encodableSeen_nodup hb)
  aliases c hc a ha := by
    rcases List.mem_append.mp hc with hc | hc
    · obtain ⟨hname, hfree, f, hf, hpackage, hmem⟩ := h.aliases c hc a ha
      exact ⟨hname, hfree, f, List.mem_append_left _ hf, hpackage, hmem⟩
    · obtain ⟨hname, hfree, f, hf, hpackage, hmem⟩ := h'.aliases c hc a ha
      rw [aliasCollides_congr h.colliding h.rootTypes] at hfree
      exact ⟨hname, hfree, f, List.mem_append_right _ hf, hpackage, hmem⟩
  free c hc s hs ident hident := by
    rcases List.mem_append.mp hc with hc | hc
    · exact h.free c hc s hs ident hident
    · rw [← h.rootTypes]
      exact h'.free c hc s hs ident hident
  declares := by
    rw [List.flatMap_append, List.flatMap_append]
    exact List.rel_append h.declares h'.declares

section

variable {casing : Casing} {resolver : TypeResolver}

theorem generateConnectServices_emitted {file : FileDescriptorProto} {b b' : BatchState}
    {c : Companion} (h : generateConnectServices casing resolver file b = .ok (c, b')) :
    Emitted casing [file] b [c] b' := by
  obtain ⟨⟨aliases, b₁⟩, haliases, h⟩ := exists_of_bind_ok h
  obtain ⟨⟨outputs, b₂⟩, houtputs, h⟩ := exists_of_bind_ok h
  obtain ⟨⟨messages, b₃⟩, hmessages, h⟩ := exists_of_bind_ok h
  obtain ⟨⟨services, b₄⟩, hservices, h⟩ := exists_of_bind_ok h
  obtain ⟨rfl, halias⟩ := generateOwnedViewAliases_run haliases
  obtain ⟨new, rfl, hsub, hnodup⟩ := encodableImpls_run houtputs
  have hmore : ∃ new', b₃ = { b with
      aliasSeen := b.aliasSeen ++ aliases.map fun a => (file.packageName, a.fqn)
      encodableSeen := b.encodableSeen ++ new ++ new' } ∧
      (messages.map EncodableImpls.fqn).Sublist new' ∧
      ((b.encodableSeen ++ new).Nodup → (b.encodableSeen ++ new ++ new').Nodup) := by
    dsimp only at hmessages
    split at hmessages
    · obtain ⟨new', hb₃, hsub', hnodup'⟩ := encodableImpls_run hmessages
      exact ⟨new', hb₃, hsub', hnodup'⟩
    · cases hmessages
      exact ⟨[], by rw [List.append_nil], .slnil, by rw [List.append_nil]; exact id⟩
  obtain ⟨new', rfl, hsub', hnodup'⟩ := hmore
  obtain ⟨taken, rfl, hservice⟩ := generateServices_run hservices
  cases h
  exact {
    colliding := rfl
    rootTypes := rfl
    aliasSeen := by rw [List.flatMap_singleton, Companion.aliasKeys]
    aliasSeen_nodup := halias.nodup
    moduleIdents := by
      rw [List.map_append, hservice.taken, List.flatMap_singleton, Companion.identKeys]
    moduleIdents_nodup := hservice.nodup
    encodableSeen := by
      refine ⟨new ++ new', List.append_assoc _ _ _, ?_⟩
      rw [List.flatMap_singleton, List.map_append]
      exact hsub.append hsub'
    encodableSeen_nodup := fun hb => hnodup' (hnodup hb)
    aliases := by
      intro c hc a ha
      rw [List.mem_singleton.mp hc] at ha ⊢
      obtain ⟨hname, hmem, hfree⟩ := halias.aliases a ha
      exact ⟨hname, hfree, file, List.mem_singleton_self _, rfl, hmem⟩
    free := by
      intro c hc s hs ident hident
      rw [List.mem_singleton.mp hc] at hs ⊢
      exact hservice.free s hs ident hident
    declares := by
      rw [List.flatMap_singleton, List.flatMap_singleton, Companion.declared,
        List.forall₂_map_left_iff, List.forall₂_map_right_iff]
      exact hservice.declares.imp fun _ _ hd => ⟨rfl, hd⟩ }

/-- A companion that is empty is left out. -/
theorem Emitted.of_empty {files : List FileDescriptorProto} {b b' : BatchState} {c : Companion}
    (h : Emitted casing files b [c] b') (haliases : c.aliases = []) (himpls : c.impls = [])
    (hservices : c.services = []) : Emitted casing files b [] b' where
  colliding := h.colliding
  rootTypes := h.rootTypes
  aliasSeen := by simpa [Companion.aliasKeys, haliases] using h.aliasSeen
  aliasSeen_nodup := h.aliasSeen_nodup
  moduleIdents := by simpa [Companion.identKeys, hservices] using h.moduleIdents
  moduleIdents_nodup := h.moduleIdents_nodup
  encodableSeen := by simpa [himpls] using h.encodableSeen
  encodableSeen_nodup := h.encodableSeen_nodup
  aliases c hc := absurd hc List.not_mem_nil
  free c hc := absurd hc List.not_mem_nil
  declares := by simpa [Companion.declared, hservices] using h.declares

theorem emitServiceFile_emitted {file : FileDescriptorProto} {b b' : BatchState}
    {cs : List Companion} (h : emitServiceFile casing resolver file b = .ok (cs, b')) :
    Emitted casing [file] b cs b' := by
  rw [emitServiceFile] at h
  split at h
  · obtain ⟨⟨c, batch⟩, hc, h⟩ := exists_of_bind_ok h
    have hemitted := generateConnectServices_emitted hc
    dsimp only at h
    split at h
    · next hempty =>
      cases h
      exact hemitted.of_empty hempty.1 hempty.2.1 hempty.2.2
    · cases h
      exact hemitted
  · next hnothing =>
    cases h
    rw [not_or, not_not] at hnothing
    refine .refl _ fun f hf => ?_
    rw [List.mem_singleton.mp hf]
    exact hnothing.1

/-- **A batch** that is generated. -/
theorem emitServiceFiles_emitted {options : Options} {protoFile : List FileDescriptorProto}
    {fileToGenerate : List String} {cs : List Companion}
    (h : emitServiceFiles casing resolver options protoFile fileToGenerate = .ok cs) :
    ∃ b', Emitted casing (generatedFiles protoFile fileToGenerate)
      (initialBatch casing resolver options protoFile fileToGenerate) cs b' := by
  obtain ⟨⟨cs, b'⟩, hrun, rfl⟩ := exists_of_map_ok h
  refine ⟨b', emitAll_rule (Emitted casing) ?_ ?_ ?_ hrun⟩
  · exact fun b => .refl b fun f hf => absurd hf List.not_mem_nil
  · exact fun f fs b b' b'' cs cs' hfirst hlater => hfirst.append hlater
  · exact fun f _ b cs b' hstep => emitServiceFile_emitted hstep

end

/-! ## Aliases that are left out -/

section

variable {casing : Casing}

/-- A state of `collect_alias_collisions` that knows as much, and maybe more. -/
def AliasCollisions.Le (s s' : AliasCollisions) : Prop :=
  (∀ key fqn, s.firstSeen.lookup key = some fqn → s'.firstSeen.lookup key = some fqn) ∧
    ∀ key ∈ s.colliding, key ∈ s'.colliding

theorem AliasCollisions.Le.refl (s : AliasCollisions) : s.Le s :=
  ⟨fun _ _ h => h, fun _ h => h⟩

theorem AliasCollisions.Le.trans {s s' s'' : AliasCollisions} (h : s.Le s') (h' : s'.Le s'') :
    s.Le s'' :=
  ⟨fun key fqn hk => h'.1 key fqn (h.1 key fqn hk), fun key hk => h'.2 key (h.2 key hk)⟩

/-- A type of a method that it has come to: it has the alias first, or the alias is left out. -/
def AliasCollisions.Collected (casing : Casing) (package fqn : String) (s : AliasCollisions) :
    Prop :=
  ∃ first, s.firstSeen.lookup (package, ownedViewAliasIdent casing fqn) = some first ∧
    (first = fqn ∨ (package, ownedViewAliasIdent casing fqn) ∈ s.colliding)

theorem AliasCollisions.Collected.mono {package fqn : String} {s s' : AliasCollisions}
    (hle : s.Le s') (h : s.Collected casing package fqn) : s'.Collected casing package fqn := by
  obtain ⟨first, hfirst, hor⟩ := h
  exact ⟨first, hle.1 _ _ hfirst, hor.imp_right (hle.2 _)⟩

theorem AliasCollisions.le_collect (package : String) (s : AliasCollisions) (fqn : String) :
    s.Le (s.collect casing package fqn) := by
  rw [AliasCollisions.collect]
  split
  · split
    · exact ⟨fun _ _ h => h, fun _ h => List.mem_cons_of_mem _ h⟩
    · exact .refl s
  · next hnone =>
    refine ⟨fun key first h => ?_, fun _ h => h⟩
    rw [List.lookup_cons]
    split
    · next hkey =>
      rw [eq_of_beq hkey, hnone] at h
      cases h
    · exact h

theorem AliasCollisions.collected_collect (package : String) (s : AliasCollisions) (fqn : String) :
    (s.collect casing package fqn).Collected casing package fqn := by
  rw [AliasCollisions.collect]
  split
  · next prev hprev =>
    split
    · exact ⟨prev, hprev, .inr List.mem_cons_self⟩
    · next heq => exact ⟨prev, hprev, .inl (not_not.mp heq)⟩
  · exact ⟨fqn, List.lookup_cons_self, .inl rfl⟩

/-- A service that it has come to. -/
def AliasCollisions.CollectedService (casing : Casing) (service : String × ServiceDescriptorProto)
    (s : AliasCollisions) : Prop :=
  (∀ fqn ∈ service.2.types, s.Collected casing service.1 fqn) ∧
    ∀ ident ∈ (ServiceIdents.new casing (service.2.name.getD "")).types,
      (service.1, ident) ∈ s.colliding

theorem AliasCollisions.collectService_adds (s : AliasCollisions)
    (service : String × ServiceDescriptorProto) :
    s.Le (s.collectService casing service) ∧
      (s.collectService casing service).CollectedService casing service := by
  have hfirst : ∀ types : List (String × String), s.Le ⟨s.firstSeen, types ++ s.colliding⟩ :=
    fun types => ⟨fun _ _ h => h, fun _ h => List.mem_append_right _ h⟩
  have hfold := foldl_adds (P := fun fqn s => s.Collected casing service.1 fqn)
    AliasCollisions.Le.refl (fun _ _ _ => AliasCollisions.Le.trans)
    (AliasCollisions.le_collect service.1) (fun _ _ _ hle h => h.mono hle)
    (AliasCollisions.collected_collect service.1) service.2.types
  refine ⟨(hfirst _).trans (hfold _).1, (hfold _).2, fun ident hident => ?_⟩
  exact (hfold _).1.2 _ (List.mem_append_left _ (List.mem_map.mpr ⟨ident, hident, rfl⟩))

/-- All of the services are looked at. -/
theorem collected (casing : Casing) (services : List (String × ServiceDescriptorProto)) :
    ∀ service ∈ services,
      (services.foldl (AliasCollisions.collectService casing) ⟨[], []⟩).CollectedService casing
        service :=
  (foldl_adds AliasCollisions.Le.refl (fun _ _ _ => AliasCollisions.Le.trans)
    (fun s service => (AliasCollisions.collectService_adds s service).1)
    (fun _ _ _ hle h => ⟨fun fqn hfqn => (h.1 fqn hfqn).mono hle,
      fun ident hident => hle.2 _ (h.2 ident hident)⟩)
    (fun s service => (AliasCollisions.collectService_adds s service).2) services ⟨[], []⟩).2

variable {protoFile : List FileDescriptorProto} {fileToGenerate : List String}

/-- An alias that a service's type has the name of is left out. -/
theorem mem_collectAliasCollisions_of_type {package : String} {service : ServiceDescriptorProto}
    (h : (package, service) ∈ generatedServices protoFile fileToGenerate) {ident : String}
    (hident : ident ∈ (ServiceIdents.new casing (service.name.getD "")).types) :
    (package, ident) ∈ collectAliasCollisions casing protoFile fileToGenerate :=
  (collected casing _ _ h).2 ident hident

/-- And so is one that two messages have. -/
theorem mem_collectAliasCollisions_of_ne {package f g : String}
    {service service' : ServiceDescriptorProto}
    (h : (package, service) ∈ generatedServices protoFile fileToGenerate)
    (h' : (package, service') ∈ generatedServices protoFile fileToGenerate)
    (hf : f ∈ service.types) (hg : g ∈ service'.types) (hne : f ≠ g)
    (heq : ownedViewAliasIdent casing f = ownedViewAliasIdent casing g) :
    (package, ownedViewAliasIdent casing f) ∈
      collectAliasCollisions casing protoFile fileToGenerate := by
  obtain ⟨first, hfirst, hor⟩ := (collected casing _ _ h).1 f hf
  obtain ⟨first', hfirst', hor'⟩ := (collected casing _ _ h').1 g hg
  rw [← heq, hfirst] at hfirst'
  rcases hor with rfl | hmem
  · rcases hor' with rfl | hmem
    · exact absurd (Option.some.inj hfirst') hne
    · rwa [← heq] at hmem
  · exact hmem

end

/-! ## The law -/

section

variable {casing : Casing} {service : ServiceDescriptorProto} {s : ServiceItems}

theorem Declares.clean (hc : casing.Lawful) {name : String}
    (h : name ∈ service.method.flatMap (methodNames casing)) : Clean name := by
  obtain ⟨m, _, hname⟩ := List.mem_flatMap.mp h
  rcases List.mem_pair.mp hname with rfl | rfl
  · exact clean_snake hc _
  · exact clean_with_options hc _

/-- **A trait** declares no function twice. -/
theorem Declares.traits_nodup (hc : casing.Lawful) (h : Declares casing service s) :
    (s.traitMethods.map fun f => unraw f.name).Nodup := by
  have hnames : (s.traitMethods.map fun f => unraw f.name) =
      (service.method.map fun m => casing.toSnakeCase (m.name.getD "")).map
        fun name => unraw (casing.makeFieldIdent name) := by
    have hmap := congrArg (List.map unraw) h.traitMethods
    rw [List.map_map, List.map_map] at hmap
    rw [List.map_map]
    exact hmap
  have hsub : (service.method.map fun m => casing.toSnakeCase (m.name.getD "")).Sublist
      (service.method.flatMap (methodNames casing)) := by
    rw [List.map_eq_flatMap]
    exact List.Sublist.flatMap_right _ fun m _ => by simp [methodNames]
  rw [hnames]
  refine (h.methods.sublist hsub).map_on fun x hx y hy hxy => ?_
  exact unraw_field_inj hc (Declares.clean hc (hsub.subset hx)) (Declares.clean hc (hsub.subset hy))
    hxy

/-- **A client** declares no function twice, unless a method is called like what it always has. -/
theorem Declares.clients_nodup_iff (hc : casing.Lawful) (h : Declares casing service s) :
    (s.clientMethods.map fun f => unraw f.name).Nodup ↔
      ∀ m ∈ service.method, casing.toSnakeCase (m.name.getD "") ∉ reserved := by
  have hnames : (s.clientMethods.map fun f => unraw f.name) =
      reserved ++ (service.method.flatMap (methodNames casing)).map
        fun name => unraw (casing.makeFieldIdent name) := by
    have hmap := congrArg (List.map unraw) h.clientMethods
    rw [List.map_map, List.map_append, List.map_flatMap] at hmap
    rw [List.map_flatMap]
    refine hmap.trans (congrArg₂ _ (by decide) ?_)
    refine List.flatMap_congr fun m _ => ?_
    rw [methodNames, List.map_cons, List.map_singleton, List.map_cons, List.map_singleton,
      unraw_field_with_options hc, unraw_of_hash (clean_with_options hc _).1]
  have hnodup : ((service.method.flatMap (methodNames casing)).map
      fun name => unraw (casing.makeFieldIdent name)).Nodup :=
    h.methods.map_on fun x hx y hy hxy =>
      unraw_field_inj hc (Declares.clean hc hx) (Declares.clean hc hy) hxy
  have hreserved : reserved.Nodup := by decide
  rw [hnames, List.nodup_append]
  constructor
  · rintro ⟨_, _, hapart⟩ m hm hmem
    have hclean := clean_snake hc (m.name.getD "")
    refine hapart _ ((unraw_field_reserved hc hclean).mpr hmem) _ ?_ rfl
    exact List.mem_map.mpr ⟨_, List.mem_flatMap.mpr ⟨m, hm, List.mem_cons_self⟩, rfl⟩
  · intro hall
    refine ⟨hreserved, hnodup, ?_⟩
    rintro x hx y hy rfl
    obtain ⟨name, hname, rfl⟩ := List.mem_map.mp hy
    rw [unraw_field_reserved hc (Declares.clean hc hname)] at hx
    obtain ⟨m, hm, hname⟩ := List.mem_flatMap.mp hname
    rcases List.mem_pair.mp hname with rfl | rfl
    · exact hall m hm hx
    · exact with_options_not_reserved _ hx

end

section

variable {casing : Casing} {resolver : TypeResolver} {options : Options}
  {protoFile : List FileDescriptorProto} {fileToGenerate : List String} {cs : List Companion}
  {b' : BatchState}

/-- What is not taken twice in a batch is not declared twice in a module. -/
theorem nodup_of_keys {F : Companion → List String} {keys : Companion → List (String × String)}
    (hkeys : ∀ c, keys c = (F c).map (c.package, ·)) (h : (cs.flatMap keys).Nodup)
    (package : String) : ((cs.filter fun c => c.package = package).flatMap F).Nodup := by
  have hsub := h.sublist
    (List.Sublist.flatMap (List.filter_sublist (p := fun c : Companion => c.package = package)) keys)
  have hmap : (cs.filter fun c => c.package = package).flatMap keys =
      ((cs.filter fun c => c.package = package).flatMap F).map (package, ·) := by
    rw [List.map_flatMap]
    refine List.flatMap_congr fun c hc => ?_
    have hpackage : c.package = package := by simpa using (List.mem_filter.mp hc).2
    rw [hkeys, hpackage]
  rw [hmap] at hsub
  exact hsub.of_map

/-- The services that are declared are those of the files. -/
theorem Emitted.exists_service {files : List FileDescriptorProto} {b : BatchState}
    (h : Emitted casing files b cs b') {c : Companion} (hc : c ∈ cs) {s : ServiceItems}
    (hs : s ∈ c.services) :
    ∃ service, (c.package, service) ∈ (files.flatMap fun f => f.service.map (f.packageName, ·)) ∧
      Declares casing service s := by
  have hmem : (c.package, s) ∈ cs.flatMap Companion.declared :=
    List.mem_flatMap.mpr ⟨c, hc, List.mem_map.mpr ⟨s, hs, rfl⟩⟩
  obtain ⟨⟨package, service⟩, hservice, hpackage, hdeclares⟩ :=
    exists_of_forall₂_right h.declares hmem
  dsimp only at hpackage
  exact ⟨service, hpackage ▸ hservice, hdeclares⟩

/-- An alias is for the type of a method of the package. -/
theorem Emitted.exists_alias {b : BatchState}
    (h : Emitted casing (generatedFiles protoFile fileToGenerate) b cs b') {c : Companion}
    (hc : c ∈ cs) {a : OwnedViewAlias} (ha : a ∈ c.aliases) :
    ∃ service, (c.package, service) ∈ generatedServices protoFile fileToGenerate ∧
      a.fqn ∈ service.types := by
  obtain ⟨-, -, f, hf, hpackage, hmem⟩ := h.aliases c hc a ha
  obtain ⟨service, hservice, hfqn⟩ := List.mem_flatMap.mp hmem
  refine ⟨service, List.mem_flatMap.mpr ⟨f, hf, List.mem_map.mpr ⟨service, hservice, ?_⟩⟩, hfqn⟩
  rw [hpackage]

theorem not_colliding {b : BatchState} {package fqn : String}
    (h : aliasCollides casing b package fqn = false) :
    b.rootTypes.lookup (package, ownedViewAliasIdent casing fqn) = none ∧
      (package, ownedViewAliasIdent casing fqn) ∉ b.collidingAliases := by
  rw [aliasCollides, Bool.or_eq_false_iff, Option.isSome_eq_false_iff, Option.isNone_iff_eq_none] at h
  exact ⟨h.1, fun hmem => absurd (List.contains_iff_mem.mpr hmem) (Bool.eq_false_iff.mp h.2)⟩

theorem getLast?_append_toList {s t : String} (h : t ≠ "") :
    (s ++ t).toList.getLast? = t.toList.getLast? := by
  rw [String.toList_append, List.getLast?_append]
  cases ht : t.toList.getLast? with
  | some c => rfl
  | none =>
    rw [List.getLast?_eq_none_iff, String.toList_eq_nil_iff] at ht
    exact absurd ht h

/-- A constant is not called like an alias. -/
theorem Declares.const_ne {service : ServiceDescriptorProto} {s : ServiceItems}
    (h : Declares casing service s) {ident : String}
    (hident : ident ∈ s.serviceNameConst :: s.specConsts) (fqn : String) :
    ident ≠ ownedViewAliasIdent casing fqn := by
  have hview : (ownedViewAliasIdent casing fqn).toList.getLast? = some 'w' := by
    rw [ownedViewAliasIdent, getLast?_append_toList (by decide)]
    rfl
  rintro rfl
  rcases List.mem_cons.mp hident with hident | hident
  · rw [h.const] at hident
    rw [hident, ServiceIdents.new, getLast?_append_toList (by decide)] at hview
    exact absurd hview (by decide)
  · rw [h.specs] at hident
    obtain ⟨m, _, hm⟩ := List.mem_map.mp hident
    rw [← hm, methodSpecConstIdent, getLast?_append_toList (by decide)] at hview
    exact absurd hview (by decide)

/-- **A module** declares nothing twice. -/
theorem Emitted.modules
    (h : Emitted casing (generatedFiles protoFile fileToGenerate)
      (initialBatch casing resolver options protoFile fileToGenerate) cs b') (package : String) :
    ((cs.filter fun c => c.package = package).flatMap Companion.idents).Nodup := by
  have hkeys := h.moduleIdents_nodup List.nodup_nil
  have haliases := h.aliasSeen_nodup List.nodup_nil
  rw [h.moduleIdents] at hkeys
  rw [h.aliasSeen] at haliases
  have hservices := nodup_of_keys (F := fun c => c.services.flatMap ServiceItems.idents)
    (fun c => by rw [Companion.identKeys, List.map_flatMap]) hkeys package
  have hfqns := nodup_of_keys (F := fun c => c.aliases.map OwnedViewAlias.fqn)
    (fun c => by rw [Companion.aliasKeys, List.map_map]; rfl) haliases package
  have hpackage : ∀ {c}, c ∈ cs.filter (fun c => c.package = package) →
      c ∈ cs ∧ c.package = package := by
    intro c hc
    simpa using hc
  have hnames : (cs.filter fun c => c.package = package).flatMap
      (fun c => c.aliases.map OwnedViewAlias.name) =
      ((cs.filter fun c => c.package = package).flatMap
        fun c => c.aliases.map OwnedViewAlias.fqn).map (ownedViewAliasIdent casing) := by
    rw [List.map_flatMap]
    refine List.flatMap_congr fun c hc => ?_
    rw [List.map_map]
    exact List.map_congr_left fun a ha => (h.aliases c (hpackage hc).1 a ha).1
  -- two messages with one alias are left out
  have haliasNames : ((cs.filter fun c => c.package = package).flatMap
      fun c => c.aliases.map OwnedViewAlias.name).Nodup := by
    rw [hnames]
    refine hfqns.map_on fun f hf g hg heq => ?_
    obtain ⟨c, hc, hf⟩ := List.mem_flatMap.mp hf
    obtain ⟨a, ha, rfl⟩ := List.mem_map.mp hf
    obtain ⟨c', hc', hg⟩ := List.mem_flatMap.mp hg
    obtain ⟨a', ha', rfl⟩ := List.mem_map.mp hg
    obtain ⟨service, hservice, hmem⟩ := h.exists_alias (hpackage hc).1 ha
    obtain ⟨service', hservice', hmem'⟩ := h.exists_alias (hpackage hc').1 ha'
    have hfree := (not_colliding (h.aliases c (hpackage hc).1 a ha).2.1).2
    rw [(hpackage hc).2] at hservice hfree
    rw [(hpackage hc').2] at hservice'
    by_contra hne
    exact hfree (mem_collectAliasCollisions_of_ne hservice hservice' hmem hmem' hne heq)
  refine (List.flatMap_append_perm _ _ _).nodup_iff.mp ?_
  rw [List.nodup_append]
  refine ⟨haliasNames, hservices, ?_⟩
  rintro ident hident _ hident' rfl
  obtain ⟨c, hc, hident⟩ := List.mem_flatMap.mp hident
  obtain ⟨a, ha, rfl⟩ := List.mem_map.mp hident
  obtain ⟨c', hc', hident'⟩ := List.mem_flatMap.mp hident'
  obtain ⟨s, hs, hident'⟩ := List.mem_flatMap.mp hident'
  obtain ⟨service, hservice, hdeclares⟩ := h.exists_service (hpackage hc').1 hs
  obtain ⟨hname, hfree, -⟩ := h.aliases c (hpackage hc).1 a ha
  rw [hname] at hident'
  rcases List.mem_append.mp hident' with hident' | hident'
  · -- a type of a service: the alias is left out
    rw [hdeclares.types] at hident'
    rw [(hpackage hc').2] at hservice
    rw [(hpackage hc).2] at hfree
    exact (not_colliding hfree).2 (mem_collectAliasCollisions_of_type hservice hident')
  · exact hdeclares.const_ne hident' a.fqn rfl

/-- **What is generated.** No identifier is declared twice, exactly when no method is called like
what a client always has. -/
theorem generated_unique_iff (hc : casing.Lawful)
    (h : emitServiceFiles casing resolver options protoFile fileToGenerate = .ok cs) :
    Unique (buffaRootTypes options resolver protoFile fileToGenerate) cs ↔
      ∀ service ∈ generatedServices protoFile fileToGenerate, ∀ m ∈ service.2.method,
        casing.toSnakeCase (m.name.getD "") ∉ ["new", "config", "config_mut"] := by
  obtain ⟨b', hemitted⟩ := emitServiceFiles_emitted h
  constructor
  · intro hunique service hservice m hm
    obtain ⟨⟨package, s⟩, hs, -, hdeclares⟩ := exists_of_forall₂_left hemitted.declares hservice
    obtain ⟨c, hmem, hs⟩ := List.mem_flatMap.mp hs
    obtain ⟨s, hs, hpair⟩ := List.mem_map.mp hs
    cases hpair
    exact (hdeclares.clients_nodup_iff hc).mp (hunique.clients c hmem s hs) m hm
  · intro hall
    refine ⟨fun c hmem s hs => ?_, fun c hmem s hs => ?_, hemitted.modules, ?_, ?_⟩
    · obtain ⟨service, -, hdeclares⟩ := hemitted.exists_service hmem hs
      exact hdeclares.traits_nodup hc
    · obtain ⟨service, hservice, hdeclares⟩ := hemitted.exists_service hmem hs
      exact (hdeclares.clients_nodup_iff hc).mpr (hall _ hservice)
    · intro c hmem ident hident
      rcases List.mem_append.mp hident with hident | hident
      · obtain ⟨a, ha, rfl⟩ := List.mem_map.mp hident
        obtain ⟨hname, hfree, -⟩ := hemitted.aliases c hmem a ha
        rw [hname]
        exact (not_colliding hfree).1
      · obtain ⟨s, hs, hident⟩ := List.mem_flatMap.mp hident
        exact hemitted.free c hmem s hs ident hident
    · obtain ⟨new, hnew, hsub⟩ := hemitted.encodableSeen
      have hnodup := hemitted.encodableSeen_nodup List.nodup_nil
      rw [hnew] at hnodup
      exact hnodup.sublist hsub

end

/-! ## A shop -/

/-- Some names in snake case. -/
def shopWords : List (String × String) := [("Store", "store"), ("Get", "get"), ("Config", "config")]

/-- Any of them. -/
def shopSnake (s : String) : String :=
  match shopWords.find? fun w => w.1 == s with
  | some w => w.2
  | none => ""

/-- Their case conversions. -/
def shopCasing : Casing where
  toSnakeCase := shopSnake
  toUpperCamelCase s := s
  toUppercase s := String.ofList (s.toList.map Char.toUpper)
  makeFieldIdent s := s

theorem clean_shopSnake (s : String) : Clean (shopSnake s) := by
  have hwords : shopWords.all fun w => !w.2.toList.contains '#' && w.2.toList.getLast? != some '_' := by
    decide
  unfold shopSnake
  split
  · next w hw =>
    have hw := List.all_eq_true.mp hwords w (List.mem_of_find?_eq_some hw)
    simpa [Clean] using hw
  · exact ⟨by decide, by decide⟩

theorem shopCasing_lawful : shopCasing.Lawful :=
  ⟨fun s => (clean_shopSnake s).1, fun s => (clean_shopSnake s).2, fun _ => .inl rfl⟩

/-- A message has a path. -/
def shopResolver : TypeResolver where
  ctx := {
    rustTypeRelative := fun fqn _ => if fqn = ".shop.Item" then some "Item" else none
    rustTypeRelativeSplit := fun fqn _ => if fqn = ".shop.Item" then some ("", "Item") else none }
  requireExtern := false

/-- A service with these methods. -/
def shopFile (methods : List String) : FileDescriptorProto where
  name := some "store.proto"
  package := some "shop"
  messageType := [⟨some "Item", [], false⟩]
  enumType := []
  service := [⟨some "Store", methods.map fun m => ⟨some m, some ".shop.Item", some ".shop.Item"⟩⟩]

/-- What is generated for it. -/
def shopCompanions (methods : List String) : Except Error (List Companion) :=
  emitServiceFiles shopCasing shopResolver ⟨"", false, false⟩ [shopFile methods] ["store.proto"]

theorem shop_unique : ∃ cs, shopCompanions ["Get"] = .ok cs ∧
    Unique (buffaRootTypes ⟨"", false, false⟩ shopResolver [shopFile ["Get"]] ["store.proto"]) cs :=
  ⟨_, rfl, (generated_unique_iff shopCasing_lawful rfl).mpr (by decide)⟩

/-- A method `Config` is generated beside the `config` that every client has. -/
theorem shop_config_twice : ∃ cs, shopCompanions ["Get", "Config"] = .ok cs ∧
    ¬ Unique (buffaRootTypes ⟨"", false, false⟩ shopResolver [shopFile ["Get", "Config"]]
      ["store.proto"]) cs := by
  refine ⟨_, rfl, fun h => ?_⟩
  have hclient := h.clients _ List.mem_cons_self _ List.mem_cons_self
  exact absurd hclient (by decide)

end ConnectRpc.Codegen
