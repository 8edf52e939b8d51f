import Scaffold.Proofs.Mapping.Registration
import Scaffold.Proofs.Naming.SnakeCase

/-!
# The methods of a type

A type has a method for each of its mappings, from the trait of the destination.  Traits are kept
apart by the names of the destinations, and their methods are named by the snake case of these.  So
the methods of a type have different names exactly where the names of its destinations, which always
differ, have different snake cases (`Generation.mapping_methods`).  These agree only in names that
differ in nothing but underscores and case, and in no two names in plain Pascal case.
`Generation.mapping_methods_clash` is a corpus in which two methods of a type have one name.
-/

namespace Scaffold

open Syntax

/-! ### Resolved mappings -/

/-- Whether the path of a type tells its name and its namespace, whoever asks. -/
structure Host.IsNamedByPath (host : Host) : Prop where
  name {first second : SourceUnit} {ref other : TypeRef} {a b : TypeInfo}
    (ha : (host.lookup first).resolveType ref = some a)
    (hb : (host.lookup second).resolveType other = some b) (hpath : a.path = b.path) :
    a.name = b.name
  space {first second : SourceUnit} {ref other : TypeRef} {a b : TypeInfo}
    (ha : (host.lookup first).resolveType ref = some a)
    (hb : (host.lookup second).resolveType other = some b) (hpath : a.path = b.path) :
    a.space = b.space

/-- A named type has been resolved. -/
theorem Lookup.resolveType_of_namedType {lookup : Lookup} {origin : String} {ref : TypeRef}
    {info : TypeInfo} (h : lookup.namedType origin ref = .ok info) :
    lookup.resolveType ref = some info := by
  unfold namedType at h
  split at h
  · rename_i info' hinfo
    split_ifs at h
    rw [hinfo, Except.ok.inj h]
  · cases h

/-- The first of the types that a call maps is named in it. -/
theorem Lookup.exists_namedType_of_mappedTypes {lookup : Lookup} {origin : String} {call : Call}
    {source dest : TypeInfo} (h : lookup.mappedTypes origin call = .ok (source, dest)) :
    ∃ ref, lookup.namedType origin ref = .ok source := by
  unfold mappedTypes at h
  split_ifs at h
  split at h
  · obtain ⟨info, hinfo, h⟩ := bind_eq_ok.1 h
    obtain ⟨other, -, h⟩ := bind_eq_ok.1 h
    obtain rfl := congrArg Prod.fst (Except.ok.inj h)
    exact ⟨_, hinfo⟩
  · cases h

/-- The source of a mapping is a type that has been resolved. -/
theorem Host.exists_source_of_findMapping {host : Host} {lookup : Lookup} {c : Candidate}
    {m : Mapping} (h : host.findMapping lookup c = .ok (.item m)) :
    ∃ ref source, lookup.resolveType ref = some source ∧ m.source = source.path ∧
      m.space = source.space := by
  unfold findMapping at h
  split at h
  · cases h
  rename_i call _
  split at h
  · cases h
  rename_i source dest htypes
  obtain ⟨sourceMembers, -, h⟩ := bind_eq_ok.1 h
  obtain ⟨destMembers, -, h⟩ := bind_eq_ok.1 h
  obtain rfl := Finding.item.inj (Except.ok.inj h)
  obtain ⟨ref, hnamed⟩ := Lookup.exists_namedType_of_mappedTypes htypes
  exact ⟨ref, source, Lookup.resolveType_of_namedType hnamed, rfl, rfl⟩

/-- **Mappings of one source** are in one namespace, and no two of them have one destination. -/
theorem Host.IsNamedByPath.resolved {host : Host} (h : host.IsNamedByPath)
    {candidates : List Candidate} {resolved : Resolved Mapping}
    (hresolved : host.resolveMappings candidates = .ok resolved) :
    (resolved.items.map Mapping.types).Nodup ∧
      ∀ m ∈ resolved.items, ∀ q ∈ resolved.items, m.source = q.source → m.space = q.space := by
  obtain ⟨endings, hends, -, heq⟩ := host.exists_ends_of_resolveMappings hresolved
  obtain ⟨findings, hfindings, hcollect⟩ := bind_eq_ok.1 hresolved
  obtain rfl := Except.ok.inj hcollect
  refine ⟨?_, fun m hm q hq hsource => ?_⟩
  · rw [heq]
    exact hends.distinct
  · obtain ⟨_, _, hm⟩ := exists_of_mem_items hfindings hm
    obtain ⟨_, _, hq⟩ := exists_of_mem_items hfindings hq
    obtain ⟨_, a, ha, hapath, haspace⟩ := exists_source_of_findMapping hm
    obtain ⟨_, b, hb, hbpath, hbspace⟩ := exists_source_of_findMapping hq
    rw [haspace, hbspace]
    exact h.space ha hb (hapath.symm.trans (hsource.trans hbpath))

/-! ### The traits of a type -/

namespace MappingPlan

/-- The names of the destinations that a type is mapped to in the plan of mappings. -/
def displaysOf (ms : List Mapping) (source : String) : List String :=
  ((accepted {} ms).filter (·.source = source)).map (·.display)

/-- The traits that are implemented for a type in the plan of mappings, each as often as it is. -/
def traitsOf (ms : List Mapping) (source : String) : List MappingTarget :=
  (ofMappings ms).spaces.flatMap fun s => s.targets.flatMap fun t =>
    ((t.mappings (accepted {} ms) s).filter (·.source = source)).map fun _ => t

variable {ms : List Mapping}

/-- **The traits of a type** have the names of its destinations. -/
theorem perm_displays (ms : List Mapping) (source : String) :
    ((traitsOf ms source).map (·.display)).Perm (displaysOf ms source) := by
  have hdisplays : (traitsOf ms source).map (·.display) =
      (((ofMappings ms).spaces.flatMap fun s => s.targets.flatMap fun t =>
        t.mappings (accepted {} ms) s).filter (·.source = source)).map (·.display) := by
    simp only [traitsOf, List.filter_flatMap, List.map_flatMap, List.map_map]
    refine List.flatMap_congr fun s _ => List.flatMap_congr fun t _ => ?_
    -- what a trait is implemented for is mapped to its destination
    refine List.map_congr_left fun m hm => ?_
    have hdest := of_decide_eq_true (List.mem_filter.1 (List.mem_filter.1 hm).1).2
    exact (congrArg Prod.fst hdest).symm
  rw [hdisplays]
  exact ((holds_ofMappings ms).perm_mappings.filter _).map _

/-- **The destinations of a type** have different names, if its mappings are in one namespace. -/
theorem nodup_displays (htypes : (ms.map Mapping.types).Nodup)
    (hspaces : ∀ m ∈ ms, ∀ q ∈ ms, m.source = q.source → m.space = q.space) (source : String) :
    (displaysOf ms source).Nodup := by
  have hsub := accepted_sublist {} ms
  have hdistinct : ((accepted {} ms).map Mapping.types).Nodup := (hsub.map _).nodup htypes
  have h := holds_ofMappings ms
  refine List.Nodup.map_on (fun m hm q hq hdisplay => ?_) (hdistinct.of_map.filter _)
  obtain ⟨hm, hmsource⟩ := List.mem_filter.1 hm
  obtain ⟨hq, hqsource⟩ := List.mem_filter.1 hq
  have hsource : m.source = q.source :=
    (of_decide_eq_true hmsource).trans (of_decide_eq_true hqsource).symm
  have hspace : m.space = q.space := hspaces m (hsub.mem hm) q (hsub.mem hq) hsource
  -- both traits are in one module, where a name has one trait
  obtain ⟨s, hs, hname⟩ := h.sorted.exists_group hm
  have hold := h.sorted.holds s hs
  obtain ⟨t, ht, htm⟩ := hold.sorted.exists_group
    (List.mem_filter.2 ⟨hm, decide_eq_true hname.symm⟩)
  obtain ⟨u, hu, huq⟩ := hold.sorted.exists_group
    (List.mem_filter.2 ⟨hq, decide_eq_true (hspace.symm.trans hname.symm)⟩)
  have htu : t.display = u.display :=
    (congrArg Prod.fst htm).trans (hdisplay.trans (congrArg Prod.fst huq).symm)
  obtain rfl := MappingTarget.eq_of_display hold.traits ht hu htu
  have hdest : m.dest = q.dest := congrArg Prod.snd (htm.symm.trans huq)
  exact List.inj_on_of_nodup_map hdistinct hm hq (Prod.ext hsource hdest)

/-- **The methods of a type** have different names exactly where the names of its destinations have
different snake cases. -/
theorem nodup_methods_iff (ms : List Mapping) (source : String) :
    ((traitsOf ms source).map MappingTarget.methodIdent).Nodup ↔
      ((displaysOf ms source).map Naming.snakeCase).Nodup := by
  have hmethods : (traitsOf ms source).map MappingTarget.methodIdent =
      (((traitsOf ms source).map (·.display)).map Naming.snakeCase).map fun name =>
        ⟨false, "map_to_" ++ name⟩ := by
    simp only [List.map_map]
    rfl
  have hinjective : Function.Injective fun name => (⟨false, "map_to_" ++ name⟩ : Ident) := by
    intro a b hab
    exact (String.append_right_inj _).1 (congrArg Ident.name hab)
  -- what stands before the name in a method is the same in all, so names alone tell them apart
  rw [hmethods, List.nodup_map_iff hinjective]
  exact ((perm_displays ms source).map _).nodup_iff

/-- The names of destinations are shaped like identifiers. -/
theorem isIdentifier_of_mem_displays {source name : String} (h : name ∈ displaysOf ms source) :
    Naming.isIdentifier name = true := by
  obtain ⟨m, hm, rfl⟩ := List.mem_map.1 h
  have hplan : PlannedMapping.of m ∈
      ((ofMappings ms).spaces.flatMap fun s => s.targets.flatMap (·.impls)).map Except.ok :=
    (holds_ofMappings ms).perm_impls.mem_iff.2 (List.mem_map_of_mem (List.mem_filter.1 hm).1)
  obtain ⟨p, -, hp⟩ := List.mem_map.1 hplan
  exact (PlannedMapping.exists_of_iff.1 ⟨p, hp.symm⟩).display.1

end MappingPlan

/-! ### Generated methods -/

namespace Generation

/-- What is generated is written from the plan of the mappings that have been resolved. -/
theorem exists_written {s : Settings} {host : Host} {corpus : Corpus} {g : Generation}
    (hg : mappings s host corpus = .ok g) : ∃ resolved codes a,
      host.resolveMappings (corpus.scan s.mapping.accepts) = .ok resolved ∧
      List.Forall₂ MappingSpace.IsWritten (MappingPlan.ofMappings resolved.items).spaces codes ∧
      Artifact.ofTokens mappingsId codes.flatten = .ok a ∧ g.artifacts = [a] := by
  obtain ⟨-, resolved, made, hresolved, hmade, rfl⟩ := mappings_eq_ok.1 hg
  obtain ⟨codes, hwritten, heq⟩ := exists_ofMappings_eq resolved.items
  obtain ⟨a, ha, rfl⟩ := map_eq_ok.1 (heq.symm.trans hmade)
  exact ⟨resolved, codes, a, hresolved, hwritten, ha, rfl⟩

/-- **The methods of one type.**  Where mappings are generated and the path of a type tells its
namespace, the traits of a type have the names of its destinations, which differ.  Its methods have
different names exactly where these names have different snake cases.  Two of them with one snake
case differ in underscores and case only, and not both are in plain Pascal case; so where all are,
the methods have different names. -/
theorem mapping_methods {s : Settings} {host : Host} {corpus : Corpus} {g : Generation}
    (hhost : host.IsNamedByPath) (hg : mappings s host corpus = .ok g) :
    ∃ resolved codes a,
      host.resolveMappings (corpus.scan s.mapping.accepts) = .ok resolved ∧
      MappingPlan.Holds (MappingPlan.accepted {} resolved.items)
        (MappingPlan.ofMappings resolved.items).spaces ∧
      List.Forall₂ MappingSpace.IsWritten (MappingPlan.ofMappings resolved.items).spaces codes ∧
      Artifact.ofTokens mappingsId codes.flatten = .ok a ∧ g.artifacts = [a] ∧
      ∀ source,
        let traits := MappingPlan.traitsOf resolved.items source
        let displays := MappingPlan.displaysOf resolved.items source
        (traits.map (·.display)).Perm displays ∧ displays.Nodup ∧
        ((traits.map MappingTarget.methodIdent).Nodup ↔ (displays.map Naming.snakeCase).Nodup) ∧
        (∀ a ∈ displays, ∀ b ∈ displays, a ≠ b → Naming.snakeCase a = Naming.snakeCase b →
          Naming.bareChars a = Naming.bareChars b ∧
            ¬(Naming.isPascalCase a = true ∧ Naming.isPascalCase b = true)) ∧
        ((∀ a ∈ displays, Naming.isPascalCase a = true) →
          (traits.map MappingTarget.methodIdent).Nodup) := by
  obtain ⟨resolved, codes, a, hresolved, hwritten, ha, hartifact⟩ := exists_written hg
  obtain ⟨htypes, hspaces⟩ := hhost.resolved hresolved
  refine ⟨resolved, codes, a, hresolved, MappingPlan.holds_ofMappings _, hwritten, ha, hartifact,
    fun source => ?_⟩
  have hnodup := MappingPlan.nodup_displays htypes hspaces source
  have hmethods := MappingPlan.nodup_methods_iff resolved.items source
  refine ⟨MappingPlan.perm_displays _ source, hnodup, hmethods,
    fun a ha b hb hne hsnake => ⟨?_, ?_⟩,
    fun hpascal => hmethods.2 (hnodup.map_on fun a ha b hb => ?_)⟩
  · exact Naming.bareChars_eq_of_snakeCase_eq (MappingPlan.isIdentifier_of_mem_displays ha)
      (MappingPlan.isIdentifier_of_mem_displays hb) hsnake
  · exact fun ⟨hpa, hpb⟩ => hne (Naming.eq_of_snakeCase_eq hpa hpb hsnake)
  · exact Naming.eq_of_snakeCase_eq (hpascal a ha) (hpascal b hb)

/-- A host that knows the types of one module by their names alone. -/
def namesHost (names : List String) : Host where
  lookup _ :=
    { resolveType := fun ref =>
        if ref.text ∈ names then
          some ⟨ref.text, "crate::shop::" ++ ref.text, "crate::shop", .struct⟩
        else none
      declaredType := fun _ => none
      resolvesReceiver := fun _ _ => true }
  membersOf _ := .ok []

theorem isNamedByPath_namesHost (names : List String) : (namesHost names).IsNamedByPath := by
  have hinfo {unit : SourceUnit} {ref : TypeRef} {info : TypeInfo}
      (h : ((namesHost names).lookup unit).resolveType ref = some info) :
      info.path = "crate::shop::" ++ info.name ∧ info.space = "crate::shop" := by
    simp only [namesHost] at h
    split_ifs at h
    obtain rfl := Option.some.inj h
    exact ⟨rfl, rfl⟩
  constructor
  · intro _ _ _ _ a b ha hb hpath
    rw [(hinfo ha).1, (hinfo hb).1] at hpath
    exact (String.append_right_inj _).1 hpath
  · intro _ _ _ _ a b ha hb _
    rw [(hinfo ha).2, (hinfo hb).2]

/-- Calls that map `Thing` to types. -/
def thingCorpus (dests : List String) : Corpus :=
  Corpus.push {} "shop.rs" (dests.map fun dest =>
    .call ⟨["Mappings"], "register", [⟨"Thing", "crate"⟩, ⟨dest, "crate"⟩], "crate"⟩)

/-- What is resolved in these calls by a host that knows `Thing` and some more types. -/
def thingMappings (names dests : List String) : Except Breakdown (Resolved Mapping) :=
  (namesHost ("Thing" :: names)).resolveMappings
    ((thingCorpus dests).scan ({} : Settings).mapping.accepts)

theorem mapping_methods_pascal :
    ∃ g resolved, mappings {} (namesHost ["Thing", "FooBar", "Depot"])
        (thingCorpus ["FooBar", "Depot"]) = .ok g ∧
      thingMappings ["FooBar", "Depot"] ["FooBar", "Depot"] = .ok resolved ∧
      ((MappingPlan.traitsOf resolved.items "crate::shop::Thing").map
        MappingTarget.methodIdent).Nodup := by
  have hmade : (mappings {} (namesHost ["Thing", "FooBar", "Depot"])
      (thingCorpus ["FooBar", "Depot"])).isOk = true := by decide +kernel
  have hdisplays : (thingMappings ["FooBar", "Depot"] ["FooBar", "Depot"]).map (fun resolved =>
      MappingPlan.displaysOf resolved.items "crate::shop::Thing") = .ok ["FooBar", "Depot"] := by
    decide +kernel
  cases hg : mappings {} (namesHost ["Thing", "FooBar", "Depot"])
      (thingCorpus ["FooBar", "Depot"]) with
  | error stop =>
    rw [hg] at hmade
    cases hmade
  | ok g =>
    obtain ⟨resolved, -, -, hresolved, -, -, -, -, hmethods⟩ :=
      mapping_methods (isNamedByPath_namesHost _) hg
    obtain ⟨-, -, -, -, hpascal⟩ := hmethods "crate::shop::Thing"
    rw [thingMappings, hresolved] at hdisplays
    have hnames : MappingPlan.displaysOf resolved.items "crate::shop::Thing" =
        ["FooBar", "Depot"] := Except.ok.inj hdisplays
    refine ⟨g, resolved, rfl, hresolved, hpascal ?_⟩
    rw [hnames]
    decide +kernel

/-- **Two methods of one name:** a type is mapped to `FooBar` and to `Foo_Bar`. -/
theorem mapping_methods_clash :
    (namesHost ["Thing", "FooBar", "Foo_Bar"]).IsNamedByPath ∧ ∃ g resolved codes a,
      mappings {} (namesHost ["Thing", "FooBar", "Foo_Bar"]) (thingCorpus ["FooBar", "Foo_Bar"]) =
        .ok g ∧
      thingMappings ["FooBar", "Foo_Bar"] ["FooBar", "Foo_Bar"] = .ok resolved ∧
      MappingPlan.Holds (MappingPlan.accepted {} resolved.items)
        (MappingPlan.ofMappings resolved.items).spaces ∧
      List.Forall₂ MappingSpace.IsWritten (MappingPlan.ofMappings resolved.items).spaces codes ∧
      Artifact.ofTokens mappingsId codes.flatten = .ok a ∧ g.artifacts = [a] ∧
      (MappingPlan.traitsOf resolved.items "crate::shop::Thing").map (fun t =>
          (t.traitIdent.text, t.methodIdent.text)) =
        [("MapToFooBar", "map_to_foo_bar"), ("MapToFoo_Bar", "map_to_foo_bar")] := by
  have hmade : (mappings {} (namesHost ["Thing", "FooBar", "Foo_Bar"])
      (thingCorpus ["FooBar", "Foo_Bar"])).isOk = true := by decide +kernel
  have htraits : (thingMappings ["FooBar", "Foo_Bar"] ["FooBar", "Foo_Bar"]).map (fun resolved =>
        (MappingPlan.traitsOf resolved.items "crate::shop::Thing").map fun t =>
          (t.traitIdent.text, t.methodIdent.text)) =
      .ok [("MapToFooBar", "map_to_foo_bar"), ("MapToFoo_Bar", "map_to_foo_bar")] := by
    decide +kernel
  refine ⟨isNamedByPath_namesHost _, ?_⟩
  cases hg : mappings {} (namesHost ["Thing", "FooBar", "Foo_Bar"])
      (thingCorpus ["FooBar", "Foo_Bar"]) with
  | error stop =>
    rw [hg] at hmade
    cases hmade
  | ok g =>
    obtain ⟨resolved, codes, a, hresolved, hwritten, ha, hartifact⟩ := exists_written hg
    rw [thingMappings, hresolved] at htraits
    exact ⟨g, resolved, codes, a, rfl, hresolved, MappingPlan.holds_ofMappings _, hwritten, ha,
      hartifact, Except.ok.inj htraits⟩

end Generation

end Scaffold
