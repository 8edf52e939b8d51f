import Scaffold.Proofs.Mapping.Plan
import Scaffold.Proofs.Source.FileOrder

/-!
# What attaching gives to types

Accessors wait in the table until all types are known, and are attached one implementation after
another, by lookups in the very table that grows with each of them.  No lookup sees the members of
a type, so all implementations are resolved as the table stood at first
(`resolvePath_foldl_attachOne`) and each gives its accessors to the one type that it names, or to
none (`perm_accessorsOf`).

`attach_accessors` puts this together with what is known of a table's entries: the members of a type
are the fields of its last declaration, then its accessors in the order in which they were kept.
-/

namespace Scaffold.Source

namespace SymbolTable

/-- The type that an implementation names, as the table resolves it. -/
def typeOfImpl? (t : SymbolTable) (impl : PendingImpl) : Option ModulePath :=
  match t.resolvePath impl.target impl.scope with
  | some (.type p) => some p
  | _ => none

variable {t : SymbolTable}

theorem typeOfImpl?_eq_some {impl : PendingImpl} {p : ModulePath} :
    t.typeOfImpl? impl = some p ↔ t.resolvePath impl.target impl.scope = some (.type p) := by
  unfold typeOfImpl?
  split
  · rename_i h
    rw [h]
    simp
  · rename_i h
    exact iff_of_false nofun (h p)

/-- A type that an implementation names is in the table. -/
theorem hasType_of_typeOfImpl? {impl : PendingImpl} {p : ModulePath}
    (h : t.typeOfImpl? impl = some p) : t.hasType p = true :=
  hasType_of_resolvePath (typeOfImpl?_eq_some.1 h)

/-! ### Attaching one implementation after another -/

theorem agrees_foldl_attachOne (impls : List PendingImpl) (t : SymbolTable) :
    (impls.foldl attachOne t).Agrees t := by
  induction impls generalizing t with
  | nil => exact ⟨fun _ => rfl, fun _ => rfl, fun _ _ => rfl, fun _ => rfl⟩
  | cons impl impls ih => exact (ih _).trans (t.agrees_attachOne impl)

/-- **No lookup changes** while accessors are attached. -/
theorem resolvePath_foldl_attachOne (impls : List PendingImpl) (t : SymbolTable) :
    (impls.foldl attachOne t).resolvePath = t.resolvePath :=
  (agrees_foldl_attachOne impls t).resolvePath

theorem pending_attachOne (t : SymbolTable) (impl : PendingImpl) :
    (t.attachOne impl).pending = t.pending := by
  unfold attachOne
  split
  · split <;> rfl
  · rfl

/-- Nothing waits any more. -/
theorem pending_attach (t : SymbolTable) : t.attach.pending = [] :=
  List.foldlRecOn t.pending attachOne (motive := fun u => u.pending = []) rfl
    fun u hu impl _ => (u.pending_attachOne impl).trans hu

/-- **Attaching once more** changes nothing. -/
theorem attach_attach (t : SymbolTable) : t.attach.attach = t.attach := by
  have hnone := t.pending_attach
  generalize t.attach = u at hnone ⊢
  obtain ⟨modules, types, pending⟩ := u
  obtain rfl : pending = [] := hnone
  rfl

/-! ### Where accessors go -/

theorem accessorsOf_eq (t : SymbolTable) (impls : List PendingImpl) (p : ModulePath) :
    t.accessorsOf impls p =
      ((impls.filter fun impl => (t.typeOfImpl? impl).isSome).filter
        (t.typeOfImpl? · = some p)).flatMap (·.members) := by
  rw [accessorsOf, List.filter_filter]
  congr 1
  refine List.filter_congr fun impl _ => ?_
  rw [Bool.eq_iff_iff, Bool.and_eq_true, decide_eq_true_eq, decide_eq_true_eq, typeOfImpl?_eq_some]
  exact ⟨fun h => ⟨h, by rw [typeOfImpl?_eq_some.2 h]; rfl⟩, And.left⟩

/-- **No accessor is lost or given twice:** all types together get those of the implementations that
name a type. -/
theorem perm_accessorsOf (t : SymbolTable) (impls : List PendingImpl) :
    ((t.types.map (·.1)).eraseDups.flatMap (t.accessorsOf impls)).Perm
      ((impls.filter fun impl => (t.typeOfImpl? impl).isSome).flatMap (·.members)) := by
  have hnodup : ((t.types.map (·.1)).eraseDups.map some).Nodup :=
    (nodup_eraseDups _).map fun _ _ => Option.some.inj
  have hkeys : ∀ impl ∈ impls.filter (fun impl => (t.typeOfImpl? impl).isSome),
      t.typeOfImpl? impl ∈ (t.types.map (·.1)).eraseDups.map some := by
    intro impl himpl
    obtain ⟨p, hp⟩ := Option.isSome_iff_exists.1 (List.mem_filter.1 himpl).2
    obtain ⟨entry, hentry⟩ := Option.isSome_iff_exists.1 (hasType_of_typeOfImpl? hp)
    obtain ⟨before, after, hsplit, -⟩ := List.lookup_eq_some_iff.1 hentry
    have hmem : p ∈ t.types.map (·.1) := by
      rw [hsplit, List.map_append]
      exact List.mem_append_right _ List.mem_cons_self
    rw [hp]
    exact List.mem_map_of_mem (List.mem_eraseDups.2 hmem)
  -- sorted by the types that they name, the implementations are still all there
  have hperm := (perm_flatMap_filter hnodup hkeys).flatMap_right (·.members)
  rw [List.flatMap_map, List.flatMap_assoc] at hperm
  rw [funext (t.accessorsOf_eq impls)]
  exact hperm

/-! ### The members of a type -/

/-- The members that the table has for a type. -/
def entryMembers (t : SymbolTable) (p : ModulePath) : List MemberEntry :=
  ((t.types.lookup p).map (·.members)).getD []

theorem membersOf_eq_mapM (t : SymbolTable) (p : ModulePath) :
    t.membersOf p = (t.entryMembers p).mapM t.shown := by
  cases hentry : t.types.lookup p with
  | none =>
    rw [membersOf, entryMembers, hentry]
    rfl
  | some entry =>
    rw [membersOf_eq hentry, entryMembers, hentry]
    rfl

/-- Only types of the table have accessors. -/
theorem accessorsOf_eq_nil {p : ModulePath} (h : t.types.lookup p = none)
    (impls : List PendingImpl) : t.accessorsOf impls p = [] := by
  refine List.flatMap_eq_nil_iff.2 fun impl himpl => ?_
  have htype := hasType_of_resolvePath (of_decide_eq_true (List.mem_filter.1 himpl).2)
  rw [hasType, h] at htype
  cases htype

/-- **What a type has after attaching:** what it had, then its accessors. -/
theorem entryMembers_attach (t : SymbolTable) (p : ModulePath) :
    t.attach.entryMembers p = t.entryMembers p ++ t.accessorsOf t.pending p := by
  rw [entryMembers, entryMembers, lookup_attach]
  cases hentry : t.types.lookup p with
  | none =>
    rw [accessorsOf_eq_nil hentry]
    rfl
  | some entry => rfl

/-- The table writes a member as before. -/
theorem shown_attach (t : SymbolTable) : t.attach.shown = t.shown := by
  funext m
  rw [shown, shown, t.agrees_attach.typeText]

/-- The table has for a type what its last declaration says. -/
theorem entryMembers_addAll (t : SymbolTable) (facts more : List Fact) (space : ModulePath)
    (name : String) (kind : TypeKind) (fields : List MemberEntry)
    (hlast : ∀ f ∈ more, f.typePath? ≠ some (space ++ [name])) :
    (t.addAll (facts ++ .type space name kind fields :: more)).entryMembers (space ++ [name]) =
      fields := by
  have hmore : more.reverse.findSome? (Fact.entryAt? (space ++ [name])) = none := by
    rw [List.findSome?_eq_none_iff]
    intro f hf
    exact Fact.entryAt?_of_typePath?_ne (hlast f (List.mem_reverse.1 hf))
  have hself : (Fact.type space name kind fields).entryAt? (space ++ [name]) =
      some ⟨name, space, kind, fields⟩ := if_pos rfl
  rw [entryMembers, lookup_addAll, List.reverse_append, List.reverse_cons, List.append_assoc,
    List.findSome?_append, hmore, Option.none_or, List.singleton_append, List.findSome?_cons, hself]
  rfl

/-- **Attaching gives every accessor once.**  No lookup changes on the way, so each implementation
is resolved by the modules, types, imports and globs of the table, whatever the others give.  A type
keeps its entry, followed by the members of the implementations that name it, in the order in which
they were kept; all types together get the members of those that name a type, and the others are
left out.  Attaching once more changes nothing.  So the members of a type are the fields of its last
declaration, however the table was filled, then its accessors. -/
theorem attach_accessors (t : SymbolTable) :
    (∀ impls : List PendingImpl, (impls.foldl attachOne t).resolvePath = t.resolvePath) ∧
    (∀ p, t.attach.types.lookup p =
      (t.types.lookup p).map (·.extend (t.accessorsOf t.pending p))) ∧
    ((t.types.map (·.1)).eraseDups.flatMap (t.accessorsOf t.pending)).Perm
      ((t.pending.filter fun impl => (t.typeOfImpl? impl).isSome).flatMap (·.members)) ∧
    t.attach.modules = t.modules ∧ t.attach.attach = t.attach ∧
    (∀ p, t.attach.membersOf p =
      (t.entryMembers p ++ t.accessorsOf t.pending p).mapM t.shown) ∧
    ∀ (start : SymbolTable) (facts : List Fact) (space : ModulePath) (name : String)
      (kind : TypeKind) (fields : List MemberEntry) (more : List Fact),
      t = start.addAll (facts ++ .type space name kind fields :: more) →
      (∀ f ∈ more, f.typePath? ≠ some (space ++ [name])) →
      t.attach.membersOf (space ++ [name]) =
        (fields ++ t.accessorsOf (start.pending ++ (facts ++ more).filterMap Fact.impl?)
          (space ++ [name])).mapM t.shown := by
  have hmembers (p : ModulePath) : t.attach.membersOf p =
      (t.entryMembers p ++ t.accessorsOf t.pending p).mapM t.shown := by
    rw [membersOf_eq_mapM, entryMembers_attach, shown_attach]
  refine ⟨fun impls => resolvePath_foldl_attachOne impls t, t.lookup_attach,
    t.perm_accessorsOf t.pending, t.modules_attach, t.attach_attach, hmembers, ?_⟩
  intro start facts space name kind fields more ht hlast
  have hpending : t.pending = start.pending ++ (facts ++ more).filterMap Fact.impl? := by
    rw [ht, pending_addAll, List.filterMap_append, List.filterMap_append, List.filterMap_cons]
    rfl
  have hfields : t.entryMembers (space ++ [name]) = fields := by
    rw [ht, entryMembers_addAll start facts more space name kind fields hlast]
  rw [hmembers, hfields, hpending]

/-- A member whose type is a number. -/
def sizeMember (kind : MemberKind) (scope : ModulePath) : MemberEntry :=
  ⟨"size", .word false "u8", .exposed, kind, scope⟩

/-- An accessor of a type under the name that it is given later, and a type that is declared again
later. -/
def earlierFacts : List Fact :=
  [.impl ⟨⟨["Leaf"], false⟩, ["crate"], [sizeMember .getter ["crate"]]⟩,
    .type ["crate"] "Page" .enum [], .binding ["crate"] false (.name "Leaf" ["self", "Page"])]

/-- An accessor of the type from another module, and one of no type. -/
def laterFacts : List Fact :=
  [.impl ⟨⟨["super", "Leaf"], false⟩, ["crate", "edit"], [sizeMember .setter ["crate", "edit"]]⟩,
    .impl ⟨⟨["Gone"], false⟩, ["crate"], [sizeMember .getter ["crate"]]⟩]

theorem attach_accessors_renamed :
    (∀ f ∈ laterFacts, f.typePath? ≠ some ["crate", "Page"]) ∧
    (SymbolTable.addAll {} (earlierFacts ++ .type ["crate"] "Page" .struct
        [sizeMember .field ["crate"]] :: laterFacts)).attach.membersOf ["crate", "Page"] =
      .ok [⟨"size", "u8", .exposed, .field, true⟩, ⟨"size", "u8", .exposed, .getter, false⟩,
        ⟨"size", "u8", .exposed, .setter, false⟩] := by
  have hlast : ∀ f ∈ laterFacts, f.typePath? ≠ some (["crate"] ++ ["Page"]) := by decide
  obtain ⟨-, -, -, -, -, -, hmembers⟩ := attach_accessors (SymbolTable.addAll {} (earlierFacts ++
    .type ["crate"] "Page" .struct [sizeMember .field ["crate"]] :: laterFacts))
  have hpage := hmembers {} earlierFacts ["crate"] "Page" .struct _ laterFacts rfl hlast
  refine ⟨hlast, hpage.trans ?_⟩
  decide +kernel

end SymbolTable

end Scaffold.Source
