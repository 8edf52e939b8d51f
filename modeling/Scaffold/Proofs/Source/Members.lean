import Scaffold.Proofs.Source.Agreement
import Scaffold.Proofs.Source.Facts
import Scaffold.Proofs.Stopping

/-!
# Types and their members, read off the facts

The entry of a type in the table of a crate is made of its last declaration among the facts and of
the accessors of every implementation that names it, in the order in which they were stated
(`lookup_tableOf`).  What a declaration gives is fields, and what an implementation gives is none
(`hasKinds_crateFacts`), so the two parts of the entry can be told apart again.
-/

namespace Scaffold.Source

open Syntax

/-! ### What facts say of types -/

/-- The path of the type that a fact declares. -/
def Fact.typePath? : Fact → Option ModulePath
  | .type space name _ _ => some (space ++ [name])
  | _ => none

/-- The entry that a fact makes under a path. -/
def Fact.entryAt? (p : ModulePath) : Fact → Option TypeEntry
  | .type space name kind fields =>
    if space ++ [name] = p then some ⟨name, space, kind, fields⟩ else none
  | _ => none

/-- The accessors that a fact keeps. -/
def Fact.impl? : Fact → Option PendingImpl
  | .impl pending => some pending
  | _ => none

theorem Fact.entryAt?_of_typePath?_ne {f : Fact} {p : ModulePath} (h : f.typePath? ≠ some p) :
    f.entryAt? p = none := by
  cases f with
  | type space name kind fields => exact if_neg fun heq => h (congrArg some heq)
  | _ => rfl

namespace SymbolTable

theorem lookup_add (t : SymbolTable) (f : Fact) (p : ModulePath) :
    (t.add f).types.lookup p = (f.entryAt? p).or (t.types.lookup p) := by
  cases f with
  | module_ path => rfl
  | type space name kind fields =>
    have hset : (t.add (.type space name kind fields)).types.lookup p =
        if p == space ++ [name] then some ⟨name, space, kind, fields⟩ else t.types.lookup p :=
      lookup_setKey ..
    rw [hset, Fact.entryAt?]
    by_cases hp : p = space ++ [name]
    · rw [if_pos (beq_iff_eq.2 hp), if_pos hp.symm, Option.some_or]
    · rw [if_neg (fun h => hp (eq_of_beq h)), if_neg (Ne.symm hp), Option.none_or]
  | binding space rooted b => cases b <;> rfl
  | impl impl => rfl
  | node n => rfl

/-- **The entry of a type is its last declaration** among the facts, or what the table had. -/
theorem lookup_addAll (t : SymbolTable) (facts : List Fact) (p : ModulePath) :
    (t.addAll facts).types.lookup p =
      (facts.reverse.findSome? (Fact.entryAt? p)).or (t.types.lookup p) := by
  induction facts generalizing t with
  | nil => rfl
  | cons f facts ih =>
    rw [addAll, List.foldl_cons, ← addAll, ih, lookup_add, List.reverse_cons,
      List.findSome?_append, Option.or_assoc]
    cases h : f.entryAt? p <;> simp [h]

theorem pending_add (t : SymbolTable) (f : Fact) :
    (t.add f).pending = t.pending ++ f.impl?.toList := by
  cases f with
  | impl impl => rfl
  | binding space rooted b => cases b <;> exact (List.append_nil _).symm
  | _ => exact (List.append_nil _).symm

theorem pending_addAll (t : SymbolTable) (facts : List Fact) :
    (t.addAll facts).pending = t.pending ++ facts.filterMap Fact.impl? := by
  induction facts generalizing t with
  | nil => exact (List.append_nil _).symm
  | cons f facts ih =>
    rw [addAll, List.foldl_cons, ← addAll, ih, pending_add, List.append_assoc]
    cases h : f.impl? <;> simp [h]

end SymbolTable

/-- The accessors that the facts of a crate give to the type of a path. -/
def accessorsIn (facts : List Fact) (p : ModulePath) : List MemberEntry :=
  (tableOf facts).accessorsOf (facts.filterMap Fact.impl?) p

/-- **A type in the table of a crate:** as its last declaration says, with its accessors. -/
theorem lookup_tableOf (facts : List Fact) (p : ModulePath) :
    (tableOf facts).types.lookup p =
      (facts.reverse.findSome? (Fact.entryAt? p)).map (·.extend (accessorsIn facts p)) := by
  have hagrees : (tableOf facts).Agrees (SymbolTable.addAll {} facts) :=
    SymbolTable.agrees_attach _
  have hpending : (SymbolTable.addAll {} facts).pending = facts.filterMap Fact.impl? :=
    SymbolTable.pending_addAll {} facts
  have hentry : (SymbolTable.addAll {} facts).types.lookup p =
      facts.reverse.findSome? (Fact.entryAt? p) :=
    (SymbolTable.lookup_addAll {} facts p).trans Option.or_none
  rw [accessorsIn, hagrees.accessorsOf, ← hpending, ← hentry]
  exact SymbolTable.lookup_attach _ p

/-- What a table knows of a type does not depend on accessors. -/
theorem typeInfo_tableOf (facts : List Fact) (p : ModulePath) :
    (tableOf facts).typeInfo p = (facts.reverse.findSome? (Fact.entryAt? p)).map fun entry =>
      ⟨entry.name, Text.ofSegments p, Text.ofSegments entry.space, entry.kind⟩ := by
  rw [SymbolTable.typeInfo, lookup_tableOf, Option.map_map]
  rfl

theorem Fact.isSome_entryAt? {f : Fact} {p : ModulePath} :
    (f.entryAt? p).isSome = true ↔ f.typePath? = some p := by
  cases f with
  | type space name kind fields => simp [entryAt?, typePath?]
  | _ => simp [entryAt?, typePath?]

/-- **The types in the table of a crate** are those that its facts declare. -/
theorem hasType_tableOf_iff {facts : List Fact} {p : ModulePath} :
    (tableOf facts).hasType p = true ↔ p ∈ facts.filterMap Fact.typePath? := by
  rw [SymbolTable.hasType, lookup_tableOf, Option.isSome_map, List.findSome?_isSome_iff]
  simp only [Fact.isSome_entryAt?, List.mem_reverse, List.mem_filterMap]

/-- What a table knows of a type is what its path says. -/
theorem exists_typeInfo_tableOf {facts : List Fact} {space : ModulePath} {name : String}
    (h : (tableOf facts).hasType (space ++ [name]) = true) :
    ∃ info, (tableOf facts).typeInfo (space ++ [name]) = some info ∧ info.name = name ∧
      info.space = Text.ofSegments space := by
  rw [SymbolTable.hasType, lookup_tableOf, Option.isSome_map] at h
  obtain ⟨entry, hentry⟩ := Option.isSome_iff_exists.1 h
  obtain ⟨f, -, hf⟩ := List.exists_of_findSome?_eq_some hentry
  rw [typeInfo_tableOf, hentry]
  refine ⟨_, rfl, ?_⟩
  cases f with
  | type space' name' kind fields =>
    rw [Fact.entryAt?] at hf
    split_ifs at hf with heq
    obtain rfl := Option.some.inj hf
    obtain ⟨hspace, hname⟩ := List.append_inj' heq rfl
    exact ⟨List.singleton_inj.1 hname, congrArg Text.ofSegments hspace⟩
  | _ => cases hf

/-- A type that is declared once has the entry of its declaration. -/
theorem findSome?_entryAt?_of_nodup {facts : List Fact} (h : (facts.filterMap Fact.typePath?).Nodup)
    {space : ModulePath} {name : String} {kind : TypeKind} {fields : List MemberEntry}
    (hmem : .type space name kind fields ∈ facts) :
    facts.reverse.findSome? (Fact.entryAt? (space ++ [name])) = some ⟨name, space, kind, fields⟩ := by
  obtain ⟨before, after, rfl⟩ := List.append_of_mem hmem
  have hpath : (Fact.type space name kind fields).typePath? = some (space ++ [name]) := rfl
  rw [List.filterMap_append, List.filterMap_cons_some hpath] at h
  have hafter : after.reverse.findSome? (Fact.entryAt? (space ++ [name])) = none := by
    rw [List.findSome?_eq_none_iff]
    intro f hf
    refine Fact.entryAt?_of_typePath?_ne fun heq => ?_
    have hnot := (List.nodup_cons.1 (List.nodup_append.1 h).2.1).1
    exact hnot (List.mem_filterMap.2 ⟨f, List.mem_reverse.1 hf, heq⟩)
  have hself : (Fact.type space name kind fields).entryAt? (space ++ [name]) =
      some ⟨name, space, kind, fields⟩ := if_pos rfl
  rw [List.reverse_append, List.reverse_cons, List.findSome?_append, List.findSome?_append, hafter,
    Option.none_or, List.findSome?_cons, hself]
  rfl

/-! ### Fields and accessors -/

theorem kind_of_mem_fieldsOf {scope : ModulePath} {fields : Node} {m : MemberEntry}
    (h : m ∈ fieldsOf scope fields) : m.kind = .field ∧ m.scope = scope := by
  unfold fieldsOf at h
  split at h
  · obtain ⟨field, -, hfield⟩ := List.mem_filterMap.1 h
    split at hfield
    · obtain rfl := Option.some.inj hfield
      exact ⟨rfl, rfl⟩
    · cases hfield
  · cases h

theorem kind_of_accessorOf {scope : ModulePath} {method : Node} {m : MemberEntry}
    (h : accessorOf scope method = some m) : m.kind ≠ .field := by
  unfold accessorOf at h
  split at h
  · split at h
    · cases h
    split at h
    · split at h
      · cases h
      split at h
      · split at h
        · obtain rfl := Option.some.inj h
          exact nofun
        · cases h
      split at h
      · split at h
        · cases h
        · obtain ⟨property, -, rfl⟩ := Option.map_eq_some_iff.1 h
          exact nofun
      · cases h
    · cases h
  · cases h

theorem kind_of_implOf {scope : ModulePath} {item : Node} {impl : PendingImpl}
    (h : implOf scope item = some impl) : ∀ m ∈ impl.members, m.kind ≠ .field := by
  unfold implOf at h
  split at h
  · dsimp only at h
    split_ifs at h
    obtain rfl := Option.some.inj h
    intro m hm
    obtain ⟨method, -, haccessor⟩ := List.mem_filterMap.1 hm
    exact kind_of_accessorOf haccessor
  · cases h

/-- Whether a declaration states fields only, and an implementation none. -/
def Fact.HasKinds : Fact → Prop
  | .type _ _ _ fields => ∀ m ∈ fields, m.kind = .field
  | .impl pending => ∀ m ∈ pending.members, m.kind ≠ .field
  | _ => True

theorem hasKinds_ownFacts (place : Place) (m : Node) : ∀ f ∈ ownFacts place m, f.HasKinds := by
  intro f hf
  cases states_of_mem_ownFacts hf with
  | type _ hfields => exact fun m hm => (kind_of_mem_fieldsOf (hfields m hm)).1
  | impl himpl => exact kind_of_implOf himpl
  | _ => trivial

/-- **Fields and accessors are told apart** by their kinds in all facts of a crate. -/
theorem hasKinds_crateFacts (files : List SourceFile) : ∀ f ∈ crateFacts files, f.HasKinds := by
  intro f hf
  obtain ⟨file, -, hmem⟩ := List.mem_flatMap.1 hf
  cases hread : readFile file.text with
  | none =>
    rw [hread] at hmem
    cases hmem
  | some node =>
    rw [hread, Option.map_some, Option.getD_some, fileFacts, List.mem_cons] at hmem
    rcases hmem with rfl | hmem
    · trivial
    · obtain ⟨m, spot, h⟩ := exists_statedBy (P := fun _ => True) (fun _ _ _ _ _ => trivial)
        (formed_readFile hread) trivial hmem
      exact hasKinds_ownFacts spot m f h.mem

theorem kind_of_mem_accessorsIn {files : List SourceFile} {p : ModulePath} {m : MemberEntry}
    (h : m ∈ accessorsIn (crateFacts files) p) : m.kind ≠ .field := by
  obtain ⟨impl, himpl, hm⟩ := List.mem_flatMap.1 h
  obtain ⟨f, hf, heq⟩ := List.mem_filterMap.1 (List.mem_of_mem_filter himpl)
  have hkinds := hasKinds_crateFacts files f hf
  cases f with
  | impl pending =>
    obtain rfl := Option.some.inj heq
    exact hkinds m hm
  | _ => cases heq

/-! ### Members that are shown -/

/-- A member as the table shows it. -/
def SymbolTable.shown (t : SymbolTable) (m : MemberEntry) : Except Breakdown TypeMember := do
  pure ⟨m.name, ← t.typeText m.scope m.type, m.visibility, m.kind, m.kind = .field⟩

/-- Whether a member of a type is shown as the table writes it. -/
structure MemberEntry.ShownAs (t : SymbolTable) (m : MemberEntry) (shown : TypeMember) : Prop where
  text : t.typeText m.scope m.type = .ok shown.typeName
  name : shown.name = m.name
  visibility : shown.visibility = m.visibility
  kind : shown.kind = m.kind
  stored : shown.stored = decide (m.kind = .field)

theorem SymbolTable.shown_eq_ok {t : SymbolTable} {m : MemberEntry} {shown : TypeMember} :
    t.shown m = .ok shown ↔ m.ShownAs t shown := by
  rw [SymbolTable.shown]
  constructor
  · intro h
    obtain ⟨text, htext, heq⟩ := bind_eq_ok.1 h
    obtain rfl := Except.ok.inj heq
    exact ⟨htext, rfl, rfl, rfl, rfl⟩
  · rintro ⟨htext, hname, hvisibility, hkind, hstored⟩
    rw [htext, ok_bind, ← hname, ← hvisibility, ← hkind]
    rw [← hkind] at hstored
    rw [← hstored]
    rfl

theorem SymbolTable.membersOf_eq {t : SymbolTable} {path : ModulePath} {entry : TypeEntry}
    (hentry : t.types.lookup path = some entry) :
    t.membersOf path = entry.members.mapM t.shown := by
  rw [membersOf, hentry]
  rfl

/-- The members of a type are those of its entry, each shown in its place. -/
theorem SymbolTable.membersOf_eq_ok {t : SymbolTable} {path : ModulePath} {entry : TypeEntry}
    (hentry : t.types.lookup path = some entry) {members : List TypeMember} :
    t.membersOf path = .ok members ↔ List.Forall₂ (MemberEntry.ShownAs t) entry.members members := by
  rw [membersOf_eq hentry, mapM_eq_ok]
  simp only [shown_eq_ok]

end Scaffold.Source
