import Scaffold.Proofs.Source.Table

/-!
# What lookups ask of a table

A lookup asks a table for four things: which modules there are, which types there are, what a name
is imported for in a module, and which globs the module has (`resolveName_zero`,
`resolveName_succ`).  Tables that agree on these (`SymbolTable.Agrees`) resolve every path alike and
write every type alike, whatever the order in which they were filled.

Attaching accessors changes none of the four, so all accessors are attached by the same lookups:
`lookup_attach` gives the entry of a type as it was declared, followed by the members of every
implementation that names the type.
-/

namespace Scaffold.Source

open Syntax

/-- The entry of a type with members added at the end. -/
def TypeEntry.extend (entry : TypeEntry) (members : List MemberEntry) : TypeEntry :=
  { entry with members := entry.members ++ members }

theorem TypeEntry.extend_nil (entry : TypeEntry) : entry.extend [] = entry := by
  rw [extend, List.append_nil]

theorem TypeEntry.extend_extend (entry : TypeEntry) (members more : List MemberEntry) :
    (entry.extend members).extend more = entry.extend (members ++ more) := by
  rw [extend, extend, extend, List.append_assoc]

namespace SymbolTable

/-- The imports and globs of a module that the table does not have. -/
theorem importOf_globsOf_of_lookup_none {t : SymbolTable} {space : ModulePath}
    (h : t.modules.lookup space = none) :
    (∀ name, t.importOf space name = none) ∧ t.globsOf space = [] := by
  refine ⟨fun name => ?_, ?_⟩
  · rw [importOf, h, Option.bind_none]
  · rw [globsOf, h, Option.map_none, Option.getD_none]

/-- The imports and globs of a module of the table. -/
theorem importOf_globsOf_of_lookup_some {t : SymbolTable} {space : ModulePath} {entry : ModuleEntry}
    (h : t.modules.lookup space = some entry) :
    (∀ name, t.importOf space name = entry.imports.lookup name) ∧
      t.globsOf space = entry.globs := by
  refine ⟨fun name => ?_, ?_⟩
  · rw [importOf, h, Option.bind_some]
  · rw [globsOf, h, Option.map_some, Option.getD_some]

/-- What a name means where nothing may be followed. -/
theorem resolveName_zero (t : SymbolTable) (space : ModulePath) (name : String) :
    t.resolveName 0 space name =
      if t.hasModule (space ++ [name]) then some (.module_ (space ++ [name]))
      else if t.hasType (space ++ [name]) then some (.type (space ++ [name]))
      else match t.importOf space name with
        | some target => if target = ⟨[name], false⟩ then some (.external [name]) else none
        | none => none := by
  rw [resolveName]
  cases hentry : t.modules.lookup space with
  | none =>
    obtain ⟨himport, -⟩ := importOf_globsOf_of_lookup_none hentry
    rw [himport]
  | some entry =>
    obtain ⟨himport, -⟩ := importOf_globsOf_of_lookup_some hentry
    rw [himport]
    dsimp only
    cases entry.imports.lookup name <;> rfl

/-- **What a name means** in terms of the four things that a lookup asks for. -/
theorem resolveName_succ (t : SymbolTable) (depth : Nat) (space : ModulePath) (name : String) :
    t.resolveName (depth + 1) space name =
      if t.hasModule (space ++ [name]) then some (.module_ (space ++ [name]))
      else if t.hasType (space ++ [name]) then some (.type (space ++ [name]))
      else match t.importOf space name with
        | some target =>
          if target = ⟨[name], false⟩ then some (.external [name])
          else resolveWith (t.resolveName depth) target space true
        | none =>
          (t.globsOf space).findSome? fun glob =>
            match resolveWith (t.resolveName depth) glob space true with
            | some (.module_ source) =>
              if source = space then none else t.resolveName depth source name
            | _ => none := by
  rw [resolveName]
  cases hentry : t.modules.lookup space with
  | none =>
    obtain ⟨himport, hglobs⟩ := importOf_globsOf_of_lookup_none hentry
    rw [himport, hglobs]
    rfl
  | some entry =>
    obtain ⟨himport, hglobs⟩ := importOf_globsOf_of_lookup_some hentry
    rw [himport, hglobs]
    dsimp only
    cases entry.imports.lookup name <;> rfl

theorem hasExternalGlob_eq (t : SymbolTable) (space : ModulePath) :
    t.hasExternalGlob space = (t.globsOf space).any fun glob =>
      match resolveWith (t.resolveName (maxDepth - 1)) glob space true with
      | some (.external _) => true
      | _ => false := by
  rw [hasExternalGlob, globsOf]
  cases t.modules.lookup space <;> rfl

/-- Whether two tables give the same answers to what a lookup asks. -/
structure Agrees (t u : SymbolTable) : Prop where
  modules : ∀ p, t.hasModule p = u.hasModule p
  types : ∀ p, t.hasType p = u.hasType p
  imports : ∀ space name, t.importOf space name = u.importOf space name
  globs : ∀ space, t.globsOf space = u.globsOf space

namespace Agrees

variable {t u : SymbolTable}

theorem symm (h : t.Agrees u) : u.Agrees t where
  modules p := (h.modules p).symm
  types p := (h.types p).symm
  imports space name := (h.imports space name).symm
  globs space := (h.globs space).symm

theorem trans {v : SymbolTable} (h : t.Agrees u) (h' : u.Agrees v) : t.Agrees v where
  modules p := (h.modules p).trans (h'.modules p)
  types p := (h.types p).trans (h'.types p)
  imports space name := (h.imports space name).trans (h'.imports space name)
  globs space := (h.globs space).trans (h'.globs space)

theorem resolveName (h : t.Agrees u) (depth : Nat) : t.resolveName depth = u.resolveName depth := by
  induction depth with
  | zero =>
    funext space name
    rw [resolveName_zero, resolveName_zero, h.modules, h.types, h.imports]
  | succ depth ih =>
    funext space name
    rw [resolveName_succ, resolveName_succ, h.modules, h.types, h.imports, h.globs, ih]

/-- **Every path** names the same in both tables. -/
theorem resolvePath (h : t.Agrees u) : t.resolvePath = u.resolvePath := by
  funext path scope
  rw [SymbolTable.resolvePath, SymbolTable.resolvePath, h.resolveName]

theorem resolvesReceiver (h : t.Agrees u) : t.resolvesReceiver = u.resolvesReceiver := by
  funext receiver scope
  rw [SymbolTable.resolvesReceiver, SymbolTable.resolvesReceiver, h.resolvePath,
    hasExternalGlob_eq, hasExternalGlob_eq u, h.globs, h.resolveName]

theorem canonicalPath (h : t.Agrees u) : t.canonicalPath = u.canonicalPath := by
  funext scope lead segments
  rw [SymbolTable.canonicalPath, SymbolTable.canonicalPath, h.resolvePath]

mutual

theorem canonical (h : t.Agrees u) (scope : ModulePath) :
    (n : Node) → t.canonical scope n = u.canonical scope n
  | .node kind children => by
    rw [SymbolTable.canonical, SymbolTable.canonical, canonicalParts h scope children,
      h.canonicalPath]
  | .group delim children => by
    rw [SymbolTable.canonical, SymbolTable.canonical, canonicalParts h scope children]
  | .word raw name => by simp only [SymbolTable.canonical]
  | .lifetime raw name => by simp only [SymbolTable.canonical]
  | .op marks => by simp only [SymbolTable.canonical]
  | .literal text => by simp only [SymbolTable.canonical]
  | .verbatim ts => by simp only [SymbolTable.canonical]

theorem canonicalParts (h : t.Agrees u) (scope : ModulePath) :
    (ns : List Node) → t.canonicalParts scope ns = u.canonicalParts scope ns
  | [] => by rw [SymbolTable.canonicalParts, SymbolTable.canonicalParts]
  | n :: ns => by
    rw [SymbolTable.canonicalParts, SymbolTable.canonicalParts, canonical h scope n,
      canonicalParts h scope ns]

end

/-- **Every type** is written the same way by both tables. -/
theorem typeText (h : t.Agrees u) : t.typeText = u.typeText := by
  funext scope type
  rw [SymbolTable.typeText, SymbolTable.typeText, h.canonical]

end Agrees

/-! ### Attaching accessors -/

theorem agrees_attachOne (t : SymbolTable) (impl : PendingImpl) : (t.attachOne impl).Agrees t where
  modules p := by rw [hasModule, hasModule, modules_attachOne]
  types p := hasType_attachOne t impl p
  imports space name := by rw [importOf, importOf, modules_attachOne]
  globs space := by rw [globsOf, globsOf, modules_attachOne]

theorem agrees_attach (t : SymbolTable) : t.attach.Agrees t where
  modules := hasModule_attach t
  types := hasType_attach t
  imports := importOf_attach t
  globs := globsOf_attach t

/-- The accessors that implementations give to the type of a path, as the table resolves the
types that they name. -/
def accessorsOf (t : SymbolTable) (impls : List PendingImpl) (p : ModulePath) : List MemberEntry :=
  (impls.filter fun impl => t.resolvePath impl.target impl.scope = some (.type p)).flatMap (·.members)

theorem Agrees.accessorsOf {t u : SymbolTable} (h : t.Agrees u) : t.accessorsOf = u.accessorsOf := by
  funext impls p
  rw [SymbolTable.accessorsOf, SymbolTable.accessorsOf, h.resolvePath]

theorem accessorsOf_cons (t : SymbolTable) (impl : PendingImpl) (impls : List PendingImpl)
    (p : ModulePath) :
    t.accessorsOf (impl :: impls) p = t.accessorsOf [impl] p ++ t.accessorsOf impls p := by
  rw [accessorsOf, accessorsOf, accessorsOf, ← List.flatMap_append, ← List.filter_append,
    List.singleton_append]

theorem lookup_attachOne (t : SymbolTable) (impl : PendingImpl) (p : ModulePath) :
    (t.attachOne impl).types.lookup p =
      (t.types.lookup p).map (·.extend (t.accessorsOf [impl] p)) := by
  have hkept (hp : t.resolvePath impl.target impl.scope ≠ some (.type p)) :
      (t.types.lookup p).map (·.extend (t.accessorsOf [impl] p)) = t.types.lookup p := by
    have hnone : t.accessorsOf [impl] p = [] := by simp [accessorsOf, hp]
    simp [hnone, TypeEntry.extend_nil]
  unfold attachOne
  split
  · rename_i path hpath
    by_cases hp : p = path
    · subst hp
      have hall : t.accessorsOf [impl] p = impl.members := by simp [accessorsOf, hpath]
      cases hentry : t.types.lookup p with
      | none => rw [hentry, Option.map_none]
      | some entry =>
        dsimp only
        rw [lookup_setKey, beq_self_eq_true, if_pos rfl, hall, Option.map_some, TypeEntry.extend]
    · have hne : t.resolvePath impl.target impl.scope ≠ some (.type p) := by
        rw [hpath]
        simpa using Ne.symm hp
      rw [hkept hne]
      split
      · rw [lookup_setKey, beq_false_of_ne hp]
        rfl
      · rfl
  · rename_i hother
    exact (hkept (hother p)).symm

/-- **The entry of a type** after attaching: what was declared, then the accessors of every
implementation that names the type. -/
theorem lookup_attach (t : SymbolTable) (p : ModulePath) :
    t.attach.types.lookup p = (t.types.lookup p).map (·.extend (t.accessorsOf t.pending p)) := by
  have run (impls : List PendingImpl) (u : SymbolTable) (hu : u.Agrees t) :
      (impls.foldl attachOne u).types.lookup p =
        (u.types.lookup p).map (·.extend (t.accessorsOf impls p)) := by
    induction impls generalizing u with
    | nil =>
      have hnone : t.accessorsOf [] p = [] := rfl
      simp [hnone, TypeEntry.extend_nil]
    | cons impl impls ih =>
      -- attaching changes no lookup, so the next one is made by a table that agrees with `t`
      have hnext := (u.agrees_attachOne impl).trans hu
      rw [List.foldl_cons, ih _ hnext, lookup_attachOne, hu.accessorsOf, Option.map_map,
        accessorsOf_cons t impl impls]
      congr 1
      funext entry
      exact TypeEntry.extend_extend ..
  exact run t.pending _ ⟨fun _ => rfl, fun _ => rfl, fun _ _ => rfl, fun _ => rfl⟩

end SymbolTable

end Scaffold.Source
