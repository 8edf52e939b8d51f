import Scaffold.Proofs.Source.Canonical
import Scaffold.Proofs.Source.Filled
import Scaffold.Proofs.Source.TypePath

/-!
# Absolute paths

In a scope a path may name a type through modules, imports and globs.  The path of the type from
`crate` on goes through modules alone, and `IsGrounded.resolvePath_self` finds that it names the
type again, whatever the scope: the modules around a type have been registered with it, and a type
that a lookup has found is hidden by no module (`visible_resolvePath`).

`absolute?` is the path by which a path is replaced in a canonical type; as a path outside the
crate begins with `::`, it always names what it replaces (`absolute?_absolute`).
-/

namespace Scaffold.Source

open Syntax

namespace SymbolTable

/-! ### Tables of a crate -/

/-- A table that has been filled, in any order, with modules and types of the crate and with what
their modules bring into scope. -/
inductive InCrate : SymbolTable → Prop
  | empty : InCrate {}
  | addModule {t : SymbolTable} {path : ModulePath} (ht : InCrate t)
      (hpath : isCratePath path = true) : InCrate (t.addModule path)
  | addType {t : SymbolTable} {space : ModulePath} (ht : InCrate t)
      (hspace : isCratePath space = true) (name : String) (kind : TypeKind)
      (members : List MemberEntry) : InCrate (t.addType space name kind members)
  | addImport {t : SymbolTable} {space : ModulePath} (ht : InCrate t)
      (hspace : isCratePath space = true) (bound : String) (path : UsePath) :
      InCrate (t.addImport space bound path)
  | addGlob {t : SymbolTable} {space : ModulePath} (ht : InCrate t)
      (hspace : isCratePath space = true) (path : UsePath) : InCrate (t.addGlob space path)
  | addImpl {t : SymbolTable} (ht : InCrate t) (impl : PendingImpl) : InCrate (t.addImpl impl)
  | attach {t : SymbolTable} (ht : InCrate t) : InCrate t.attach

theorem Filled.inCrate {t : SymbolTable} (ht : t.Filled) : t.InCrate := by
  induction ht with
  | empty => exact .empty
  | addModule _ hpath ih => exact ih.addModule hpath
  | addType _ hspace name kind members ih => exact ih.addType hspace name kind members
  | addImport ht hspace bound path ih =>
    exact ih.addImport (ht.isClosed.inCrate _ hspace) bound path
  | addGlob ht hspace path ih => exact ih.addGlob (ht.isClosed.inCrate _ hspace) path
  | addImpl _ impl ih => exact ih.addImpl impl
  | attach _ ih => exact ih.attach

/-- A table in which every type stands in modules of the crate that are there. -/
structure IsGrounded (t : SymbolTable) : Prop where
  key : ∀ p entry, t.types.lookup p = some entry → p = entry.space ++ [entry.name]
  space : ∀ p entry, t.types.lookup p = some entry → isCratePath entry.space = true
  modules : ∀ p entry, t.types.lookup p = some entry →
    ∀ i < entry.space.length, t.hasModule (entry.space.take (i + 1)) = true

namespace IsGrounded

variable {t : SymbolTable}

/-- Where modules are added and types keep their places. -/
theorem of_same {u : SymbolTable} (ht : t.IsGrounded)
    (hmodule : ∀ p, t.hasModule p = true → u.hasModule p = true)
    (htypes : ∀ p entry, u.types.lookup p = some entry → ∃ old, t.types.lookup p = some old ∧
      entry.name = old.name ∧ entry.space = old.space) : u.IsGrounded := by
  refine ⟨fun p entry h => ?_, fun p entry h => ?_, fun p entry h i hi => ?_⟩ <;>
    obtain ⟨old, hold, hname, hspace⟩ := htypes p entry h
  · rw [hname, hspace]
    exact ht.key p old hold
  · rw [hspace]
    exact ht.space p old hold
  · rw [hspace] at hi ⊢
    exact hmodule _ (ht.modules p old hold i hi)

theorem addModule (ht : t.IsGrounded) (path : ModulePath) : (t.addModule path).IsGrounded := by
  refine ht.of_same (fun p hp => ?_) fun p entry h => ⟨entry, h, rfl, rfl⟩
  rw [hasModule_addModule, hp, Bool.true_or]

/-- A type comes with the modules around it. -/
theorem addType (ht : t.IsGrounded) {space : ModulePath} (hspace : isCratePath space = true)
    (name : String) (kind : TypeKind) (members : List MemberEntry) :
    (t.addType space name kind members).IsGrounded := by
  have hgrounded := ht.addModule space
  have hlookup (p : ModulePath) : (t.addType space name kind members).types.lookup p =
      if p == space ++ [name] then some ⟨name, space, kind, members⟩ else t.types.lookup p :=
    lookup_setKey ..
  have haround (i : ℕ) (hi : i < space.length) :
      (t.addModule space).hasModule (space.take (i + 1)) = true := by
    have hmem := (mem_withAncestors_of_isCratePath hspace).2 ⟨i, hi, rfl⟩
    rw [hasModule_addModule, List.contains_iff_mem.2 hmem, Bool.or_true]
  -- an entry is the new one, or it was there before
  refine ⟨fun p entry h => ?_, fun p entry h => ?_, fun p entry h => ?_⟩ <;>
    rw [hlookup] at h <;> split_ifs at h with hp
  · obtain rfl := Option.some.inj h
    exact eq_of_beq hp
  · exact hgrounded.key p entry h
  · obtain rfl := Option.some.inj h
    exact hspace
  · exact hgrounded.space p entry h
  · obtain rfl := Option.some.inj h
    exact haround
  · exact hgrounded.modules p entry h

theorem attach (ht : t.IsGrounded) : t.attach.IsGrounded := by
  refine List.foldlRecOn t.pending attachOne ⟨ht.key, ht.space, ht.modules⟩ fun u hu impl _ => ?_
  refine hu.of_same (fun p hp => ?_) fun p entry h => ?_
  · rwa [hasModule, modules_attachOne]
  · obtain ⟨old, hold, hname, hspace, -⟩ := exists_of_lookup_attachOne h
    exact ⟨old, hold, hname, hspace⟩

end IsGrounded

/-- **In a table of a crate** every type stands in modules that are there. -/
theorem InCrate.isGrounded {t : SymbolTable} (ht : t.InCrate) : t.IsGrounded := by
  induction ht with
  | empty =>
    have hnone (p : ModulePath) (entry : TypeEntry) :
        ({} : SymbolTable).types.lookup p ≠ some entry := by simp
    exact ⟨fun p entry h => absurd h (hnone p entry), fun p entry h => absurd h (hnone p entry),
      fun p entry h => absurd h (hnone p entry)⟩
  | addModule _ _ ih => exact ih.addModule _
  | addType _ hspace name kind members ih => exact ih.addType hspace name kind members
  | addImport _ _ bound path ih =>
    refine ih.of_same (fun p hp => ?_) fun p entry h => ⟨entry, h, rfl, rfl⟩
    rw [hasModule_addImport, hp, Bool.true_or]
  | addGlob _ _ path ih =>
    refine ih.of_same (fun p hp => ?_) fun p entry h => ⟨entry, h, rfl, rfl⟩
    rw [hasModule_addGlob, hp, Bool.true_or]
  | addImpl _ impl ih => exact ⟨ih.key, ih.space, ih.modules⟩
  | attach _ ih => exact ih.attach

/-! ### The way from the crate -/

section Grounded

variable {t : SymbolTable} (ht : t.IsGrounded)

include ht

/-- The path of a type leads from the crate. -/
theorem IsGrounded.exists_path {p : ModulePath} (htype : t.hasType p = true) :
    ∃ names name, p = "crate" :: (names ++ [name]) := by
  obtain ⟨entry, hentry⟩ := Option.isSome_iff_exists.1 htype
  obtain ⟨⟨names, hspace⟩, -⟩ := exists_of_isCratePath (ht.space p entry hentry)
  exact ⟨names, entry.name, by rw [ht.key p entry hentry, hspace, List.cons_append]⟩

/-- **The path of a type** names the type in every scope, where no module hides it. -/
theorem IsGrounded.resolvePath_self
    (hnames : ∀ p entry, t.types.lookup p = some entry → Ident.isName entry.name = true)
    {p : ModulePath} (htype : t.hasType p = true) (hmodule : t.hasModule p = false)
    (scope : ModulePath) : t.resolvePath ⟨p, false⟩ scope = some (.type p) := by
  obtain ⟨entry, hentry⟩ := Option.isSome_iff_exists.1 htype
  have hkey := ht.key p entry hentry
  have hfull : isCratePath (entry.space ++ [entry.name]) = true :=
    isCratePath_append (ht.space p entry hentry) (hnames p entry hentry)
  have haround := ht.modules p entry hentry
  obtain ⟨⟨names, hspace⟩, -⟩ := exists_of_isCratePath (ht.space p entry hentry)
  rw [hspace] at hkey hfull haround
  subst hkey
  have hwords : ∀ n ∈ names ++ [entry.name], Ident.isName n = true := by
    rw [isCratePath, Bool.and_eq_true] at hfull
    exact List.all_eq_true.1 hfull.2
  have hsuper : ∀ n ∈ names ++ [entry.name], n ≠ "super" :=
    fun n hn => isName_ne (hwords n hn) (by decide)
  -- from the crate on each name is that of a module around the type
  have hway : ∀ i < names.length, t.hasModule (["crate"] ++ names.take (i + 1)) = true :=
    fun i hi => haround (i + 1) (Nat.succ_lt_succ hi)
  exact stepAll_modules hsuper hway hmodule htype _

end Grounded

/-! ### Types that are seen -/

end SymbolTable

/-- Whether a resolution, where it is a type, is one that no module hides. -/
def Resolution.Visible (t : SymbolTable) : Resolution → Prop
  | .type p => t.hasType p = true ∧ t.hasModule p = false
  | _ => True

namespace SymbolTable

variable {t : SymbolTable}

section Steps

variable {inModule : ModulePath → String → Option Resolution}
  (hin : ∀ space name r, inModule space name = some r → r.Visible t)

include hin

theorem visible_stepAll {names : List String} {start r : Resolution} (hstart : start.Visible t)
    (h : stepAll inModule start names = some r) : r.Visible t := by
  induction names generalizing start with
  | nil =>
    obtain rfl := Option.some.inj h
    exact hstart
  | cons name names ih =>
    obtain ⟨next, hnext, hr⟩ := Option.bind_eq_some_iff.1 h
    refine ih ?_ hr
    cases start with
    | module_ space =>
      rw [stepInto] at hnext
      split_ifs at hnext
      · obtain ⟨p, -, rfl⟩ := Option.map_eq_some_iff.1 hnext
        trivial
      · exact hin space name next hnext
    | external segments =>
      obtain rfl := Option.some.inj hnext
      trivial
    | type p => cases hnext

theorem visible_resolveWith {path : UsePath} {scope : ModulePath} {inUse : Bool} {r : Resolution}
    (h : resolveWith inModule path scope inUse = some r) : r.Visible t := by
  have hmodule (p : ModulePath) : (Resolution.module_ p).Visible t := trivial
  unfold resolveWith at h
  split_ifs at h
  · obtain rfl := Option.some.inj h
    trivial
  -- one case for each way in which a path begins; the modules there need no proof
  split at h
  · cases h
  · exact visible_stepAll hin (hmodule _) h
  · exact visible_stepAll hin (hmodule _) h
  · obtain ⟨p, -, hr⟩ := Option.bind_eq_some_iff.1 h
    exact visible_stepAll hin (hmodule _) hr
  · split at h
    · rename_i start hstart
      exact visible_stepAll hin (hin _ _ _ hstart) h
    · split_ifs at h
      obtain rfl := Option.some.inj h
      trivial

end Steps

/-- A lookup in a module finds a module before a type of the same path. -/
theorem visible_resolveName (depth : ℕ) (space : ModulePath) (name : String) (r : Resolution)
    (h : t.resolveName depth space name = some r) : r.Visible t := by
  induction depth using Nat.strongRecOn generalizing space name r with
  | ind depth ih =>
  rcases resolveName_cases h with ⟨-, rfl⟩ | ⟨htype, rfl⟩ | ⟨target, -, hr⟩ |
    ⟨d, glob, source, rfl, -, -, hr⟩
  · trivial
  · refine ⟨htype, ?_⟩
    -- a module of this path would have been found instead
    by_contra hmodule
    rw [resolveName_module (Bool.of_not_eq_false hmodule)] at h
    cases h
  · rcases hr with ⟨-, rfl⟩ | ⟨d, rfl, hr⟩
    · trivial
    · exact visible_resolveWith (ih d (Nat.lt_succ_self d)) hr
  · exact ih d (Nat.lt_succ_self d) source name r hr

/-- **A type that a path names** is there, and no module hides it. -/
theorem visible_resolvePath {path : UsePath} {scope : ModulePath} {r : Resolution}
    (h : t.resolvePath path scope = some r) : r.Visible t :=
  visible_resolveWith (visible_resolveName maxDepth) h

/-! ### Absolute paths -/

/-- **The path by which a path is replaced** in a scope: the path of the type that it names, or the
path after `::` of what it names outside the crate. -/
def absolute? (t : SymbolTable) (scope : ModulePath) (path : UsePath) : Option UsePath :=
  match t.resolvePath path scope with
  | some (.type p) => some ⟨p, false⟩
  | some (.external names) => some ⟨names, true⟩
  | _ => none

/-- **An absolute path stays:** it is replaced by itself. -/
theorem absolute?_absolute (ht : t.IsGrounded)
    (hnames : ∀ p entry, t.types.lookup p = some entry → Ident.isName entry.name = true)
    {scope : ModulePath} {path target : UsePath} (h : t.absolute? scope path = some target) :
    t.absolute? scope target = some target := by
  unfold absolute? at h ⊢
  split at h
  · rename_i p hp
    obtain rfl := Option.some.inj h
    obtain ⟨htype, hmodule⟩ := visible_resolvePath hp
    rw [ht.resolvePath_self hnames htype hmodule]
  · obtain rfl := Option.some.inj h
    rfl
  · cases h

end SymbolTable

end Scaffold.Source
