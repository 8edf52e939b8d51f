import Scaffold.Proofs.Source.Table

/-!
# What lookups keep

A lookup goes from module to module: to `crate`, to the scope, to a module around one that was
reached, to a module of the table, and through imports and globs.  What holds of all of these holds
of every module that a path resolves to, and what holds of the names in the path and in the use
declarations holds of every name outside the crate.  `SymbolTable.Keeps` lists what is asked of the
table, and `Keeps.resolvePath` says so of paths.
-/

namespace Scaffold.Source

/-- Whether a resolution stays within given modules and names; a type is always one of the table. -/
def Resolution.Within (t : SymbolTable) (inside : ModulePath → Prop) (spelled : String → Prop) :
    Resolution → Prop
  | .module_ path => inside path
  | .type path => t.hasType path = true
  | .external segments => ∀ name ∈ segments, spelled name

/-- What is asked of modules and names so that no lookup leads out of them. -/
structure SymbolTable.Keeps (t : SymbolTable) (inside : ModulePath → Prop)
    (spelled : String → Prop) : Prop where
  crate : ∀ scope, inside scope → inside ["crate"]
  parent : ∀ p q, inside p → parent? p = some q → inside q
  module_ : ∀ p, t.hasModule p = true → inside p
  imports : ∀ space name target, t.importOf space name = some target →
    ∀ s ∈ target.segments, spelled s
  globs : ∀ space, ∀ glob ∈ t.globsOf space, ∀ s ∈ glob.segments, spelled s

namespace SymbolTable

variable {t : SymbolTable} {inside : ModulePath → Prop} {spelled : String → Prop}

/-- **What a name can mean:** a module or a type of its module, what it is imported for, or what it
means in a module that is opened. -/
theorem resolveName_cases {depth : Nat} {space : ModulePath} {name : String} {r : Resolution}
    (h : t.resolveName depth space name = some r) :
    (t.hasModule (space ++ [name]) = true ∧ r = .module_ (space ++ [name])) ∨
    (t.hasType (space ++ [name]) = true ∧ r = .type (space ++ [name])) ∨
    (∃ target, t.importOf space name = some target ∧
      (target = ⟨[name], false⟩ ∧ r = .external [name] ∨
        ∃ d, depth = d + 1 ∧ resolveWith (t.resolveName d) target space true = some r)) ∨
    ∃ d glob source, depth = d + 1 ∧ glob ∈ t.globsOf space ∧
      resolveWith (t.resolveName d) glob space true = some (.module_ source) ∧
      t.resolveName d source name = some r := by
  unfold resolveName at h
  dsimp only at h
  split_ifs at h with hmodule htype
  · exact .inl ⟨hmodule, (Option.some.inj h).symm⟩
  · exact .inr (.inl ⟨htype, (Option.some.inj h).symm⟩)
  refine .inr (.inr ?_)
  split at h
  · cases h
  rename_i entry hentry
  have himportOf : t.importOf space name = entry.imports.lookup name := by
    rw [importOf, hentry]
    rfl
  have hglobsOf : t.globsOf space = entry.globs := by
    rw [globsOf, hentry]
    rfl
  rw [himportOf, hglobsOf]
  split at h
  · rename_i target himport
    split_ifs at h with hself
    exact .inl ⟨target, himport, .inl ⟨hself, (Option.some.inj h).symm⟩⟩
  · rename_i target d himport
    split_ifs at h with hself
    · exact .inl ⟨target, himport, .inl ⟨hself, (Option.some.inj h).symm⟩⟩
    · exact .inl ⟨target, himport, .inr ⟨d, rfl, h⟩⟩
  · cases h
  · rename_i d _
    obtain ⟨glob, hglob, hfound⟩ := List.exists_of_findSome?_eq_some h
    split at hfound
    · rename_i source hsource
      split_ifs at hfound
      exact .inr ⟨d, glob, source, rfl, hglob, hsource, hfound⟩
    · cases hfound

namespace Keeps

variable (ht : t.Keeps inside spelled)

include ht

section Steps

variable {inModule : ModulePath → String → Option Resolution}
  (hin : ∀ space name r, inside space → inModule space name = some r → r.Within t inside spelled)

include hin

theorem stepInto {name : String} (hname : spelled name) {start r : Resolution}
    (hstart : start.Within t inside spelled)
    (h : SymbolTable.stepInto inModule name start = some r) : r.Within t inside spelled := by
  cases start with
  | module_ path =>
    rw [SymbolTable.stepInto] at h
    split_ifs at h
    · obtain ⟨p, hp, rfl⟩ := Option.map_eq_some_iff.1 h
      exact ht.parent path p hstart hp
    · exact hin path name r hstart h
  | external segments =>
    obtain rfl := Option.some.inj h
    intro n hn
    rcases List.mem_append.1 hn with hn | hn
    · exact hstart n hn
    · rwa [List.mem_singleton.1 hn]
  | type path => cases h

theorem stepAll {names : List String} (hnames : ∀ n ∈ names, spelled n) {start r : Resolution}
    (hstart : start.Within t inside spelled)
    (h : SymbolTable.stepAll inModule start names = some r) : r.Within t inside spelled := by
  induction names generalizing start with
  | nil =>
    obtain rfl := Option.some.inj h
    exact hstart
  | cons name names ih =>
    obtain ⟨hname, hrest⟩ := List.forall_mem_cons.1 hnames
    obtain ⟨next, hnext, hr⟩ := Option.bind_eq_some_iff.1 h
    exact ih hrest (stepInto ht hin hname hstart hnext) hr

theorem resolveWith {path : UsePath} {scope : ModulePath} {inUse : Bool} (hscope : inside scope)
    (hpath : ∀ n ∈ path.segments, spelled n) {r : Resolution}
    (h : SymbolTable.resolveWith inModule path scope inUse = some r) :
    r.Within t inside spelled := by
  unfold SymbolTable.resolveWith at h
  split_ifs at h
  · obtain rfl := Option.some.inj h
    exact hpath
  have hrest {first : String} {rest : List String} (heq : path.segments = first :: rest) :
      ∀ n ∈ rest, spelled n :=
    fun n hn => hpath n (heq ▸ List.mem_cons_of_mem _ hn)
  have hmodule {p : ModulePath} (hp : inside p) : (Resolution.module_ p).Within t inside spelled := hp
  -- one case for each way in which a path begins
  split at h
  · cases h
  · rename_i heq
    exact stepAll ht hin (hrest heq) (hmodule (ht.crate scope hscope)) h
  · rename_i heq
    exact stepAll ht hin (hrest heq) (hmodule hscope) h
  · rename_i heq
    obtain ⟨p, hp, hr⟩ := Option.bind_eq_some_iff.1 h
    exact stepAll ht hin (hrest heq) (hmodule (ht.parent scope p hscope hp)) hr
  · rename_i name rest _ _ _ heq
    split at h
    · rename_i start hstart
      exact stepAll ht hin (hrest heq) (hin scope name start hscope hstart) h
    · split_ifs at h
      obtain rfl := Option.some.inj h
      exact hpath

end Steps

/-- **What a name means** in a module, whatever imports and globs are followed. -/
theorem resolveName (depth : Nat) (space : ModulePath) (name : String) (r : Resolution)
    (hspace : inside space) (h : t.resolveName depth space name = some r) :
    r.Within t inside spelled := by
  induction depth using Nat.strongRecOn generalizing space name r with
  | ind depth ih =>
  rcases resolveName_cases h with ⟨hmodule, rfl⟩ | ⟨htype, rfl⟩ | ⟨target, himport, hr⟩ |
    ⟨d, glob, source, rfl, hglob, hsource, hr⟩
  · exact ht.module_ _ hmodule
  · exact htype
  · have hsegments := ht.imports space name target himport
    rcases hr with ⟨rfl, rfl⟩ | ⟨d, rfl, hr⟩
    · exact hsegments
    · exact resolveWith ht (ih d (Nat.lt_succ_self d)) hspace hsegments hr
  · -- the name is looked up in the module that is opened
    have hsegments := ht.globs space glob hglob
    have hinside := resolveWith ht (ih d (Nat.lt_succ_self d)) hspace hsegments hsource
    exact ih d (Nat.lt_succ_self d) source name r hinside hr

/-- **What a path names** in a module that is kept. -/
theorem resolvePath {path : UsePath} (hpath : ∀ n ∈ path.segments, spelled n) {scope : ModulePath}
    (hscope : inside scope) {r : Resolution} (h : t.resolvePath path scope = some r) :
    r.Within t inside spelled :=
  resolveWith ht (resolveName ht maxDepth) hscope hpath h

end Keeps

end SymbolTable

end Scaffold.Source
