import Scaffold.Proofs.Source.Import
import Scaffold.Proofs.Source.TypePath

/-!
# Imports of what is imported

An import may name another import, and a glob may open a module into which names are brought from
elsewhere.  A lookup then goes from site to site, a site being a name in a module, and every import
and every glob on the way uses up one of the `maxDepth` that may be followed.

* `resolvePath_reexported`: where the way ends at a type after `n` of them, the type is found if
  `n ≤ 16`, and nothing is found otherwise.
* `resolvePath_endless`: where imports lead to imports for ever, nothing is found as long as no path
  begins with the name that is looked up next.  Such a path is taken for one from outside when its
  first name means nothing any more, so the last of them that is reached comes out as external.

Both rest on `resolveWith_followPath`: the modules that a path goes through are found at any depth,
so what the path means is decided by the first name in it that is no module.
-/

namespace Scaffold.Source

open Syntax

/-- A name in a module. -/
structure Site where
  space : ModulePath
  name : String
  deriving DecidableEq, Inhabited

/-- The path of a module or type that has this name in this module. -/
def Site.path (s : Site) : ModulePath := s.space ++ [s.name]

namespace SymbolTable

variable {t : SymbolTable}

/-- Whether a name is neither that of a module nor that of a type. -/
def Undeclared (t : SymbolTable) (s : Site) : Prop :=
  t.hasModule s.path = false ∧ t.hasType s.path = false

instance (t : SymbolTable) (s : Site) : Decidable (t.Undeclared s) :=
  inferInstanceAs (Decidable (_ ∧ _))

/-! ### Following paths through modules -/

/-- Follows names from a module through the modules of the table as far as these lead: the module
that is reached, and the names that are left. -/
def follow (t : SymbolTable) : ModulePath → List String → Option (ModulePath × List String)
  | space, [] => some (space, [])
  | space, name :: names =>
    if name = "super" then (parent? space).bind (t.follow · names)
    else if t.hasModule (space ++ [name]) then t.follow (space ++ [name]) names
    else some (space, name :: names)

/-- The module at which a path sets out, and the names that lead on from there. -/
def setOut (space : ModulePath) : List String → Option (ModulePath × List String)
  | "crate" :: names => some (["crate"], names)
  | "self" :: names => some (space, names)
  | "super" :: names => (parent? space).map (·, names)
  | names => some (space, names)

/-- **Follows a path** that is written in a module, through the modules of the table. -/
def followPath (t : SymbolTable) (space : ModulePath) (path : List String) :
    Option (ModulePath × List String) :=
  (setOut space path).bind fun start => t.follow start.1 start.2

section Follow

variable {space found : ModulePath} {names rest : List String} {name : String}

/-- Names that are left begin with one that is no module. -/
theorem follow_eq_cons (h : t.follow space names = some (found, name :: rest)) :
    name ≠ "super" ∧ t.hasModule (found ++ [name]) = false := by
  induction names generalizing space with
  | nil => cases h
  | cons first names ih =>
    rw [follow] at h
    split_ifs at h with hsuper hmodule
    · obtain ⟨outer, -, h⟩ := Option.bind_eq_some_iff.1 h
      exact ih h
    · exact ih h
    · obtain ⟨rfl, hnames⟩ := Prod.mk.inj (Option.some.inj h)
      obtain ⟨rfl, -⟩ := List.cons.inj hnames
      exact ⟨hsuper, Bool.eq_false_iff.2 hmodule⟩

theorem length_le_of_follow (h : t.follow space names = some (found, rest)) :
    rest.length ≤ names.length := by
  induction names generalizing space with
  | nil =>
    obtain ⟨-, rfl⟩ := Prod.mk.inj (Option.some.inj h)
    exact Nat.le_refl _
  | cons first names ih =>
    rw [follow] at h
    split_ifs at h
    · obtain ⟨outer, -, h⟩ := Option.bind_eq_some_iff.1 h
      exact Nat.le_succ_of_le (ih h)
    · exact Nat.le_succ_of_le (ih h)
    · obtain ⟨-, rfl⟩ := Prod.mk.inj (Option.some.inj h)
      exact Nat.le_refl _

/-- Modules are found whatever may still be followed. -/
theorem stepAll_follow (h : t.follow space names = some (found, rest)) (depth : Nat) :
    stepAll (t.resolveName depth) (.module_ space) names =
      stepAll (t.resolveName depth) (.module_ found) rest := by
  induction names generalizing space with
  | nil =>
    obtain ⟨rfl, rfl⟩ := Prod.mk.inj (Option.some.inj h)
    rfl
  | cons first names ih =>
    rw [follow] at h
    split_ifs at h with hsuper hmodule
    · obtain ⟨outer, houter, h⟩ := Option.bind_eq_some_iff.1 h
      rw [stepAll, stepInto, if_pos hsuper, houter, Option.map_some, Option.bind_some, ih h]
    · rw [stepAll, stepInto, if_neg hsuper, resolveName_module hmodule, Option.bind_some, ih h]
    · obtain ⟨rfl, rfl⟩ := Prod.mk.inj (Option.some.inj h)
      rfl

/-- A name that is no module is looked up, and then the names after it. -/
theorem stepAll_name (hname : name ≠ "super") (depth : Nat) :
    stepAll (t.resolveName depth) (.module_ space) (name :: rest) =
      (t.resolveName depth space name).bind (stepAll (t.resolveName depth) · rest) := by
  rw [stepAll, stepInto, if_neg hname]

end Follow

section SetOut

variable {first : String} {names : List String} {space : ModulePath}

theorem setOut_name (hfirst : first ∉ anchors) :
    setOut space (first :: names) = some (space, first :: names) := by
  simp only [anchors, List.mem_cons, List.not_mem_nil, or_false, not_or] at hfirst
  obtain ⟨hcrate, hself, hsuper⟩ := hfirst
  unfold setOut
  split
  · rename_i heq
    exact absurd (List.cons.inj heq).1 hcrate
  · rename_i heq
    exact absurd (List.cons.inj heq).1 hself
  · rename_i heq
    exact absurd (List.cons.inj heq).1 hsuper
  · rfl

/-- A path from an anchor leads on from a module. -/
theorem resolveWith_anchor (hfirst : first ∈ anchors)
    (inModule : ModulePath → String → Option Resolution) (inUse : Bool) :
    resolveWith inModule ⟨first :: names, false⟩ space inUse =
      (setOut space (first :: names)).bind fun start =>
        stepAll inModule (.module_ start.1) start.2 := by
  simp only [anchors, List.mem_cons, List.not_mem_nil, or_false] at hfirst
  rcases hfirst with rfl | rfl | rfl
  · rfl
  · rfl
  · cases hparent : parent? space <;> simp [resolveWith, setOut, hparent]

theorem names_of_setOut (hfirst : first ∈ anchors) {start : ModulePath × List String}
    (h : setOut space (first :: names) = some start) : start.2 = names := by
  simp only [anchors, List.mem_cons, List.not_mem_nil, or_false] at hfirst
  rcases hfirst with rfl | rfl | rfl
  · obtain rfl := Option.some.inj h
    rfl
  · obtain rfl := Option.some.inj h
    rfl
  · obtain ⟨outer, -, rfl⟩ := Option.map_eq_some_iff.1 h
    rfl

end SetOut

/-- **What the target of an import means** is decided by the first name in it that is no module.  If
that means nothing, the target is taken for a path from outside where it begins with this name. -/
theorem resolveWith_followPath {path rest : List String} {space found : ModulePath} {name : String}
    (h : t.followPath space path = some (found, name :: rest)) (depth : Nat) :
    resolveWith (t.resolveName depth) ⟨path, false⟩ space true =
      match t.resolveName depth found name with
      | some r => stepAll (t.resolveName depth) r rest
      | none => if path = name :: rest then some (.external path) else none := by
  obtain ⟨⟨start, names⟩, hstart, hfollow⟩ := Option.bind_eq_some_iff.1 h
  dsimp only at hfollow
  have hname := (follow_eq_cons hfollow).1
  have hsteps : stepAll (t.resolveName depth) (.module_ start) names =
      (t.resolveName depth found name).bind (stepAll (t.resolveName depth) · rest) := by
    rw [stepAll_follow hfollow, stepAll_name hname]
  cases path with
  | nil =>
    obtain ⟨rfl, rfl⟩ := Prod.mk.inj (Option.some.inj hstart)
    cases hfollow
  | cons first tail =>
    -- where something stands before the name, the path does not begin with it
    have hlater (hlength : (name :: rest).length ≤ tail.length) : first :: tail ≠ name :: rest := by
      intro heq
      rw [← heq, List.length_cons] at hlength
      omega
    by_cases hfirst : first ∈ anchors
    · obtain rfl : names = tail := names_of_setOut hfirst hstart
      rw [resolveWith_anchor hfirst, hstart, Option.bind_some, hsteps,
        if_neg (hlater (length_le_of_follow hfollow))]
      cases t.resolveName depth found name <;> rfl
    · obtain ⟨rfl, rfl⟩ := Prod.mk.inj (Option.some.inj ((setOut_name hfirst).symm.trans hstart))
      have hsuper : first ≠ "super" := by
        rintro rfl
        exact hfirst (by decide)
      rw [resolveWith_name _ hfirst]
      rw [follow, if_neg hsuper] at hfollow
      split_ifs at hfollow with hmodule
      · rw [stepAll_name hsuper, resolveName_module hmodule] at hsteps
        rw [resolveName_module hmodule, if_neg (hlater (length_le_of_follow hfollow))]
        refine hsteps.trans ?_
        cases t.resolveName depth found name <;> rfl
      · obtain ⟨rfl, hnames⟩ := Prod.mk.inj (Option.some.inj hfollow)
        obtain ⟨rfl, rfl⟩ := List.cons.inj hnames
        rw [if_pos rfl, Bool.not_true, Bool.and_false]
        cases t.resolveName depth space first <;> rfl

/-- A path of one name means what the name means. -/
theorem resolvePath_name {name : String} (hname : name ∉ anchors) (space : ModulePath) :
    t.resolvePath ⟨[name], false⟩ space = t.resolveName maxDepth space name := by
  rw [resolvePath, resolveWith_name _ hname]
  cases t.resolveName maxDepth space name <;> rfl

/-- A name that is neither declared nor imported stands for what it means in the module that the
only glob of its module opens. -/
theorem resolveName_opened {s : Site} (hs : t.Undeclared s)
    (himport : t.importOf s.space s.name = none) {glob : UsePath}
    (hglobs : t.globsOf s.space = [glob]) (depth : Nat) :
    t.resolveName depth s.space s.name =
      match depth with
      | 0 => none
      | depth + 1 =>
        match resolveWith (t.resolveName depth) glob s.space true with
        | some (.module_ source) =>
          if source = s.space then none else t.resolveName depth source s.name
        | _ => none := by
  obtain ⟨hmodule, htype⟩ := hs
  rw [Site.path] at hmodule htype
  unfold importOf at himport
  unfold globsOf at hglobs
  conv_lhs => unfold resolveName
  cases hentry : t.modules.lookup s.space with
  | none =>
    rw [hentry] at hglobs
    cases hglobs
  | some entry =>
    rw [hentry] at himport hglobs
    have himports : entry.imports.lookup s.name = none := himport
    have hglob : entry.globs = [glob] := hglobs
    cases depth with
    | zero => simp [hmodule, htype, himports]
    | succ depth =>
      simp only [hmodule, htype, himports, hglob, Bool.false_eq_true, if_false]
      exact List.findSome?_singleton

/-! ### Reexports -/

/-- Whether a name is brought into its module from the next site: it is imported from there, or the
only glob of the module opens the module of that site.  The path is written from `crate` and goes
through modules of the table. -/
inductive Reexports (t : SymbolTable) (s next : Site) : Prop
  | imported {names : List String}
    (himport : t.importOf s.space s.name = some ⟨"crate" :: names, false⟩)
    (hway : t.follow ["crate"] names = some (next.space, [next.name]))
  | opened {names : List String} (himport : t.importOf s.space s.name = none)
    (hglob : t.globsOf s.space = [⟨"crate" :: names, false⟩])
    (hway : t.follow ["crate"] names = some (next.space, [])) (hname : next.name = s.name)

section Reexports

variable {s next other : Site}

/-- From every site there is at most one next. -/
theorem Reexports.unique (h : t.Reexports s next) (h' : t.Reexports s other) : next = other := by
  obtain ⟨space, name⟩ := next
  obtain ⟨space', name'⟩ := other
  cases h with
  | imported himport hway =>
    cases h' with
    | imported himport' hway' =>
      obtain rfl := by simpa [himport] using himport'
      obtain ⟨rfl, hnames⟩ := Prod.mk.inj (Option.some.inj (hway.symm.trans hway'))
      obtain ⟨rfl, -⟩ := List.cons.inj hnames
      rfl
    | opened himport' => cases himport.symm.trans himport'
  | opened himport hglob hway hname =>
    cases h' with
    | imported himport' => cases himport.symm.trans himport'
    | opened _ hglob' hway' hname' =>
      obtain rfl := by simpa [hglob] using hglob'
      obtain ⟨rfl, -⟩ := Prod.mk.inj (Option.some.inj (hway.symm.trans hway'))
      obtain rfl : name = name' := hname.trans hname'.symm
      rfl

/-- **A step of a reexport** uses up one import or glob. -/
theorem Reexports.resolveName (h : t.Reexports s next) (hs : t.Undeclared s) (hne : next ≠ s)
    (depth : Nat) : t.resolveName depth s.space s.name =
      match depth with
      | 0 => none
      | depth + 1 => t.resolveName depth next.space next.name := by
  cases h with
  | @imported names himport hway =>
    have hlength := length_le_of_follow hway
    have hother (name : String) : "crate" :: names ≠ [name] := by
      intro heq
      rw [(List.cons.inj heq).2] at hlength
      cases hlength
    have htarget : (⟨"crate" :: names, false⟩ : UsePath) ≠ ⟨[s.name], false⟩ :=
      fun heq => hother _ (UsePath.mk.inj heq).1
    rw [resolveName_imported hs.1 hs.2 himport, if_neg htarget]
    cases depth with
    | zero => rfl
    | succ depth =>
      have hpath : t.followPath s.space ("crate" :: names) = some (next.space, [next.name]) := hway
      dsimp only
      rw [resolveWith_followPath hpath, if_neg (hother _)]
      cases t.resolveName depth next.space next.name <;> rfl
  | @opened names himport hglob hway hname =>
    rw [resolveName_opened hs himport hglob]
    cases depth with
    | zero => rfl
    | succ depth =>
      have hmodule : resolveWith (t.resolveName depth) ⟨"crate" :: names, false⟩ s.space true =
          some (.module_ next.space) := stepAll_follow hway depth
      have hspace : next.space ≠ s.space := by
        intro hspace
        apply hne
        obtain ⟨space, name⟩ := next
        obtain ⟨space', name'⟩ := s
        simp_all
      dsimp only
      rw [hmodule, hname]
      dsimp only
      rw [if_neg hspace]

/-- Sites on the way to a type differ from the next one: a glob of a module itself leads nowhere. -/
theorem Reexports.ne_next {site : ℕ → Site} {n : ℕ}
    (hway : ∀ i < n, t.Undeclared (site i) ∧ t.Reexports (site i) (site (i + 1)))
    (htype : t.hasType (site n).path = true) : ∀ i < n, site (i + 1) ≠ site i := by
  intro i hi heq
  have hstay : ∀ k, i + k ≤ n → site (i + k) = site i := by
    intro k
    induction k with
    | zero => exact fun _ => rfl
    | succ k ih =>
      intro hk
      have hnext := (hway (i + k) (by omega)).2
      rw [ih (by omega)] at hnext
      exact (hnext.unique (hway i hi).2).trans heq
  have hlast := hstay (n - i) (by omega)
  rw [Nat.add_sub_cancel' (Nat.le_of_lt hi)] at hlast
  rw [hlast, (hway i hi).1.2] at htype
  cases htype

/-- The type at the end of reexports is found where as many may be followed. -/
theorem resolveName_reexported {site : ℕ → Site} {n : ℕ}
    (hway : ∀ i < n, t.Undeclared (site i) ∧ t.Reexports (site i) (site (i + 1)))
    (hmodule : t.hasModule (site n).path = false) (htype : t.hasType (site n).path = true)
    (depth : ℕ) : t.resolveName depth (site 0).space (site 0).name =
      if n ≤ depth then some (.type (site n).path) else none := by
  induction n generalizing site depth with
  | zero => rw [if_pos (Nat.zero_le depth), resolveName_type hmodule htype, Site.path]
  | succ n ih =>
    obtain ⟨hs, hnext⟩ := hway 0 (Nat.succ_pos n)
    have hne := Reexports.ne_next hway htype 0 (Nat.succ_pos n)
    rw [hnext.resolveName hs hne]
    cases depth with
    | zero => rfl
    | succ depth =>
      have hrest := @ih (fun i => site (i + 1))
        (fun i hi => hway (i + 1) (Nat.succ_lt_succ hi)) hmodule htype depth
      dsimp only
      rw [hrest]
      simp only [Nat.succ_le_succ_iff]

/-- **The bound on reexports is exact:** a type at the end of `n` imports and globs, one after the
other, is found under the first name if there are at most sixteen, and otherwise nothing is. -/
theorem resolvePath_reexported {site : ℕ → Site} {n : ℕ}
    (hway : ∀ i < n, t.Undeclared (site i) ∧ t.Reexports (site i) (site (i + 1)))
    (hmodule : t.hasModule (site n).path = false) (htype : t.hasType (site n).path = true)
    (hname : (site 0).name ∉ anchors) :
    t.resolvePath ⟨[(site 0).name], false⟩ (site 0).space =
      if n ≤ 16 then some (.type (site n).path) else none := by
  rw [resolvePath_name hname]
  exact resolveName_reexported hway hmodule htype maxDepth

/-- The module of the `i`-th site. -/
def reexportSpace (i : ℕ) : ModulePath := ["crate", "m" ++ toString i]

/-- The `i`-th site: the name changes where it is imported, and stays where a module is opened. -/
def reexportSite (i : ℕ) : Site := ⟨reexportSpace i, "T" ++ toString ((i + 1) / 2)⟩

/-- A table in which a type is brought into `n` more modules, by imports and globs in turn. -/
def reexportTable (n : ℕ) : SymbolTable :=
  (List.range n).foldl
    (fun t i =>
      if i % 2 = 0 then
        (t.addModule (reexportSpace i)).addImport (reexportSpace i) (reexportSite i).name
          ⟨(reexportSite (i + 1)).path, false⟩
      else (t.addModule (reexportSpace i)).addGlob (reexportSpace i) ⟨reexportSpace (i + 1), false⟩)
    (({} : SymbolTable).addType (reexportSpace n) (reexportSite n).name .struct [])

theorem reexports_reexportTable : ∀ n ∈ [16, 17], ∀ i < n,
    (reexportTable n).Undeclared (reexportSite i) ∧
      (reexportTable n).Reexports (reexportSite i) (reexportSite (i + 1)) := by
  have hentries : ∀ n ∈ [16, 17], ∀ i < n, (reexportTable n).Undeclared (reexportSite i) ∧
      if i % 2 = 0 then
        (reexportTable n).importOf (reexportSpace i) (reexportSite i).name =
            some ⟨(reexportSite (i + 1)).path, false⟩ ∧
          (reexportTable n).follow ["crate"] (reexportSite (i + 1)).path.tail =
            some (reexportSpace (i + 1), [(reexportSite (i + 1)).name])
      else
        (reexportTable n).importOf (reexportSpace i) (reexportSite i).name = none ∧
          (reexportTable n).globsOf (reexportSpace i) = [⟨reexportSpace (i + 1), false⟩] ∧
          (reexportTable n).follow ["crate"] (reexportSpace (i + 1)).tail =
            some (reexportSpace (i + 1), []) ∧
          (reexportSite (i + 1)).name = (reexportSite i).name := by
    decide +kernel
  intro n hn i hi
  obtain ⟨hs, hentry⟩ := hentries n hn i hi
  refine ⟨hs, ?_⟩
  split_ifs at hentry
  · exact .imported hentry.1 hentry.2
  · exact .opened hentry.1 hentry.2.1 hentry.2.2.1 hentry.2.2.2

theorem resolvePath_reexported_bound :
    (reexportTable 16).resolvePath ⟨["T0"], false⟩ ["crate", "m0"] =
        some (.type ["crate", "m16", "T8"]) ∧
      (reexportTable 17).resolvePath ⟨["T0"], false⟩ ["crate", "m0"] = none := by
  constructor
  · exact resolvePath_reexported (reexports_reexportTable 16 (by decide)) (by decide +kernel)
      (by decide +kernel) (by decide +kernel)
  · exact resolvePath_reexported (reexports_reexportTable 17 (by decide)) (by decide +kernel)
      (by decide +kernel) (by decide +kernel)

end Reexports

/-! ### Imports without end -/

/-- Whether looking up a name goes on with that of the next site: the name is only an import, and
the first name of its path that is no module is that of the next site.  The names in `rest` come
after it. -/
structure LeadsTo (t : SymbolTable) (s : Site) (path : List String) (next : Site)
    (rest : List String) : Prop where
  undeclared : t.Undeclared s
  import_ : t.importOf s.space s.name = some ⟨path, false⟩
  /-- An import of a crate under its own name leads out of the crate. -/
  other : path ≠ [s.name]
  way : t.followPath s.space path = some (next.space, next.name :: rest)

section LeadsTo

variable {site : ℕ → Site} {path rest : ℕ → List String}

/-- One import on the way. -/
theorem LeadsTo.resolveName {s next : Site} {path rest : List String}
    (h : t.LeadsTo s path next rest) (depth : Nat) :
    t.resolveName depth s.space s.name =
      match depth with
      | 0 => none
      | depth + 1 =>
        match t.resolveName depth next.space next.name with
        | some r => stepAll (t.resolveName depth) r rest
        | none => if path = next.name :: rest then some (.external path) else none := by
  have hother : (⟨path, false⟩ : UsePath) ≠ ⟨[s.name], false⟩ :=
    fun heq => h.other (UsePath.mk.inj heq).1
  rw [resolveName_imported h.undeclared.1 h.undeclared.2 h.import_, if_neg hother]
  cases depth with
  | zero => rfl
  | succ depth => exact resolveWith_followPath h.way depth

/-- Imports without end mean nothing where no path that is followed begins with the name that is
looked up next; otherwise the last path that does is one from outside, and the names that were left
on the way to it come after it. -/
theorem resolveName_endless (h : ∀ i, t.LeadsTo (site i) (path i) (site (i + 1)) (rest i))
    (depth : ℕ) :
    ((∀ i < depth, path i ≠ (site (i + 1)).name :: rest i) ∧
        t.resolveName depth (site 0).space (site 0).name = none) ∨
      ∃ i < depth, path i = (site (i + 1)).name :: rest i ∧
        (∀ j < depth, i < j → path j ≠ (site (j + 1)).name :: rest j) ∧
        t.resolveName depth (site 0).space (site 0).name =
          some (.external (path i ++ (List.range i).reverse.flatMap rest)) := by
  induction depth generalizing site path rest with
  | zero => exact .inl ⟨fun i hi => absurd hi (Nat.not_lt_zero i), (h 0).resolveName 0⟩
  | succ depth ih =>
    have hfirst := (h 0).resolveName (depth + 1)
    dsimp only at hfirst
    rcases ih (fun i => h (i + 1)) with ⟨hnone, hr⟩ | ⟨i, hi, hbegins, hlast, hr⟩
    · rw [hr] at hfirst
      dsimp only at hfirst
      by_cases hbegins : path 0 = (site 1).name :: rest 0
      · rw [if_pos hbegins] at hfirst
        refine .inr ⟨0, Nat.succ_pos depth, hbegins, fun j hj hpos => ?_, ?_⟩
        · obtain ⟨j, rfl⟩ := Nat.exists_eq_add_of_lt hpos
          rw [Nat.zero_add] at hj ⊢
          exact hnone j (Nat.lt_of_succ_lt_succ hj)
        · rw [hfirst, List.range_zero, List.reverse_nil, List.flatMap_nil, List.append_nil]
      · rw [if_neg hbegins] at hfirst
        refine .inl ⟨fun j hj => ?_, hfirst⟩
        cases j with
        | zero => exact hbegins
        | succ j => exact hnone j (Nat.lt_of_succ_lt_succ hj)
    · rw [hr] at hfirst
      dsimp only at hfirst
      rw [stepAll_external] at hfirst
      refine .inr ⟨i + 1, Nat.succ_lt_succ hi, hbegins, fun j hj hij => ?_, ?_⟩
      · obtain ⟨j, rfl⟩ : ∃ j', j = j' + 1 := ⟨j - 1, by omega⟩
        exact hlast j (Nat.lt_of_succ_lt_succ hj) (Nat.lt_of_succ_lt_succ hij)
      · rw [hfirst, List.range_succ_eq_map, List.reverse_cons, List.flatMap_append,
          List.flatMap_singleton, ← List.map_reverse, List.flatMap_map, List.append_assoc]

/-- **Imports that lead to imports without end,** as they do in a circle, mean nothing exactly where
no path among the first sixteen begins with the name that is looked up next, without a module or one
of the words `crate`, `self` and `super` before it.  Where one does, the last of them is taken for a
path from outside the crate. -/
theorem resolvePath_endless (h : ∀ i, t.LeadsTo (site i) (path i) (site (i + 1)) (rest i))
    (hname : (site 0).name ∉ anchors) :
    (t.resolvePath ⟨[(site 0).name], false⟩ (site 0).space = none ↔
        ∀ i < 16, path i ≠ (site (i + 1)).name :: rest i) ∧
      ∀ i < 16, path i = (site (i + 1)).name :: rest i →
        (∀ j < 16, i < j → path j ≠ (site (j + 1)).name :: rest j) →
        t.resolvePath ⟨[(site 0).name], false⟩ (site 0).space =
          some (.external (path i ++ (List.range i).reverse.flatMap rest)) := by
  rw [resolvePath_name hname]
  rcases resolveName_endless h maxDepth with ⟨hnone, hr⟩ | ⟨i, hi, hbegins, hlast, hr⟩
  · exact ⟨iff_of_true hr hnone, fun i hi hbegins => absurd hbegins (hnone i hi)⟩
  · rw [hr]
    refine ⟨iff_of_false nofun fun hnone => hnone i hi hbegins, fun j hj hbegins' hlast' => ?_⟩
    rcases Nat.lt_trichotomy i j with hij | rfl | hji
    · exact absurd hbegins' (hlast j hj hij)
    · rfl
    · exact absurd hbegins (hlast' i hi hji)

end LeadsTo

/-! ### Circles of imports -/

/-- A crate with a circle of three imports in two modules. -/
def circularCrate : List SourceFile :=
  [⟨"crate", "lib.rs", "mod m; use m::C as A; use crate::A as B;"⟩,
    ⟨"crate::m", "m.rs", "use super::B as C;"⟩]

/-- The sites of the circle and the paths of their imports. -/
def circle : List (Site × List String) :=
  [(⟨["crate"], "A"⟩, ["m", "C"]), (⟨["crate", "m"], "C"⟩, ["super", "B"]),
    (⟨["crate"], "B"⟩, ["crate", "A"])]

/-- The way around the circle, again and again. -/
def aroundCircle (i : ℕ) : Site × List String := circle.getD (i % 3) default

theorem resolvePath_endless_circular :
    ∃ tree, SourceTree.ofFiles circularCrate = .ok tree ∧
      (∀ i, tree.symbols.LeadsTo (aroundCircle i).1 (aroundCircle i).2 (aroundCircle (i + 1)).1 []) ∧
      tree.symbols.resolvePath ⟨["A"], false⟩ ["crate"] = none := by
  have hentries : (SourceTree.ofFiles circularCrate).toOption.map (fun tree =>
      decide (∀ i < 3, tree.symbols.Undeclared (aroundCircle i).1 ∧
        tree.symbols.importOf (aroundCircle i).1.space (aroundCircle i).1.name =
          some ⟨(aroundCircle i).2, false⟩ ∧
        (aroundCircle i).2 ≠ [(aroundCircle i).1.name] ∧
        tree.symbols.followPath (aroundCircle i).1.space (aroundCircle i).2 =
          some ((aroundCircle (i + 1)).1.space, [(aroundCircle (i + 1)).1.name]))) = some true := by
    decide +kernel
  cases htree : SourceTree.ofFiles circularCrate with
  | error origin => rw [htree] at hentries; cases hentries
  | ok tree =>
    rw [htree] at hentries
    have hentries := of_decide_eq_true (Option.some.inj hentries)
    have hleads (i : ℕ) : tree.symbols.LeadsTo (aroundCircle i).1 (aroundCircle i).2
        (aroundCircle (i + 1)).1 [] := by
      obtain ⟨hs, himport, hother, hway⟩ := hentries (i % 3) (Nat.mod_lt i (by decide))
      have hhere : aroundCircle (i % 3) = aroundCircle i := by rw [aroundCircle, Nat.mod_mod]; rfl
      have hnext : aroundCircle (i % 3 + 1) = aroundCircle (i + 1) := by
        rw [aroundCircle, Nat.mod_add_mod]
        rfl
      rw [hhere] at hs himport hother hway
      rw [hnext] at hway
      exact ⟨hs, himport, hother, hway⟩
    refine ⟨tree, rfl, hleads, ?_⟩
    refine (resolvePath_endless hleads (by decide)).1.2 fun i hi => ?_
    revert i
    decide

/-- Two imports that name each other without a word before the name pass for a crate. -/
theorem resolvePath_circular_bare :
    (SourceTree.ofFiles [⟨"crate", "lib.rs", "use b as a; use a as b;"⟩]).toOption.map (fun tree =>
        (tree.symbols.importOf ["crate"] "a", tree.symbols.importOf ["crate"] "b",
          decide (tree.symbols.Undeclared ⟨["crate"], "a"⟩ ∧
            tree.symbols.Undeclared ⟨["crate"], "b"⟩),
          tree.symbols.resolvePath ⟨["a"], false⟩ ["crate"])) =
      some (some ⟨["b"], false⟩, some ⟨["a"], false⟩, true, some (.external ["a"])) := by
  decide +kernel

end SymbolTable

end Scaffold.Source
