import Scaffold.Proofs.Source.Agreement
import Scaffold.Proofs.Source.Reexport

/-!
# Which receivers are accepted

A receiver is to be accepted if it resolves, or if it is a single name that may have come through a
glob of something outside the crate (`Reaches`).  In a module with such a glob more is accepted: a
path that leads to a module or type of the crate and then to a name that means nothing there
(`GetsLost`).  No glob of the module can be what such a path means, but whether there is one is all
that is asked.  `resolvesReceiver_iff` says that nothing else is accepted, and
`resolvesReceiver_lost` is a crate in which such a path is.

A path of several names fails to resolve only in this way (`getsLost_iff`): one whose first name
means nothing in its scope begins outside the crate.
-/

namespace Scaffold.Source

namespace SymbolTable

variable {t : SymbolTable} {scope : ModulePath}

/-! ### Paths that go on -/

section Steps

variable {inModule : ModulePath → String → Option Resolution}

theorem stepAll_append (start : Resolution) (names more : List String) :
    stepAll inModule start (names ++ more) =
      (stepAll inModule start names).bind (stepAll inModule · more) := by
  induction names generalizing start with
  | nil => rfl
  | cons name names ih =>
    rw [List.cons_append, stepAll, stepAll, Option.bind_assoc]
    exact congrArg _ (funext ih)

/-- **Names lead nowhere** where one of them is nothing in what those before it lead to. -/
theorem stepAll_eq_none_iff {start : Resolution} {names : List String} :
    stepAll inModule start names = none ↔ ∃ way name rest r, names = way ++ name :: rest ∧
      stepAll inModule start way = some r ∧ stepInto inModule name r = none := by
  constructor
  · intro h
    induction names generalizing start with
    | nil => cases h
    | cons name names ih =>
      cases hnext : stepInto inModule name start with
      | none => exact ⟨[], name, names, start, rfl, rfl, hnext⟩
      | some next =>
        rw [stepAll, hnext, Option.bind_some] at h
        obtain ⟨way, lost, rest, r, rfl, hway, hlost⟩ := ih h
        refine ⟨name :: way, lost, rest, r, rfl, ?_, hlost⟩
        rw [stepAll, hnext, Option.bind_some, hway]
  · rintro ⟨way, name, rest, r, rfl, hway, hlost⟩
    rw [stepAll_append, hway, Option.bind_some, stepAll, hlost, Option.bind_none]

end Steps

/-- What the first name of a path stands for is what it means alone.  If that is nothing, the path
begins outside the crate, unless it sets out from an anchor. -/
theorem resolvePath_cons {first : String} {rest : List String} (hrest : rest ≠ []) :
    t.resolvePath ⟨first :: rest, false⟩ scope =
      match t.resolvePath ⟨[first], false⟩ scope with
      | some start => stepAll (t.resolveName maxDepth) start rest
      | none => if first ∈ anchors then none else some (.external (first :: rest)) := by
  by_cases hfirst : first ∈ anchors
  · rw [resolvePath, resolvePath, resolveWith_anchor hfirst, resolveWith_anchor hfirst]
    simp only [anchors, List.mem_cons, List.not_mem_nil, or_false] at hfirst
    rcases hfirst with rfl | rfl | rfl
    · rfl
    · rfl
    · cases hparent : parent? scope <;> simp [setOut, hparent, stepAll, anchors]
  · rw [resolvePath_name hfirst, resolvePath, resolveWith_name _ hfirst]
    cases t.resolveName maxDepth scope first <;> simp [hfirst, hrest]

/-- **A path that goes on** goes on from what its beginning means. -/
theorem resolvePath_append {way : List String} (hway : way ≠ []) {r : Resolution}
    (h : t.resolvePath ⟨way, false⟩ scope = some r) (more : List String) :
    t.resolvePath ⟨way ++ more, false⟩ scope = stepAll (t.resolveName maxDepth) r more := by
  obtain ⟨first, names, rfl⟩ := List.exists_cons_of_ne_nil hway
  rcases eq_or_ne more [] with rfl | hmore
  · rw [List.append_nil]
    exact h
  have hlong : names ++ more ≠ [] := fun heq => hmore (List.append_eq_nil_iff.1 heq).2
  rw [List.cons_append, resolvePath_cons hlong]
  -- a single name is what the whole path sets out from, the names after it are taken step by step
  rcases eq_or_ne names [] with rfl | hnames
  · rw [h]
    rfl
  rw [resolvePath_cons hnames] at h
  cases hfirst : t.resolvePath ⟨[first], false⟩ scope with
  | some start =>
    rw [hfirst] at h
    dsimp only at h ⊢
    rw [stepAll_append, h, Option.bind_some]
  | none =>
    rw [hfirst] at h
    dsimp only at h ⊢
    split_ifs at h with hanchor
    -- what begins outside the crate stays there, whatever follows
    obtain rfl := Option.some.inj h
    rw [if_neg hanchor, stepAll_external]
    rfl

/-! ### Paths that get lost -/

/-- Whether a name means nothing in what has been reached: no name means anything in a type, and all
do outside the crate. -/
def MeansNothing (t : SymbolTable) (name : String) : Resolution → Prop
  | .module_ space =>
    if name = "super" then parent? space = none else t.resolveName maxDepth space name = none
  | .type _ => True
  | .external _ => False

/-- Whether a path of several names gets lost in the crate: above its root, or where a name means
nothing in the module or type that those before it lead to. -/
inductive GetsLost (t : SymbolTable) (scope : ModulePath) : List String → Prop
  | above {rest : List String} (hrest : rest ≠ []) (hroot : parent? scope = none) :
    GetsLost t scope ("super" :: rest)
  | within {way : List String} (hway : way ≠ []) {r : Resolution}
    (hr : t.resolvePath ⟨way, false⟩ scope = some r) {name : String}
    (hlost : t.MeansNothing name r) (rest : List String) : GetsLost t scope (way ++ name :: rest)

theorem stepInto_eq_none_iff {name : String} {r : Resolution} :
    stepInto (t.resolveName maxDepth) name r = none ↔ t.MeansNothing name r := by
  cases r with
  | module_ space =>
    rw [stepInto, MeansNothing]
    split_ifs
    · exact Option.map_eq_none_iff
    · exact Iff.rfl
  | type path => exact iff_of_true rfl trivial
  | external segments => exact iff_of_false (Option.some_ne_none _) id

/-- A word from which a path sets out means nothing only at the root of the crate. -/
theorem resolvePath_anchor_eq_none {first : String} (hfirst : first ∈ anchors) :
    t.resolvePath ⟨[first], false⟩ scope = none ↔ first = "super" ∧ parent? scope = none := by
  rw [resolvePath, resolveWith_anchor hfirst]
  simp only [anchors, List.mem_cons, List.not_mem_nil, or_false] at hfirst
  rcases hfirst with rfl | rfl | rfl
  · exact iff_of_false (Option.some_ne_none _) (by simp)
  · exact iff_of_false (Option.some_ne_none _) (by simp)
  · cases hparent : parent? scope <;> simp [setOut, hparent, stepAll]

/-- **A path gets lost** exactly where it has several names and does not resolve. -/
theorem getsLost_iff {path : List String} :
    t.GetsLost scope path ↔ 2 ≤ path.length ∧ t.resolvePath ⟨path, false⟩ scope = none := by
  constructor
  · rintro (⟨hrest, hroot⟩ | ⟨hway, hr, hlost, rest⟩)
    · have hsuper : "super" ∈ anchors := by decide
      refine ⟨Nat.succ_le_succ (List.length_pos_iff.2 hrest), ?_⟩
      rw [resolvePath_cons hrest, (resolvePath_anchor_eq_none hsuper).2 ⟨rfl, hroot⟩]
      exact if_pos hsuper
    · have hlength := List.length_pos_iff.2 hway
      refine ⟨by rw [List.length_append, List.length_cons]; omega, ?_⟩
      rw [resolvePath_append hway hr, stepAll, stepInto_eq_none_iff.2 hlost, Option.bind_none]
  · rintro ⟨hlength, h⟩
    have hpos : 0 < path.length := Nat.lt_of_lt_of_le Nat.zero_lt_two hlength
    obtain ⟨first, rest, rfl⟩ := List.exists_cons_of_length_pos hpos
    have hrest : rest ≠ [] := List.length_pos_iff.1 (Nat.le_of_succ_le_succ hlength)
    rw [resolvePath_cons hrest] at h
    cases hfirst : t.resolvePath ⟨[first], false⟩ scope with
    | none =>
      rw [hfirst] at h
      dsimp only at h
      -- a first name that means nothing begins outside the crate, unless it is a word for a module
      split_ifs at h with hanchor
      obtain ⟨rfl, hroot⟩ := (resolvePath_anchor_eq_none hanchor).1 hfirst
      exact .above hrest hroot
    | some start =>
      rw [hfirst] at h
      obtain ⟨way, name, after, r, rfl, hway, hlost⟩ := stepAll_eq_none_iff.1 h
      have hr : t.resolvePath ⟨[first] ++ way, false⟩ scope = some r :=
        (resolvePath_append (List.cons_ne_nil _ _) hfirst way).trans hway
      exact .within (List.cons_ne_nil first way) hr (stepInto_eq_none_iff.1 hlost) after

/-! ### Receivers -/

/-- Whether a glob of a module opens something outside the crate. -/
def OpensOutside (t : SymbolTable) (scope : ModulePath) : Prop :=
  ∃ glob ∈ t.globsOf scope, ∃ segments,
    resolveWith (t.resolveName (maxDepth - 1)) glob scope true = some (.external segments)

theorem hasExternalGlob_iff : t.hasExternalGlob scope = true ↔ t.OpensOutside scope := by
  rw [hasExternalGlob_eq, List.any_eq_true]
  refine exists_congr fun glob => and_congr_right fun _ => ?_
  split
  · rename_i segments h
    exact iff_of_true rfl ⟨segments, h⟩
  · rename_i h
    exact iff_of_false Bool.false_ne_true fun ⟨segments, heq⟩ => h segments heq

/-- The receivers that are to be accepted: those that resolve, and single names that do not where a
glob may have brought them. -/
inductive Reaches (t : SymbolTable) (scope : ModulePath) : List String → Prop
  | resolved {receiver : List String} (hne : receiver ≠ []) {r : Resolution}
    (hr : t.resolvePath ⟨receiver, false⟩ scope = some r) : Reaches t scope receiver
  | opened {name : String} (hnone : t.resolvePath ⟨[name], false⟩ scope = none)
    (hglob : t.OpensOutside scope) : Reaches t scope [name]

/-- A receiver that gets lost is not to be accepted. -/
theorem GetsLost.not_reaches {receiver : List String} (h : t.GetsLost scope receiver) :
    ¬t.Reaches scope receiver := by
  obtain ⟨hlength, hnone⟩ := getsLost_iff.1 h
  rintro (⟨-, hr⟩ | ⟨-, -⟩)
  · rw [hnone] at hr
    cases hr
  · exact absurd hlength (by simp)

/-- **Receivers that are accepted** are those that are to be, and in a module with a glob of
something outside the crate all those that get lost in the crate.  So exactly these two together
make a receiver pass that is not to be accepted: it has several names and does not resolve, and its
module has such a glob. -/
theorem resolvesReceiver_iff (t : SymbolTable) (receiver : List String) (scope : ModulePath) :
    (t.resolvesReceiver receiver scope = true ↔
      t.Reaches scope receiver ∨ t.GetsLost scope receiver ∧ t.OpensOutside scope) ∧
    ((t.resolvesReceiver receiver scope = true ↔ t.Reaches scope receiver) ↔
      ¬(t.GetsLost scope receiver ∧ t.OpensOutside scope)) ∧
    (t.GetsLost scope receiver ↔
      2 ≤ receiver.length ∧ t.resolvePath ⟨receiver, false⟩ scope = none) := by
  have haccepted : t.resolvesReceiver receiver scope = true ↔
      t.Reaches scope receiver ∨ t.GetsLost scope receiver ∧ t.OpensOutside scope := by
    rw [resolvesReceiver, Bool.and_eq_true, Bool.or_eq_true, hasExternalGlob_iff,
      Bool.not_eq_true', List.isEmpty_eq_false_iff]
    constructor
    · rintro ⟨hne, hr | hglob⟩
      · obtain ⟨r, hr⟩ := Option.isSome_iff_exists.1 hr
        exact .inl (.resolved hne hr)
      cases hr : t.resolvePath ⟨receiver, false⟩ scope with
      | some r => exact .inl (.resolved hne hr)
      | none =>
        -- of what does not resolve, a single name may come through the glob, several get lost
        obtain ⟨first, rest, rfl⟩ := List.exists_cons_of_ne_nil hne
        rcases eq_or_ne rest [] with rfl | hrest
        · exact .inl (.opened hr hglob)
        · have hlength : 2 ≤ (first :: rest).length :=
            Nat.succ_le_succ (List.length_pos_iff.2 hrest)
          exact .inr ⟨getsLost_iff.2 ⟨hlength, hr⟩, hglob⟩
    · rintro ((⟨hne, hr⟩ | ⟨-, hglob⟩) | ⟨hlost, hglob⟩)
      · exact ⟨hne, .inl (Option.isSome_iff_exists.2 ⟨_, hr⟩)⟩
      · exact ⟨List.cons_ne_nil _ _, .inr hglob⟩
      · have hlength := (getsLost_iff.1 hlost).1
        exact ⟨List.length_pos_iff.1 (Nat.lt_of_lt_of_le Nat.zero_lt_two hlength), .inr hglob⟩
  refine ⟨haccepted, ?_, getsLost_iff⟩
  rw [haccepted]
  constructor
  · exact fun h hstray => hstray.1.not_reaches (h.1 (.inr hstray))
  · exact fun hnot => ⟨fun h => h.resolve_right hnot, .inl⟩

/-- **A receiver that gets lost and is accepted:** the crate has a module of that name, and a glob
that cannot be what the path means. -/
theorem resolvesReceiver_lost :
    ∃ tree, SourceTree.ofFiles [⟨"crate", "lib.rs", "mod stencil; use outside::*;"⟩] = .ok tree ∧
      tree.symbols.resolvesReceiver ["stencil", "Mappings"] ["crate"] = true ∧
      tree.symbols.resolvePath ⟨["stencil"], false⟩ ["crate"] =
        some (.module_ ["crate", "stencil"]) ∧
      ¬tree.symbols.Reaches ["crate"] ["stencil", "Mappings"] := by
  have hfacts : (SourceTree.ofFiles
      [⟨"crate", "lib.rs", "mod stencil; use outside::*;"⟩]).toOption.map (fun tree =>
        (tree.symbols.resolvesReceiver ["stencil", "Mappings"] ["crate"],
          tree.symbols.resolvePath ⟨["stencil"], false⟩ ["crate"],
          tree.symbols.resolvePath ⟨["stencil", "Mappings"], false⟩ ["crate"])) =
      some (true, some (.module_ ["crate", "stencil"]), none) := by
    decide +kernel
  cases htree : SourceTree.ofFiles [⟨"crate", "lib.rs", "mod stencil; use outside::*;"⟩] with
  | error origin =>
    rw [htree] at hfacts
    cases hfacts
  | ok tree =>
    rw [htree] at hfacts
    obtain ⟨haccepted, hfacts⟩ := Prod.mk.inj (Option.some.inj hfacts)
    obtain ⟨hmodule, hnone⟩ := Prod.mk.inj hfacts
    exact ⟨tree, rfl, haccepted, hmodule, (getsLost_iff.2 ⟨by decide, hnone⟩).not_reaches⟩

end SymbolTable

end Scaffold.Source
