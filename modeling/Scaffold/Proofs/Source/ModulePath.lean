import Scaffold.Source.ModulePath
import Scaffold.Proofs.Text.Segments
import Mathlib.Data.List.TakeWhile

/-!
# Files that share a module

The names on the way to a source file tell its module: the names themselves, or the names of the
directory that holds the file where the file stands for its directory (`StandsForDirectory`).  So
two files define one module in few cases only (`modulesOf_concat_eq_iff`), and a module path without
colons in its names tells these names (`modulePath_eq_iff_modulesOf`).

`modulePath_eq_iff` puts the two together: two files share a module if they are the same file, if
both are root files of the crate, or if one is `p.rs` and the other `p/mod.rs`.
-/

namespace Scaffold

namespace Files

/-! ### Names of files -/

/-- A name with an extension has something before the dot. -/
theorem eq_stem_append_extension {name ext : String} (h : extension? name = some ext) :
    name = stem name ++ "." ++ ext ∧ stem name ≠ "" := by
  have hsplit : splitName name = (stem name, some ext) := by
    rw [← h]
    rfl
  unfold splitName at hsplit
  dsimp only at hsplit
  set backward := name.toList.reverse with hbackward
  have hcut : backward.takeWhile (· ≠ '.') ++ backward.dropWhile (· ≠ '.') = backward :=
    List.takeWhile_append_dropWhile
  split_ifs at hsplit with hnone
  · cases (Prod.mk.inj hsplit).2
  · obtain ⟨hstem, hext⟩ := Prod.mk.inj hsplit
    rw [not_or] at hnone
    cases hdrop : backward.dropWhile (· ≠ '.') with
    | nil =>
      rw [hdrop] at hnone
      exact absurd rfl hnone.2
    | cons c rest =>
      rw [hdrop, List.drop_succ_cons, List.drop_zero] at hstem hnone
      -- what is dropped stops at the dot itself
      have hdot : c = '.' := by
        have hhead := List.head?_dropWhile_not (· ≠ '.') backward
        rw [hdrop] at hhead
        simpa using hhead
      subst hdot
      have hname : name.toList = rest.reverse ++ '.' :: (backward.takeWhile (· ≠ '.')).reverse := by
        calc name.toList = backward.reverse := by rw [hbackward, List.reverse_reverse]
          _ = (backward.takeWhile (· ≠ '.') ++ '.' :: rest).reverse := by
            rw [← hdrop, hcut]
          _ = rest.reverse ++ '.' :: (backward.takeWhile (· ≠ '.')).reverse := by simp
      refine ⟨?_, ?_⟩
      · apply String.toList_injective
        rw [← hstem, ← Option.some.inj hext, hname]
        simp
      · intro hempty
        apply hnone.2
        rw [hempty] at hstem
        have hrest := congrArg String.toList hstem
        simpa using hrest

end Files

namespace Source

open Files

/-- The names that a path leads through, down to the name of its file. -/
def stepsOf (path : String) : List String := (pieces path).filter isStep

/-- **Whether a path leads by plain names to a source file.**  No step leads up, no name holds a
colon, and the name of the file has the extension `rs` and something other than dots before it. -/
structure IsSourcePath (path : String) : Prop where
  plain : ∀ name ∈ stepsOf path, name ≠ ".." ∧ ':' ∉ name.toList
  ends : ∃ front file, stepsOf path = front ++ [file] ∧ extension? file = some "rs" ∧
    stem file ≠ "." ∧ stem file ≠ ".."

/-- Whether the file `name.rs` in the directory at the end of `front` defines the module of that
directory: `mod` everywhere, and at the root of the crate `lib` and `main` as well. -/
def StandsForDirectory (front : List String) (name : String) : Prop :=
  name = "mod" ∨ front = [] ∧ (name = "lib" ∨ name = "main")

/-- Whether a path leads to a file that defines the crate itself. -/
def IsRootFile (path : String) : Prop :=
  ∃ name, StandsForDirectory [] name ∧ stepsOf path = [name ++ ".rs"]

/-- Whether one path leads to a file `p.rs` and the other to `p/mod.rs`, where `p.rs` does not stand
for the directory that holds it. -/
def IsBesideDirectory (path path' : String) : Prop :=
  ∃ front name, stepsOf path = front ++ [name ++ ".rs"] ∧
    stepsOf path' = front ++ [name, "mod.rs"] ∧ ¬StandsForDirectory front name

/-! ### Modules of names -/

theorem modulesOf_concat_of_standsFor {front : List String} {name : String}
    (h : StandsForDirectory front name) : modulesOf (front ++ [name]) = front := by
  have hcondition : (front ++ [name]).getLast? = some "mod" ∨ front ++ [name] = ["lib"] ∨
      front ++ [name] = ["main"] := by
    obtain rfl | ⟨rfl, rfl | rfl⟩ := h
    · left
      exact List.getLast?_concat
    · right; left
      rfl
    · right; right
      rfl
  rw [modulesOf, if_pos hcondition, List.dropLast_concat]

theorem modulesOf_concat_of_not_standsFor {front : List String} {name : String}
    (h : ¬StandsForDirectory front name) : modulesOf (front ++ [name]) = front ++ [name] := by
  refine if_neg ?_
  rintro (hlast | hlib | hmain)
  · rw [List.getLast?_concat] at hlast
    exact h (.inl (Option.some.inj hlast))
  · have hsame : front ++ [name] = [] ++ ["lib"] := hlib
    obtain ⟨rfl, hname⟩ := List.append_inj' hsame rfl
    exact h (.inr ⟨rfl, .inl (List.singleton_inj.1 hname)⟩)
  · have hsame : front ++ [name] = [] ++ ["main"] := hmain
    obtain ⟨rfl, hname⟩ := List.append_inj' hsame rfl
    exact h (.inr ⟨rfl, .inr (List.singleton_inj.1 hname)⟩)

/-- **When two files share a module,** told by the names on the way to them. -/
theorem modulesOf_concat_eq_iff {front front' : List String} {name name' : String} :
    modulesOf (front ++ [name]) = modulesOf (front' ++ [name']) ↔
      (front = front' ∧ name = name') ∨
        ((front = [] ∧ StandsForDirectory [] name) ∧ front' = [] ∧ StandsForDirectory [] name') ∨
        (¬StandsForDirectory front name ∧ front' = front ++ [name] ∧ name' = "mod") ∨
        (¬StandsForDirectory front' name' ∧ front = front' ++ [name'] ∧ name = "mod") := by
  -- a file that stands for a directory with names in it is called `mod`
  have hmod {way : List String} {last : String} (h : StandsForDirectory way last)
      (hway : way ≠ []) : last = "mod" := h.resolve_right fun hroot => hway hroot.1
  have hinner (way : List String) : StandsForDirectory way "mod" := .inl rfl
  constructor
  · intro heq
    by_cases hs : StandsForDirectory front name
    · by_cases hs' : StandsForDirectory front' name'
      · rw [modulesOf_concat_of_standsFor hs, modulesOf_concat_of_standsFor hs'] at heq
        subst heq
        by_cases hroot : front = []
        · subst hroot
          exact .inr (.inl ⟨⟨rfl, hs⟩, rfl, hs'⟩)
        · exact .inl ⟨rfl, (hmod hs hroot).trans (hmod hs' hroot).symm⟩
      · rw [modulesOf_concat_of_standsFor hs, modulesOf_concat_of_not_standsFor hs'] at heq
        have hne : front ≠ [] := by simp [heq]
        exact .inr (.inr (.inr ⟨hs', heq, hmod hs hne⟩))
    · by_cases hs' : StandsForDirectory front' name'
      · rw [modulesOf_concat_of_not_standsFor hs, modulesOf_concat_of_standsFor hs'] at heq
        have hne : front' ≠ [] := by simp [← heq]
        exact .inr (.inr (.inl ⟨hs, heq.symm, hmod hs' hne⟩))
      · rw [modulesOf_concat_of_not_standsFor hs, modulesOf_concat_of_not_standsFor hs'] at heq
        obtain ⟨hway, hlast⟩ := List.append_inj' heq rfl
        exact .inl ⟨hway, List.singleton_inj.1 hlast⟩
  · rintro (⟨rfl, rfl⟩ | ⟨⟨rfl, hs⟩, rfl, hs'⟩ | ⟨hs, rfl, rfl⟩ | ⟨hs', rfl, rfl⟩)
    · rfl
    · rw [modulesOf_concat_of_standsFor hs, modulesOf_concat_of_standsFor hs']
    · rw [modulesOf_concat_of_not_standsFor hs, modulesOf_concat_of_standsFor (hinner _)]
    · rw [modulesOf_concat_of_not_standsFor hs', modulesOf_concat_of_standsFor (hinner _)]

/-! ### Module paths -/

/-- The last name on the way to a file has no extension, and the others are those of the path. -/
theorem namesOnWay_of_stepsOf {path : String} {front : List String} {name : String}
    (h : IsSourcePath path) (hsteps : stepsOf path = front ++ [name ++ ".rs"]) :
    namesOnWay path = front ++ [name] ∧ ∀ n ∈ front ++ [name], ':' ∉ n.toList := by
  obtain ⟨front', file, hends, hext, hdot, hup⟩ := h.ends
  have hplain := h.plain
  rw [hends] at hsteps hplain
  obtain ⟨rfl, hfile⟩ := List.append_inj' hsteps rfl
  obtain ⟨hname, hne⟩ := eq_stem_append_extension hext
  obtain rfl : stem file = name := by
    have hsame : stem file ++ ".rs" = name ++ ".rs" := by
      rw [← List.singleton_inj.1 hfile]
      conv_rhs => rw [hname, String.append_assoc]
      rfl
    exact (String.append_left_inj _).1 hsame
  have hkept : ∀ n ∈ front' ++ [stem file], isStep n = true ∧ n ≠ ".." := by
    intro n hn
    rcases List.mem_append.1 hn with hfront | hlast
    · have hstep : n ∈ stepsOf path := by
        rw [hends]
        exact List.mem_append_left _ hfront
      exact ⟨(List.mem_filter.1 hstep).2, (hplain n (List.mem_append_left _ hfront)).1⟩
    · obtain rfl := List.mem_singleton.1 hlast
      exact ⟨by simp [isStep, hne, hdot], hup⟩
  constructor
  · have hsteps : (pieces path).filter isStep = front' ++ [file] := hends
    rw [namesOnWay, hsteps]
    simp only [List.dropLast_concat, List.getLast?_concat, Option.map_some, Option.toList_some]
    exact List.filter_eq_self.2 fun n hn => by simpa using hkept n hn
  · intro n hn hcolon
    rcases List.mem_append.1 hn with hfront | hlast
    · exact (hplain n (List.mem_append_left _ hfront)).2 hcolon
    · obtain rfl := List.mem_singleton.1 hlast
      apply (hplain file (List.mem_append_right _ List.mem_cons_self)).2
      rw [hname, String.append_assoc, String.toList_append]
      exact List.mem_append_left _ hcolon

/-- The file of a source path. -/
theorem IsSourcePath.exists_name {path : String} (h : IsSourcePath path) :
    ∃ front name, stepsOf path = front ++ [name ++ ".rs"] := by
  obtain ⟨front, file, hends, hext, -⟩ := h.ends
  refine ⟨front, stem file, ?_⟩
  have hname : file = stem file ++ ".rs" := by
    have hfile := (eq_stem_append_extension hext).1
    rw [String.append_assoc] at hfile
    exact hfile
  rw [hends, ← hname]

/-- A module path tells its modules, where no name holds a colon. -/
theorem modulePath_eq_iff_modulesOf {path path' : String}
    (h : ∀ name ∈ namesOnWay path, ':' ∉ name.toList)
    (h' : ∀ name ∈ namesOnWay path', ':' ∉ name.toList) :
    modulePath path = modulePath path' ↔
      modulesOf (namesOnWay path) = modulesOf (namesOnWay path') := by
  have hsegments {p : String} (hp : ∀ name ∈ namesOnWay p, ':' ∉ name.toList) :
      Text.segments (modulePath p) = "crate" :: modulesOf (namesOnWay p) := by
    refine Text.segments_ofSegments (List.cons_ne_nil _ _) (List.forall_mem_cons.2 ⟨by decide, ?_⟩)
    intro name hname
    have hsub : modulesOf (namesOnWay p) ⊆ namesOnWay p := by
      unfold modulesOf
      split_ifs
      · exact List.dropLast_subset _
      · exact List.Subset.refl _
    exact hp name (hsub hname)
  constructor
  · intro heq
    have hcut := congrArg Text.segments heq
    rw [hsegments h, hsegments h'] at hcut
    exact (List.cons.inj hcut).2
  · intro heq
    rw [modulePath, modulePath, heq]

theorem concat_source_inj {way way' : List String} {name name' : String} :
    way ++ [name ++ ".rs"] = way' ++ [name' ++ ".rs"] ↔ way = way' ∧ name = name' := by
  constructor
  · intro h
    obtain ⟨hway, hname⟩ := List.append_inj' h rfl
    exact ⟨hway, (String.append_left_inj _).1 (List.singleton_inj.1 hname)⟩
  · rintro ⟨rfl, rfl⟩
    rfl

section Ends

variable {path path' name name' : String} {front front' : List String}

theorem isRootFile_iff (h : stepsOf path = front ++ [name ++ ".rs"]) :
    IsRootFile path ↔ front = [] ∧ StandsForDirectory [] name := by
  constructor
  · rintro ⟨last, hstands, hlast⟩
    have hsame : front ++ [name ++ ".rs"] = [] ++ [last ++ ".rs"] := h.symm.trans hlast
    obtain ⟨rfl, rfl⟩ := concat_source_inj.1 hsame
    exact ⟨rfl, hstands⟩
  · rintro ⟨rfl, hstands⟩
    exact ⟨name, hstands, h⟩

theorem isBesideDirectory_iff (h : stepsOf path = front ++ [name ++ ".rs"])
    (h' : stepsOf path' = front' ++ [name' ++ ".rs"]) : IsBesideDirectory path path' ↔
      ¬StandsForDirectory front name ∧ front' = front ++ [name] ∧ name' = "mod" := by
  have hdown : front ++ [name, "mod.rs"] = front ++ [name] ++ ["mod" ++ ".rs"] := by
    rw [List.append_assoc]
    rfl
  constructor
  · rintro ⟨before, last, hfile, hinner, hnot⟩
    obtain ⟨rfl, rfl⟩ := concat_source_inj.1 (h.symm.trans hfile)
    rw [h', hdown] at hinner
    obtain ⟨hway, hname⟩ := concat_source_inj.1 hinner
    exact ⟨hnot, hway, hname⟩
  · rintro ⟨hnot, rfl, rfl⟩
    exact ⟨front, name, h, h'.trans hdown.symm, hnot⟩

end Ends

/-- **Two files share a module** exactly where their paths lead the same way, where both are root
files of the crate, or where one is `p.rs` and the other `p/mod.rs`. -/
theorem modulePath_eq_iff {path path' : String} (h : IsSourcePath path) (h' : IsSourcePath path') :
    modulePath path = modulePath path' ↔
      stepsOf path = stepsOf path' ∨ (IsRootFile path ∧ IsRootFile path') ∨
        IsBesideDirectory path path' ∨ IsBesideDirectory path' path := by
  obtain ⟨front, name, hsteps⟩ := h.exists_name
  obtain ⟨front', name', hsteps'⟩ := h'.exists_name
  obtain ⟨hnames, hcolons⟩ := namesOnWay_of_stepsOf h hsteps
  obtain ⟨hnames', hcolons'⟩ := namesOnWay_of_stepsOf h' hsteps'
  rw [← hnames] at hcolons
  rw [← hnames'] at hcolons'
  rw [modulePath_eq_iff_modulesOf hcolons hcolons', hnames, hnames', modulesOf_concat_eq_iff,
    hsteps, hsteps', concat_source_inj, isRootFile_iff hsteps, isRootFile_iff hsteps',
    isBesideDirectory_iff hsteps hsteps', isBesideDirectory_iff hsteps' hsteps]

/-- Below the root, `lib` is a module like any other: it may stand in a file or in a directory, and
neither is the module of the directory that holds it. -/
theorem modulePath_eq_iff_lib_below_root :
    IsSourcePath "mod/lib.rs" ∧ IsSourcePath "mod/lib/mod.rs" ∧ IsSourcePath "mod.rs" ∧
      modulePath "mod/lib.rs" = modulePath "mod/lib/mod.rs" ∧
      modulePath "mod/lib.rs" ≠ modulePath "mod.rs" := by
  have hsteps : stepsOf "mod/lib.rs" = ["mod", "lib.rs"] := by decide +kernel
  have hinner : stepsOf "mod/lib/mod.rs" = ["mod", "lib", "mod.rs"] := by decide +kernel
  have houter : stepsOf "mod.rs" = ["mod.rs"] := by decide +kernel
  have h : IsSourcePath "mod/lib.rs" := by
    refine ⟨?_, ["mod"], "lib.rs", hsteps, by decide +kernel⟩
    rw [hsteps]
    decide
  have h' : IsSourcePath "mod/lib/mod.rs" := by
    refine ⟨?_, ["mod", "lib"], "mod.rs", hinner, by decide +kernel⟩
    rw [hinner]
    decide
  have h'' : IsSourcePath "mod.rs" := by
    refine ⟨?_, [], "mod.rs", houter, by decide +kernel⟩
    rw [houter]
    decide
  have hlib : ¬StandsForDirectory ["mod"] "lib" := by
    rintro (hmod | ⟨hroot, -⟩)
    · exact absurd hmod (by decide)
    · exact absurd hroot (by decide)
  refine ⟨h, h', h'', ?_, ?_⟩
  · exact (modulePath_eq_iff h h').2 (.inr (.inr (.inl ⟨["mod"], "lib", hsteps, hinner, hlib⟩)))
  · intro heq
    rcases (modulePath_eq_iff h h'').1 heq with hsame | ⟨⟨name, -, hroot⟩, -⟩ |
      ⟨front, name, -, hdown, -⟩ | ⟨front, name, hup, hdown, -⟩
    · rw [hsteps, houter] at hsame
      exact absurd hsame (by decide)
    · rw [hsteps] at hroot
      have hlength := congrArg List.length hroot
      simp at hlength
    · rw [houter] at hdown
      have hlength := congrArg List.length hdown
      simp at hlength
    · -- `mod.rs` at the root is no file `p.rs` beside a directory, since it stands for the root
      rw [hsteps] at hdown
      have hlast := congrArg List.getLast? hdown
      simp at hlast

end Source

end Scaffold
