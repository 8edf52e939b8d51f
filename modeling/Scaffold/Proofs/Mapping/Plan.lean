import Mathlib.Data.List.Nodup
import Mathlib.Data.List.Perm.Basic
import Scaffold.Mapping.Plan
import Scaffold.Proofs.Stopping

/-!
# How a plan arranges mappings

A plan sorts mappings twice: by namespace into modules, and in a module by destination into traits.
Both are one kind of sorting, `Grouped`: a group for each key in the order of first appearance, that
holds what has the key, in order.  Placing one more mapping either extends the group of its key or
opens one at the end (`MappingTarget.place_cases`, `MappingSpace.place_cases`), so the plan of any
list of mappings arranges those that were accepted (`MappingPlan.holds_ofMappings`), and none of
them is lost (`MappingPlan.Holds.perm_mappings`).  A mapping that can be planned is refused exactly
where it clashes with one that was accepted before (`MappingPlan.refusal?_eq_some_iff`).
-/

namespace Scaffold

open Syntax

/-! ### Groups -/

/-- Keeping the first of each element leaves none twice. -/
theorem nodup_eraseDups {κ : Type} [BEq κ] [LawfulBEq κ] : (ks : List κ) → ks.eraseDups.Nodup
  | [] => List.nodup_nil
  | k :: ks => by
    have hk : k ∉ (ks.filter fun j => !j == k).eraseDups := by
      simp [List.mem_eraseDups]
    rw [List.eraseDups_cons]
    exact List.nodup_cons.2 ⟨hk, nodup_eraseDups _⟩
termination_by ks => ks.length
decreasing_by exact Nat.lt_succ_of_le (List.length_filter_le ..)

section Grouped

variable {α γ κ : Type} [DecidableEq κ] {key : α → κ} {name : γ → κ}
  {Holds : List α → γ → Prop} {as : List α}

/-- What is sorted by its keys is still all there. -/
theorem perm_flatMap_filter {ks : List κ} (hks : ks.Nodup) (has : ∀ a ∈ as, key a ∈ ks) :
    (ks.flatMap fun k => as.filter (key · = k)).Perm as := by
  induction ks generalizing as with
  | nil =>
    cases as with
    | nil => exact .refl _
    | cons a as => exact absurd (has a List.mem_cons_self) List.not_mem_nil
  | cons k ks ih =>
    obtain ⟨hk, hks⟩ := List.nodup_cons.1 hks
    have hrest : ∀ a ∈ as.filter (key · ≠ k), key a ∈ ks := by
      intro a ha
      obtain ⟨ha, hne⟩ := List.mem_filter.1 ha
      exact (List.mem_cons.1 (has a ha)).resolve_left (by simpa using hne)
    have hothers : (ks.flatMap fun j => as.filter (key · = j)) =
        ks.flatMap fun j => (as.filter (key · ≠ k)).filter (key · = j) := by
      refine List.flatMap_congr fun j hj => ?_
      have hne : j ≠ k := fun h => hk (h ▸ hj)
      rw [List.filter_filter]
      refine List.filter_congr fun a _ => ?_
      by_cases hkey : key a = j <;> simp [hkey, hne]
    rw [List.flatMap_cons, hothers]
    refine ((ih hks hrest).append_left _).trans ?_
    simpa using List.filter_append_perm (key · = k) as

/-- Whether groups sort `as` by a key: they have the keys for names, in the order of first
appearance, and each holds what has its key, in order. -/
structure Grouped (key : α → κ) (name : γ → κ) (Holds : List α → γ → Prop) (as : List α)
    (groups : List γ) : Prop where
  names : groups.map name = (as.map key).eraseDups
  holds : ∀ g ∈ groups, Holds (as.filter (key · = name g)) g

namespace Grouped

theorem nil : Grouped key name Holds [] [] := ⟨rfl, List.forall_mem_nil _⟩

variable {groups : List γ} (h : Grouped key name Holds as groups)

include h

theorem nodup_names : (groups.map name).Nodup := h.names ▸ nodup_eraseDups _

theorem mem_names {k : κ} : k ∈ groups.map name ↔ ∃ a ∈ as, key a = k := by
  rw [h.names, List.mem_eraseDups, List.mem_map]

theorem exists_group {a : α} (ha : a ∈ as) : ∃ g ∈ groups, name g = key a :=
  List.mem_map.1 (h.mem_names.2 ⟨a, ha, rfl⟩)

/-- No group is empty. -/
theorem exists_mem {g : γ} (hg : g ∈ groups) : ∃ a ∈ as, key a = name g :=
  h.mem_names.1 (List.mem_map_of_mem hg)

/-- Nothing is lost in groups. -/
theorem perm : (groups.flatMap fun g => as.filter (key · = name g)).Perm as := by
  have hkeys : ∀ a ∈ as, key a ∈ groups.map name := fun a ha => h.mem_names.2 ⟨a, ha, rfl⟩
  have hperm := perm_flatMap_filter h.nodup_names hkeys
  rwa [List.flatMap_map] at hperm

/-- **One more element** that has a key of its own opens a group. -/
theorem concat_new {a : α} {g : γ} (hkey : ∀ g ∈ groups, name g ≠ key a) (hname : name g = key a)
    (hg : Holds [a] g) : Grouped key name Holds (as ++ [a]) (groups ++ [g]) := by
  have hnone : ∀ b ∈ as, key b ≠ key a := by
    intro b hb heq
    obtain ⟨g', hg', hname'⟩ := h.exists_group hb
    exact hkey g' hg' (hname'.trans heq)
  constructor
  · have hnew : [key a].removeAll (as.map key) = [key a] := by
      rw [List.removeAll, List.filter_eq_self]
      intro k hk
      rw [List.mem_singleton.1 hk]
      simpa using hnone
    rw [List.map_append, List.map_append, List.map_singleton, List.map_singleton, h.names, hname,
      List.eraseDups_append, hnew]
    rfl
  · intro g' hg'
    rw [List.filter_append]
    rcases List.mem_append.1 hg' with hg' | hg'
    · have hother : key a ≠ name g' := fun heq => hkey g' hg' heq.symm
      rw [List.filter_cons_of_neg (by simpa using hother), List.filter_nil, List.append_nil]
      exact h.holds g' hg'
    · obtain rfl := List.mem_singleton.1 hg'
      have hempty : as.filter (key · = name g') = [] := by
        rw [List.filter_eq_nil_iff]
        intro b hb
        simpa [hname] using hnone b hb
      rw [hempty, List.filter_cons_of_pos (by simp [hname])]
      exact hg

omit h in
/-- **One more element** that has the key of a group extends it. -/
theorem concat_old {before after : List γ} {g g' : γ} {a : α}
    (h : Grouped key name Holds as (before ++ g :: after)) (hkey : key a = name g)
    (hname : name g' = name g)
    (hg : Holds (as.filter (key · = name g)) g → Holds (as.filter (key · = name g) ++ [a]) g') :
    Grouped key name Holds (as ++ [a]) (before ++ g' :: after) := by
  have hmem : g ∈ before ++ g :: after := List.mem_append_right _ List.mem_cons_self
  have hothers : ∀ o, o ∈ before ∨ o ∈ after → key a ≠ name o := by
    have hnodup := h.nodup_names
    rw [List.map_append, List.map_cons, List.nodup_middle, ← List.map_append] at hnodup
    intro o ho heq
    refine (List.nodup_cons.1 hnodup).1 (List.mem_map.2 ⟨o, List.mem_append.2 ho, ?_⟩)
    rw [← heq, hkey]
  constructor
  · have hold : [key a].removeAll (as.map key) = [] := by
      have hkeys := h.exists_mem hmem
      rw [List.removeAll, List.filter_eq_nil_iff]
      intro k hk
      rw [List.mem_singleton.1 hk, hkey]
      simpa using hkeys
    have hkeys : ((as ++ [a]).map key).eraseDups = (as.map key).eraseDups := by
      rw [List.map_append, List.map_singleton, List.eraseDups_append, hold, List.eraseDups_nil,
        List.append_nil]
    rw [hkeys, ← h.names]
    simp [hname]
  · intro o ho
    have hcase : o = g' ∨ o ∈ before ∨ o ∈ after := by
      simpa [or_left_comm] using ho
    rw [List.filter_append]
    rcases hcase with rfl | ho
    · rw [hname, List.filter_cons_of_pos (by simp [hkey])]
      exact hg (h.holds g hmem)
    · have hmem : o ∈ before ++ g :: after := by
        simpa [or_left_comm] using Or.inr ho
      rw [List.filter_cons_of_neg (by simpa using hothers o ho), List.filter_nil, List.append_nil]
      exact h.holds o hmem

end Grouped

end Grouped

/-! ### Planning one mapping -/

/-- Whether a text is made an identifier. -/
def Naming.IsIdent (text : String) : Prop :=
  isIdentifier text = true ∧ (isKeyword text = true → text ∉ Ident.neverRaw)

theorem Naming.ident_eq_ok {text context : String} {i : Ident} :
    ident text context = .ok i ↔ IsIdent text ∧ i = ⟨isKeyword text, text⟩ := by
  unfold ident IsIdent
  cases isIdentifier text <;> cases isKeyword text <;> by_cases h : text ∈ Ident.neverRaw <;>
    simp [h, eq_comm]

/-- The name of the module that code for a namespace is put into. -/
def MappingSpace.moduleName (space : String) : String :=
  "mapping_extensions_" ++ Naming.slug space

namespace Mapping

/-- The destination of a mapping: the name that its trait is made of, and its path. -/
def destination (m : Mapping) : String × String := (m.display, m.dest)

/-- Whether the names in a mapping are identifiers and its types are types. -/
structure IsValid (m : Mapping) : Prop where
  source : (readType m.source).isSome = true
  dest : (readType m.dest).isSome = true
  display : Naming.IsIdent m.display
  moduleName : Naming.IsIdent (MappingSpace.moduleName m.space)
  pairs : ∀ pair ∈ m.pairs, Naming.IsIdent pair.source ∧ Naming.IsIdent pair.dest

end Mapping

/-- The name of a module is no keyword. -/
theorem MappingSpace.isKeyword_moduleName (space : String) :
    isKeyword (moduleName space) = false := by
  have hlong : ∀ k ∈ keywords, k.length < 19 := by decide +kernel
  have hlength : (moduleName space).length = 19 + (Naming.slug space).length := by
    have hpiece : "mapping_extensions_".length = 19 := by decide +kernel
    unfold moduleName
    rw [String.length_append, hpiece]
  rw [isKeyword, Bool.eq_false_iff, ne_eq, List.contains_iff_mem]
  intro hmem
  have hshort := hlong _ hmem
  omega

theorem namedType_eq_ok {text context : String} {type : Node} :
    namedType text context = .ok type ↔ readType text = some type := by
  unfold namedType
  cases readType text <;> simp

theorem Assignment.exists_of_iff {context : String} {pair : MemberPair} :
    (∃ a, of context pair = .ok a) ↔ Naming.IsIdent pair.source ∧ Naming.IsIdent pair.dest := by
  simp only [of, bind_eq_ok, Naming.ident_eq_ok]
  constructor
  · rintro ⟨_, source, ⟨hsource, -⟩, dest, ⟨hdest, -⟩, -⟩
    exact ⟨hsource, hdest⟩
  · rintro ⟨hsource, hdest⟩
    exact ⟨_, _, ⟨hsource, rfl⟩, _, ⟨hdest, rfl⟩, rfl⟩

namespace PlannedMapping

/-- The destination of a planned mapping. -/
def destination (p : PlannedMapping) : String × String := (p.display, p.destPath)

/-- What the plan for a mapping takes over from it. -/
structure Plans (p : PlannedMapping) (m : Mapping) : Prop where
  space : p.space = m.space
  module_ : p.module_ = ⟨false, MappingSpace.moduleName m.space⟩
  source : readType m.source = some p.source
  dest : readType m.dest = some p.dest
  destination : p.destination = m.destination

theorem plans_of {m : Mapping} {p : PlannedMapping} (h : of m = .ok p) : p.Plans m := by
  simp only [of, bind_eq_ok, namedType_eq_ok, Naming.ident_eq_ok] at h
  obtain ⟨source, hsource, dest, hdest, _, -, module_, ⟨-, hmodule⟩, assignments, -, h⟩ := h
  obtain rfl := Except.ok.inj h
  have hplain : module_ = ⟨false, MappingSpace.moduleName m.space⟩ := by
    rw [hmodule, ← MappingSpace.isKeyword_moduleName m.space]
    rfl
  exact ⟨rfl, hplain, hsource, hdest, rfl⟩

/-- **A mapping is planned** exactly where it is valid. -/
theorem exists_of_iff {m : Mapping} : (∃ p, of m = .ok p) ↔ m.IsValid := by
  simp only [of, bind_eq_ok, namedType_eq_ok, Naming.ident_eq_ok]
  constructor
  · rintro ⟨_, source, hsource, dest, hdest, _, ⟨hdisplay, -⟩, _, ⟨hmodule, -⟩, assignments,
      hassignments, -⟩
    refine ⟨Option.isSome_iff_exists.2 ⟨_, hsource⟩, Option.isSome_iff_exists.2 ⟨_, hdest⟩,
      hdisplay, hmodule, fun pair hpair => ?_⟩
    exact Assignment.exists_of_iff.1 (exists_ok_of_mapM hassignments hpair)
  · intro h
    obtain ⟨source, hsource⟩ := Option.isSome_iff_exists.1 h.source
    obtain ⟨dest, hdest⟩ := Option.isSome_iff_exists.1 h.dest
    obtain ⟨assignments, hassignments⟩ :=
      exists_mapM fun pair hpair => Assignment.exists_of_iff.2 (h.pairs pair hpair)
    exact ⟨_, source, hsource, dest, hdest, _, ⟨h.display, rfl⟩, _, ⟨h.moduleName, rfl⟩,
      assignments, hassignments, rfl⟩

end PlannedMapping

/-! ### Placing one mapping -/

/-- **What placing a mapping does to traits:** it joins the trait of its destination, or it is
refused because that trait has another destination, or it opens a trait at the end. -/
theorem MappingTarget.place_cases (p : PlannedMapping) (ts : List MappingTarget) :
    (∃ before t after, ts = before ++ t :: after ∧ t.display = p.display ∧ t.destPath = p.destPath ∧
      place p ts = .ok (before ++ { t with impls := t.impls ++ [p] } :: after)) ∨
    (∃ t ∈ ts, t.display = p.display ∧ t.destPath ≠ p.destPath ∧
      place p ts = .error (.conflictingMapping p.space p.display p.destPath t.destPath)) ∨
    ((∀ t ∈ ts, t.display ≠ p.display) ∧
      place p ts = .ok (ts ++ [⟨p.display, p.destPath, p.dest, [p]⟩])) := by
  induction ts with
  | nil => exact .inr (.inr ⟨List.forall_mem_nil _, rfl⟩)
  | cons t ts ih =>
    rw [place]
    by_cases hdisplay : t.display = p.display
    · rw [if_pos hdisplay]
      by_cases hpath : t.destPath = p.destPath
      · rw [if_pos hpath]
        exact .inl ⟨[], t, ts, rfl, hdisplay, hpath, rfl⟩
      · rw [if_neg hpath]
        exact .inr (.inl ⟨t, List.mem_cons_self, hdisplay, hpath, rfl⟩)
    · rw [if_neg hdisplay]
      rcases ih with ⟨before, u, after, rfl, hu, hpath, h⟩ | ⟨u, hmem, hu, hpath, h⟩ | ⟨hnone, h⟩
      · rw [h]
        exact .inl ⟨t :: before, u, after, rfl, hu, hpath, rfl⟩
      · rw [h]
        exact .inr (.inl ⟨u, List.mem_cons_of_mem _ hmem, hu, hpath, rfl⟩)
      · rw [h]
        exact .inr (.inr ⟨List.forall_mem_cons.2 ⟨hdisplay, hnone⟩, rfl⟩)

namespace MappingSpace

theorem extend_cases (p : PlannedMapping) (ss : List MappingSpace) :
    (∃ before s after, ss = before ++ s :: after ∧ s.name = p.space ∧
      extend p ss = (MappingTarget.place p s.targets).map fun targets =>
        before ++ { s with targets := targets } :: after) ∨
    ((∀ s ∈ ss, s.name ≠ p.space) ∧ extend p ss = .ok ss) := by
  induction ss with
  | nil => exact .inr ⟨List.forall_mem_nil _, rfl⟩
  | cons s ss ih =>
    rw [extend]
    by_cases hname : s.name = p.space
    · rw [if_pos hname]
      exact .inl ⟨[], s, ss, rfl, hname, rfl⟩
    · rw [if_neg hname]
      rcases ih with ⟨before, u, after, rfl, hu, h⟩ | ⟨hnone, h⟩
      · rw [h]
        refine .inl ⟨s :: before, u, after, rfl, hu, ?_⟩
        cases MappingTarget.place p u.targets <;> rfl
      · rw [h]
        exact .inr ⟨List.forall_mem_cons.2 ⟨hname, hnone⟩, rfl⟩

/-- **What placing a mapping does to modules:** it goes to the traits of its namespace, or it is
refused because another namespace has its module, or it opens a module at the end. -/
theorem place_cases (p : PlannedMapping) (ss : List MappingSpace) :
    (∃ before s after, ss = before ++ s :: after ∧ s.name = p.space ∧
      place p ss = (MappingTarget.place p s.targets).map fun targets =>
        before ++ { s with targets := targets } :: after) ∨
    (∀ s ∈ ss, s.name ≠ p.space) ∧
      ((∃ s ∈ ss, s.module_ = p.module_ ∧
        place p ss = .error (.conflictingNamespace p.space s.name p.module_.text)) ∨
      ((∀ s ∈ ss, s.module_ ≠ p.module_) ∧
        place p ss = .ok (ss ++ [⟨p.space, p.module_, [⟨p.display, p.destPath, p.dest, [p]⟩]⟩]))) := by
  unfold place
  by_cases hany : ss.any (·.name = p.space) = true
  · rw [if_pos hany]
    rcases extend_cases p ss with h | ⟨hnone, -⟩
    · exact .inl h
    · obtain ⟨s, hs, hname⟩ := List.any_eq_true.1 hany
      exact absurd (of_decide_eq_true hname) (hnone s hs)
  · rw [if_neg hany]
    have hnone : ∀ s ∈ ss, s.name ≠ p.space := by simpa using hany
    refine .inr ⟨hnone, ?_⟩
    split
    · rename_i s hs
      exact .inl ⟨s, List.mem_of_find?_eq_some hs, by simpa using List.find?_some hs, rfl⟩
    · rename_i hfree
      exact .inr ⟨by simpa using hfree, rfl⟩

end MappingSpace

/-! ### Arrangements -/

/-- The name of a trait. -/
def MappingTarget.traitIdent (t : MappingTarget) : Ident := ⟨false, "MapTo" ++ t.display⟩

/-- The destination of a trait. -/
def MappingTarget.destination (t : MappingTarget) : String × String := (t.display, t.destPath)

/-- Whether a trait has the plans of mappings for its implementations, in order. -/
structure MappingTarget.Holds (ms : List Mapping) (t : MappingTarget) : Prop where
  dest : readType t.destPath = some t.dest
  impls : ms.map PlannedMapping.of = t.impls.map .ok

/-- Whether a module has mappings sorted by destination in its traits. -/
structure MappingSpace.Holds (ms : List Mapping) (s : MappingSpace) : Prop where
  module_ : s.module_ = ⟨false, moduleName s.name⟩
  sorted : Grouped Mapping.destination MappingTarget.destination MappingTarget.Holds ms s.targets
  /-- The names of the traits differ. -/
  traits : (s.targets.map MappingTarget.traitIdent).Nodup

/-- Whether modules have mappings sorted by namespace. -/
structure MappingPlan.Holds (ms : List Mapping) (spaces : List MappingSpace) : Prop where
  sorted : Grouped Mapping.space MappingSpace.name MappingSpace.Holds ms spaces
  /-- The names of the modules differ. -/
  modules : (spaces.map MappingSpace.module_).Nodup

section Placed

variable {m : Mapping} {p : PlannedMapping} (hp : PlannedMapping.of m = .ok p)

include hp

theorem MappingTarget.holds_place {ms : List Mapping} {ts ts' : List MappingTarget}
    (h : Grouped Mapping.destination destination Holds ms ts)
    (htraits : (ts.map traitIdent).Nodup) (hplace : place p ts = .ok ts') :
    Grouped Mapping.destination destination Holds (ms ++ [m]) ts' ∧
      (ts'.map traitIdent).Nodup := by
  have hplans := PlannedMapping.plans_of hp
  have hdest : p.destination = m.destination := hplans.destination
  have hdisplay : p.display = m.display := congrArg Prod.fst hdest
  have hpath : p.destPath = m.dest := congrArg Prod.snd hdest
  rcases place_cases p ts with
    ⟨before, t, after, rfl, ht, htpath, hok⟩ | ⟨t, -, -, -, herror⟩ | ⟨hnone, hok⟩
  · -- the trait of the destination gets one more implementation
    obtain rfl := Except.ok.inj (hok.symm.trans hplace)
    have hkey : m.destination = t.destination := by
      rw [← hdest, PlannedMapping.destination, destination, ht, htpath]
    refine ⟨h.concat_old hkey rfl fun hold => ⟨hold.dest, ?_⟩, ?_⟩
    · rw [List.map_append, List.map_append, hold.impls]
      exact congrArg (_ ++ [·]) hp
    · rw [List.map_append, List.map_cons] at htraits ⊢
      exact htraits
  · cases herror.symm.trans hplace
  · -- a new trait, whose name no other has
    obtain rfl := Except.ok.inj (hok.symm.trans hplace)
    have hkey : ∀ t ∈ ts, t.destination ≠ m.destination := by
      intro t ht heq
      exact hnone t ht (congrArg Prod.fst (heq.trans hdest.symm))
    refine ⟨h.concat_new hkey hdest ⟨?_, congrArg ([·]) hp⟩, ?_⟩
    · rw [hpath]
      exact hplans.dest
    · rw [List.map_append, List.nodup_append]
      refine ⟨htraits, List.nodup_singleton _, fun name hname new hnew heq => ?_⟩
      obtain ⟨t, ht, rfl⟩ := List.mem_map.1 hname
      rw [List.map_singleton, List.mem_singleton] at hnew
      rw [hnew, traitIdent, traitIdent, Ident.mk.injEq, String.append_right_inj] at heq
      exact hnone t ht heq.2

/-- **One more mapping** in an arrangement. -/
theorem MappingSpace.holds_place {ms : List Mapping} {ss ss' : List MappingSpace}
    (h : MappingPlan.Holds ms ss) (hplace : place p ss = .ok ss') :
    MappingPlan.Holds (ms ++ [m]) ss' := by
  have hplans := PlannedMapping.plans_of hp
  rcases place_cases p ss with
    ⟨before, s, after, rfl, hname, hextend⟩ | ⟨hnone, ⟨s, -, -, herror⟩ | ⟨hfree, hok⟩⟩
  · rw [hextend] at hplace
    cases htargets : MappingTarget.place p s.targets with
    | error f =>
      rw [htargets] at hplace
      cases hplace
    | ok targets =>
      rw [htargets] at hplace
      obtain rfl := Except.ok.inj hplace
      refine ⟨h.sorted.concat_old (hplans.space ▸ hname.symm) rfl fun hold => ?_, ?_⟩
      · obtain ⟨hgrouped, htraits⟩ :=
          MappingTarget.holds_place hp hold.sorted hold.traits htargets
        exact ⟨hold.module_, hgrouped, htraits⟩
      · have hmodules := h.modules
        rw [List.map_append, List.map_cons] at hmodules ⊢
        exact hmodules
  · cases herror.symm.trans hplace
  · obtain rfl := Except.ok.inj (hok.symm.trans hplace)
    have hkey : ∀ s ∈ ss, s.name ≠ m.space := fun s hs heq => hnone s hs (heq.trans hplans.space.symm)
    have hempty : Grouped Mapping.destination MappingTarget.destination MappingTarget.Holds [] [] :=
      .nil
    obtain ⟨hgrouped, htraits⟩ := MappingTarget.holds_place hp hempty List.nodup_nil rfl
    refine ⟨h.sorted.concat_new hkey hplans.space ⟨?_, hgrouped, htraits⟩, ?_⟩
    · rw [hplans.module_, hplans.space]
    · rw [List.map_append, List.nodup_append]
      refine ⟨h.modules, List.nodup_singleton _, fun module_ hmodule new hnew heq => ?_⟩
      obtain ⟨s, hs, rfl⟩ := List.mem_map.1 hmodule
      rw [List.map_singleton, List.mem_singleton] at hnew
      exact hfree s hs (heq.trans hnew)

end Placed

/-! ### Refusals -/

/-- Why a mapping cannot be added to the mappings that were accepted before it. -/
inductive Mapping.Clash (ms : List Mapping) (m : Mapping) : Failure → Prop where
  /-- Its namespace is new, and its module is that of another one. -/
  | space (hnew : ∀ q ∈ ms, q.space ≠ m.space) {q : Mapping} (hq : q ∈ ms)
      (hmodule : MappingSpace.moduleName q.space = MappingSpace.moduleName m.space) :
      Clash ms m (.conflictingNamespace m.space q.space (MappingSpace.moduleName m.space))
  /-- In its namespace, its name is that of another destination. -/
  | display {q : Mapping} (hq : q ∈ ms) (hspace : q.space = m.space)
      (hdisplay : q.display = m.display) (hdest : q.dest ≠ m.dest) :
      Clash ms m (.conflictingMapping m.space m.display m.dest q.dest)

section Clash

variable {ms : List Mapping} {m : Mapping} {f : Failure}

/-- Traits whose names differ have different destinations. -/
theorem MappingTarget.eq_of_display {ts : List MappingTarget} (h : (ts.map traitIdent).Nodup)
    {t u : MappingTarget} (ht : t ∈ ts) (hu : u ∈ ts) (hdisplay : t.display = u.display) : t = u :=
  List.inj_on_of_nodup_map h ht hu (by rw [traitIdent, traitIdent, hdisplay])

/-- In a namespace, a mapping clashes with the trait that has its name and another destination. -/
theorem MappingSpace.Holds.clash_iff {s : MappingSpace}
    (h : Holds (ms.filter (·.space = s.name)) s) (hname : s.name = m.space)
    (hs : ∃ q ∈ ms, q.space = s.name) :
    m.Clash ms f ↔ ∃ t ∈ s.targets, t.display = m.display ∧ t.destPath ≠ m.dest ∧
      f = .conflictingMapping m.space m.display m.dest t.destPath := by
  constructor
  · rintro (⟨hnew, -, -⟩ | ⟨hq, hspace, hdisplay, hdest⟩)
    · obtain ⟨q, hq, hspace⟩ := hs
      exact absurd (hspace.trans hname) (hnew q hq)
    · obtain ⟨t, ht, heq⟩ := h.sorted.exists_group
        (List.mem_filter.2 ⟨hq, by simpa [hname] using hspace⟩)
      obtain ⟨htdisplay, htpath⟩ := Prod.ext_iff.1 heq
      exact ⟨t, ht, htdisplay.trans hdisplay, fun h => hdest (htpath.symm.trans h),
        congrArg _ htpath.symm⟩
  · rintro ⟨t, ht, hdisplay, hpath, rfl⟩
    obtain ⟨q, hq, heq⟩ := h.sorted.exists_mem ht
    obtain ⟨hmem, hspace⟩ := List.mem_filter.1 hq
    obtain ⟨hqdisplay, hqdest⟩ := Prod.ext_iff.1 heq
    have hqdest : q.dest = t.destPath := hqdest
    rw [← hqdest]
    exact .display hmem ((of_decide_eq_true hspace).trans hname) (hqdisplay.trans hdisplay)
      (hqdest ▸ hpath)

/-- In a namespace that is new, a mapping clashes with the module that has its name. -/
theorem MappingPlan.Holds.clash_iff {spaces : List MappingSpace} (h : Holds ms spaces)
    (hnew : ∀ q ∈ ms, q.space ≠ m.space) :
    m.Clash ms f ↔ ∃ s ∈ spaces, s.module_ = ⟨false, MappingSpace.moduleName m.space⟩ ∧
      f = .conflictingNamespace m.space s.name (MappingSpace.moduleName m.space) := by
  constructor
  · rintro (⟨-, hq, hmodule⟩ | ⟨hq, hspace, -, -⟩)
    · obtain ⟨s, hs, hname⟩ := h.sorted.exists_group hq
      refine ⟨s, hs, ?_, by rw [hname]⟩
      rw [(h.sorted.holds s hs).module_, hname, hmodule]
    · exact absurd hspace (hnew _ hq)
  · rintro ⟨s, hs, hmodule, rfl⟩
    obtain ⟨q, hq, hspace⟩ := h.sorted.exists_mem hs
    rw [← hspace]
    refine .space hnew hq ?_
    rw [(h.sorted.holds s hs).module_, ← hspace] at hmodule
    exact congrArg Ident.name hmodule

/-- A trait refuses a mapping of its name that has another destination. -/
theorem MappingTarget.place_eq_error {p : PlannedMapping} {ts : List MappingTarget}
    (hnames : (ts.map traitIdent).Nodup) :
    place p ts = .error f ↔ ∃ t ∈ ts, t.display = p.display ∧ t.destPath ≠ p.destPath ∧
      f = .conflictingMapping p.space p.display p.destPath t.destPath := by
  rcases place_cases p ts with
    ⟨before, t, after, heq, ht, hpath, hok⟩ | ⟨t, ht, hdisplay, hpath, herror⟩ | ⟨hnone, hok⟩
  · have hmem : t ∈ ts := heq ▸ List.mem_append_right _ List.mem_cons_self
    rw [hok]
    refine iff_of_false (fun h => by cases h) ?_
    rintro ⟨u, hu, hdisplay, hne, -⟩
    obtain rfl := eq_of_display hnames hu hmem (hdisplay.trans ht.symm)
    exact hne hpath
  · rw [herror]
    constructor
    · intro h
      obtain rfl := Except.error.inj h
      exact ⟨t, ht, hdisplay, hpath, rfl⟩
    · rintro ⟨u, hu, hudisplay, -, rfl⟩
      obtain rfl := eq_of_display hnames hu ht (hudisplay.trans hdisplay.symm)
      rfl
  · rw [hok]
    refine iff_of_false (fun h => by cases h) ?_
    rintro ⟨u, hu, hdisplay, -⟩
    exact hnone u hu hdisplay

/-- A new namespace is refused by the module that has its name. -/
theorem MappingSpace.place_eq_error_of_new {p : PlannedMapping} {ss : List MappingSpace}
    (hnames : (ss.map module_).Nodup) (hnew : ∀ s ∈ ss, s.name ≠ p.space) :
    place p ss = .error f ↔ ∃ s ∈ ss, s.module_ = p.module_ ∧
      f = .conflictingNamespace p.space s.name p.module_.text := by
  rcases place_cases p ss with
    ⟨before, s, after, heq, hname, -⟩ | ⟨-, ⟨s, hs, hmodule, herror⟩ | ⟨hfree, hok⟩⟩
  · exact absurd hname (hnew s (heq ▸ List.mem_append_right _ List.mem_cons_self))
  · rw [herror]
    constructor
    · intro h
      obtain rfl := Except.error.inj h
      exact ⟨s, hs, hmodule, rfl⟩
    · rintro ⟨t, ht, htmodule, rfl⟩
      obtain rfl := List.inj_on_of_nodup_map hnames hs ht (hmodule.trans htmodule.symm)
      rfl
  · rw [hok]
    refine iff_of_false (fun h => by cases h) ?_
    rintro ⟨s, hs, hmodule, -⟩
    exact hfree s hs hmodule

/-- **A planned mapping is refused** exactly where it clashes with one that was accepted. -/
theorem MappingSpace.place_eq_error {p : PlannedMapping} (hp : PlannedMapping.of m = .ok p)
    {spaces : List MappingSpace} (h : MappingPlan.Holds ms spaces) :
    place p spaces = .error f ↔ m.Clash ms f := by
  have hplans := PlannedMapping.plans_of hp
  have hspace : p.space = m.space := hplans.space
  have hdisplay : p.display = m.display := congrArg Prod.fst hplans.destination
  have hpath : p.destPath = m.dest := congrArg Prod.snd hplans.destination
  rcases place_cases p spaces with ⟨before, s, after, heq, hname, hplace⟩ | ⟨hnone, -⟩
  · have hs : s ∈ spaces := heq ▸ List.mem_append_right _ List.mem_cons_self
    have hold : s.Holds (ms.filter (·.space = s.name)) := h.sorted.holds s hs
    rw [hplace, map_eq_error, MappingTarget.place_eq_error hold.traits,
      hold.clash_iff (hname.trans hspace) (h.sorted.exists_mem hs), hspace, hdisplay, hpath]
  · have hnew : ∀ q ∈ ms, q.space ≠ m.space := by
      intro q hq heq
      obtain ⟨s, hs, hname⟩ := h.sorted.exists_group hq
      exact hnone s hs (by rw [hname, heq, hspace])
    rw [place_eq_error_of_new h.modules hnone, h.clash_iff hnew, hspace, hplans.module_]
    rfl

end Clash

/-! ### Plans -/

/-- The mappings that a trait in a module is implemented for. -/
def MappingTarget.mappings (ms : List Mapping) (s : MappingSpace) (t : MappingTarget) :
    List Mapping :=
  (ms.filter (·.space = s.name)).filter (·.destination = t.destination)

namespace MappingPlan.Holds

variable {ms : List Mapping} {spaces : List MappingSpace} (h : Holds ms spaces)

include h

/-- **Every mapping stands with its trait,** once. -/
theorem perm_mappings :
    (spaces.flatMap fun s => s.targets.flatMap fun t => t.mappings ms s).Perm ms := by
  have hspace : ∀ s ∈ spaces, (s.targets.flatMap fun t => t.mappings ms s).Perm
      (ms.filter (·.space = s.name)) := fun s hs => (h.sorted.holds s hs).sorted.perm
  exact (List.Perm.flatMap_left spaces hspace).trans h.sorted.perm

/-- Nothing that modules hold is lost, and nothing is there twice. -/
theorem perm_impls :
    ((spaces.flatMap fun s => s.targets.flatMap (·.impls)).map Except.ok).Perm
      (ms.map PlannedMapping.of) := by
  have himpls : (spaces.flatMap fun s => s.targets.flatMap (·.impls)).map Except.ok =
      (spaces.flatMap fun s => s.targets.flatMap fun t => t.mappings ms s).map
        PlannedMapping.of := by
    simp only [List.map_flatMap]
    refine List.flatMap_congr fun s hs => List.flatMap_congr fun t ht => ?_
    exact ((h.sorted.holds s hs).sorted.holds t ht).impls.symm
  rw [himpls]
  exact h.perm_mappings.map _

end MappingPlan.Holds

namespace MappingPlan

/-- Why a plan refuses a mapping, if it does. -/
def refusal? (plan : MappingPlan) (m : Mapping) : Option Failure :=
  match PlannedMapping.of m >>= fun p => MappingSpace.place p plan.spaces with
  | .ok _ => none
  | .error f => some f

/-- What becomes of mappings that are added one after the other: each of them, and why it was
refused if it was. -/
def outcomes (plan : MappingPlan) : List Mapping → List (Mapping × Option Failure)
  | [] => []
  | m :: ms => (m, plan.refusal? m) :: outcomes (plan.add m) ms

/-- The mappings that were accepted, in order. -/
def accepted (plan : MappingPlan) (ms : List Mapping) : List Mapping :=
  ((plan.outcomes ms).filter (·.2.isNone)).map (·.1)

variable {plan : MappingPlan} {m : Mapping} {ms : List Mapping}

theorem refusal?_eq_some {f : Failure} : plan.refusal? m = some f ↔
    (PlannedMapping.of m >>= fun p => MappingSpace.place p plan.spaces) = .error f := by
  unfold refusal?
  split <;> simp_all

theorem add_of_refused {f : Failure} (h : plan.refusal? m = some f) :
    plan.add m = ⟨plan.spaces, plan.failures ++ [f]⟩ := by
  unfold add
  rw [refusal?_eq_some.1 h]

theorem exists_of_accepted (h : plan.refusal? m = none) : ∃ p spaces,
    PlannedMapping.of m = .ok p ∧ MappingSpace.place p plan.spaces = .ok spaces ∧
      plan.add m = ⟨spaces, plan.failures⟩ := by
  cases hplace : PlannedMapping.of m >>= fun p => MappingSpace.place p plan.spaces with
  | ok spaces =>
    obtain ⟨p, hp, hspaces⟩ := bind_eq_ok.1 hplace
    refine ⟨p, spaces, hp, hspaces, ?_⟩
    unfold add
    rw [hplace]
  | error f =>
    rw [refusal?_eq_some.2 hplace] at h
    cases h

theorem accepted_cons_of_accepted (h : plan.refusal? m = none) :
    plan.accepted (m :: ms) = m :: (plan.add m).accepted ms := by
  rw [accepted, outcomes, h]
  rfl

theorem accepted_cons_of_refused {f : Failure} (h : plan.refusal? m = some f) :
    plan.accepted (m :: ms) = (plan.add m).accepted ms := by
  rw [accepted, outcomes, h]
  rfl

theorem map_fst_outcomes (plan : MappingPlan) (ms : List Mapping) :
    (plan.outcomes ms).map (·.1) = ms := by
  induction ms generalizing plan with
  | nil => rfl
  | cons m ms ih => rw [outcomes, List.map_cons, ih]

theorem outcomes_append (plan : MappingPlan) (ms ms' : List Mapping) :
    plan.outcomes (ms ++ ms') = plan.outcomes ms ++ (ms.foldl add plan).outcomes ms' := by
  induction ms generalizing plan with
  | nil => rfl
  | cons m ms ih => rw [List.cons_append, outcomes, outcomes, ih, List.cons_append, List.foldl_cons]

theorem accepted_sublist (plan : MappingPlan) (ms : List Mapping) :
    (plan.accepted ms).Sublist ms := by
  have hsub := (List.filter_sublist (p := (·.2.isNone)) (l := plan.outcomes ms)).map (·.1)
  rwa [map_fst_outcomes] at hsub

/-- The failures of a plan are the refusals. -/
theorem failures_foldl (plan : MappingPlan) (ms : List Mapping) :
    (ms.foldl add plan).failures = plan.failures ++ (plan.outcomes ms).filterMap (·.2) := by
  induction ms generalizing plan with
  | nil => exact (List.append_nil _).symm
  | cons m ms ih =>
    rw [List.foldl_cons, ih, outcomes]
    cases h : plan.refusal? m with
    | none =>
      obtain ⟨p, spaces, -, -, hadd⟩ := exists_of_accepted h
      rw [hadd]
      simp
    | some f =>
      rw [add_of_refused h]
      simp

/-- **What a plan holds grows** by the mappings that it accepts. -/
theorem holds_foldl {before : List Mapping} (h : Holds before plan.spaces) :
    Holds (before ++ plan.accepted ms) (ms.foldl add plan).spaces := by
  induction ms generalizing plan before with
  | nil => rwa [accepted, outcomes, List.filter_nil, List.map_nil, List.append_nil]
  | cons m ms ih =>
    rw [List.foldl_cons]
    cases hrefusal : plan.refusal? m with
    | none =>
      obtain ⟨p, spaces, hp, hplace, hadd⟩ := exists_of_accepted hrefusal
      have hnext : Holds (before ++ [m]) (plan.add m).spaces := by
        rw [hadd]
        exact MappingSpace.holds_place hp h hplace
      rw [accepted_cons_of_accepted hrefusal, List.append_cons]
      exact ih hnext
    | some f =>
      have hsame : Holds before (plan.add m).spaces := by rwa [add_of_refused hrefusal]
      rw [accepted_cons_of_refused hrefusal]
      exact ih hsame

/-- The plan of mappings holds those that were accepted. -/
theorem holds_ofMappings (ms : List Mapping) : Holds (accepted {} ms) (ofMappings ms).spaces := by
  have hempty : Holds [] ({} : MappingPlan).spaces := ⟨.nil, List.nodup_nil⟩
  exact holds_foldl hempty

/-- **A mapping is refused** where it has no plan, or where it clashes with one that was accepted. -/
theorem refusal?_eq_some_iff {before : List Mapping} (h : Holds before plan.spaces) {f : Failure} :
    plan.refusal? m = some f ↔
      PlannedMapping.of m = .error f ∨ m.IsValid ∧ m.Clash before f := by
  rw [refusal?_eq_some, bind_eq_error, ← PlannedMapping.exists_of_iff]
  refine or_congr_right ⟨?_, ?_⟩
  · rintro ⟨p, hp, hplace⟩
    exact ⟨⟨p, hp⟩, (MappingSpace.place_eq_error hp h).1 hplace⟩
  · rintro ⟨⟨p, hp⟩, hclash⟩
    exact ⟨p, hp, (MappingSpace.place_eq_error hp h).2 hclash⟩

end MappingPlan

end Scaffold
