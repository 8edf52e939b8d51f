import Scaffold.Proofs.Failure
import Scaffold.Proofs.Text.Segments

/-!
# Namespaces that share a module

The module for a namespace is named by the slug of the namespace, in which an underscore inside a
segment is doubled and a single one stands between segments.  So the slug can be read from the left,
two underscores at a time, as long as no segment begins with one (`unslug_slugChars`): what is left
of a run of underscores is then the one that ends a segment.  Read from the right, the slug is that
of the path written backwards (`reverse_slugChars`), so it can be read as well where no segment ends
with an underscore.  Two namespaces with one slug therefore have segments of both kinds
(`Naming.eq_of_slug_eq_of_begins`, `Naming.eq_of_slug_eq_of_ends`), and only between such namespaces
are mappings refused because their modules would be the same (`MappingPlan.slug_eq_of_mem_failures`,
`MappingPlan.slug_tells_path`).
-/

namespace Scaffold

namespace Naming

open Text

/-! ### Slugs of segments -/

/-- The characters of the slug of a path with the given segments. -/
def slugChars (segments : List (List Char)) : List Char :=
  ['_'].intercalate (segments.map doubleUnderscores)

/-- Whether names are the segments of a module path. -/
def IsModulePath (names : List String) : Prop := ∀ name ∈ names, name ≠ "" ∧ ':' ∉ name.toList

theorem slugChars_singleton (segment : List Char) :
    slugChars [segment] = doubleUnderscores segment := List.intercalate_singleton

theorem slugChars_cons_cons (segment next : List Char) (rest : List (List Char)) :
    slugChars (segment :: next :: rest) =
      doubleUnderscores segment ++ '_' :: slugChars (next :: rest) := by
  rw [slugChars, List.map_cons, List.map_cons, List.intercalate_cons_cons, List.append_assoc,
    List.singleton_append, slugChars, List.map_cons]

/-- The slug of a path is made of its segments. -/
theorem toList_slug {names : List String} (h : IsModulePath names) :
    (slug (ofSegments names)).toList = slugChars (names.map String.toList) := by
  have hsegments : (splitColons (ofSegments names).toList).filter (!·.isEmpty) =
      names.map String.toList := by
    cases names with
    | nil => simp [ofSegments, splitColons]
    | cons name rest =>
      have hcut := map_splitColons_ofSegments (List.cons_ne_nil name rest) fun n hn => (h n hn).2
      have hid : String.toList ∘ String.ofList = id := funext fun _ => String.toList_ofList
      have hlists := congrArg (List.map String.toList) hcut
      rw [List.map_map, hid, List.map_id] at hlists
      rw [hlists, List.filter_eq_self]
      intro cs hcs
      obtain ⟨n, hn, rfl⟩ := List.mem_map.1 hcs
      have hne : n.toList ≠ [] := fun hnil => (h n hn).1 (String.toList_eq_nil_iff.1 hnil)
      simpa using hne
  rw [slug, hsegments, String.toList_intercalate, List.map_map, slugChars]
  have hid : String.toList ∘ (fun segment => String.ofList (doubleUnderscores segment)) =
      doubleUnderscores := funext fun _ => String.toList_ofList
  rw [hid]
  rfl

/-! ### Reading from the left -/

/-- Reads a slug: two underscores stand for one of a segment, and a single one ends a segment. -/
def unslug : List Char → List (List Char)
  | [] => [[]]
  | '_' :: '_' :: cs => (unslug cs).modifyHead ('_' :: ·)
  | c :: cs => if c = '_' then [] :: unslug cs else (unslug cs).modifyHead (c :: ·)

theorem unslug_underscores (cs : List Char) :
    unslug ('_' :: '_' :: cs) = (unslug cs).modifyHead ('_' :: ·) := by
  rw [unslug]

theorem unslug_of_ne {c : Char} (h : c ≠ '_') (cs : List Char) :
    unslug (c :: cs) = (unslug cs).modifyHead (c :: ·) := by
  rw [unslug, if_neg h]
  exact fun _ hc => absurd hc h

theorem unslug_separator {cs : List Char} (h : cs.head? ≠ some '_') :
    unslug ('_' :: cs) = [] :: unslug cs := by
  rw [unslug, if_pos rfl]
  rintro ds - rfl
  exact h rfl

/-- A segment is read back, whatever follows it. -/
theorem unslug_append (segment rest : List Char) :
    unslug (doubleUnderscores segment ++ rest) = (unslug rest).modifyHead (segment ++ ·) := by
  induction segment with
  | nil => exact (congrFun List.modifyHead_id _).symm
  | cons c segment ih =>
    have hcons : doubleUnderscores (c :: segment) =
        (if c = '_' then ['_', '_'] else [c]) ++ doubleUnderscores segment := rfl
    have htail : ((unslug rest).modifyHead (segment ++ ·)).modifyHead (c :: ·) =
        (unslug rest).modifyHead (c :: segment ++ ·) := List.modifyHead_modifyHead ..
    rw [hcons]
    split_ifs with hc
    · subst hc
      rw [List.append_assoc, List.cons_append, List.singleton_append, unslug_underscores, ih, htail]
    · rw [List.append_assoc, List.singleton_append, unslug_of_ne hc, ih, htail]

/-- **A slug is read back** where no segment begins with an underscore. -/
theorem unslug_slugChars {segments : List (List Char)} (hne : segments ≠ [])
    (h : ∀ segment ∈ segments, segment ≠ [] ∧ segment.head? ≠ some '_') :
    unslug (slugChars segments) = segments := by
  induction segments with
  | nil => exact absurd rfl hne
  | cons segment rest ih =>
    cases rest with
    | nil =>
      have hlast := unslug_append segment []
      rw [List.append_nil] at hlast
      rw [slugChars_singleton, hlast]
      simp [unslug]
    | cons next rest =>
      have hrest := ih (List.cons_ne_nil _ _) (List.forall_mem_cons.1 h).2
      -- the next segment begins with another character, so the underscore before it is a single one
      have hhead : (slugChars (next :: rest)).head? ≠ some '_' := by
        obtain ⟨hnext, hbegin⟩ := h next (List.mem_cons_of_mem _ List.mem_cons_self)
        obtain ⟨c, cs, rfl⟩ := List.exists_cons_of_ne_nil hnext
        have hc : c ≠ '_' := fun hc => hbegin (congrArg some hc)
        cases rest <;> simp [slugChars, doubleUnderscores, hc]
      rw [slugChars_cons_cons, unslug_append, unslug_separator hhead, hrest]
      simp

/-- Paths with one slug are the same, where no segment begins with an underscore. -/
theorem eq_of_slugChars_eq {a b : List (List Char)}
    (h : ∀ segment ∈ a ++ b, segment ≠ [] ∧ segment.head? ≠ some '_')
    (heq : slugChars a = slugChars b) : a = b := by
  obtain ⟨ha, hb⟩ := List.forall_mem_append.1 h
  have hempty {segments : List (List Char)}
      (hs : ∀ segment ∈ segments, segment ≠ [] ∧ segment.head? ≠ some '_')
      (hnil : slugChars segments = []) : segments = [] := by
    by_contra hne
    have hread := unslug_slugChars hne hs
    rw [hnil, unslug] at hread
    exact (hs [] (hread ▸ List.mem_cons_self)).1 rfl
  by_cases hnil : a = []
  · subst hnil
    exact (hempty hb heq.symm).symm
  · have hbne : b ≠ [] := by
      rintro rfl
      exact hnil (hempty ha heq)
    rw [← unslug_slugChars hnil ha, heq, unslug_slugChars hbne hb]

/-! ### Reading from the right -/

theorem slugChars_concat {segments : List (List Char)} (h : segments ≠ []) (last : List Char) :
    slugChars (segments ++ [last]) = slugChars segments ++ '_' :: doubleUnderscores last := by
  induction segments with
  | nil => exact absurd rfl h
  | cons segment rest ih =>
    cases rest with
    | nil =>
      rw [List.singleton_append, slugChars_cons_cons, slugChars_singleton, slugChars_singleton]
    | cons next rest =>
      have hrest := ih (List.cons_ne_nil next rest)
      rw [List.cons_append] at hrest
      rw [List.cons_append, List.cons_append, slugChars_cons_cons, hrest, slugChars_cons_cons,
        List.append_assoc, List.cons_append]

theorem reverse_doubleUnderscores (segment : List Char) :
    (doubleUnderscores segment).reverse = doubleUnderscores segment.reverse := by
  rw [doubleUnderscores, List.reverse_flatMap, doubleUnderscores]
  refine List.flatMap_congr fun c _ => ?_
  rw [Function.comp_apply]
  split_ifs <;> rfl

/-- **A slug read from the right** is that of the path written backwards. -/
theorem reverse_slugChars (segments : List (List Char)) :
    (slugChars segments).reverse = slugChars (segments.map List.reverse).reverse := by
  induction segments with
  | nil => rfl
  | cons segment rest ih =>
    rw [List.map_cons, List.reverse_cons]
    cases rest with
    | nil =>
      rw [List.map_nil, List.reverse_nil, List.nil_append, slugChars_singleton,
        slugChars_singleton, reverse_doubleUnderscores]
    | cons next rest =>
      have hne : ((next :: rest).map List.reverse).reverse ≠ [] := by simp
      rw [slugChars_cons_cons, List.reverse_append, List.reverse_cons, ih,
        reverse_doubleUnderscores, slugChars_concat hne, List.append_assoc, List.singleton_append]

/-! ### Paths with one slug -/

/-- Whether a name begins with an underscore. -/
def BeginsWithUnderscore (name : String) : Prop := name.toList.head? = some '_'

/-- Whether a name ends with an underscore. -/
def EndsWithUnderscore (name : String) : Prop := name.toList.getLast? = some '_'

section

variable {a b : List String} (ha : IsModulePath a) (hb : IsModulePath b)

include ha hb

theorem toList_ne_nil_of_mem : ∀ name ∈ a ++ b, name.toList ≠ [] := by
  intro name hname hnil
  have hempty : name = "" := String.toList_eq_nil_iff.1 hnil
  rcases List.mem_append.1 hname with hname | hname
  · exact (ha name hname).1 hempty
  · exact (hb name hname).1 hempty

/-- Segments that are read from the left are told by the slug of their path. -/
theorem eq_of_slug_eq_of_begins (h : ∀ name ∈ a ++ b, ¬BeginsWithUnderscore name)
    (heq : slug (ofSegments a) = slug (ofSegments b)) : a = b := by
  have hchars : slugChars (a.map String.toList) = slugChars (b.map String.toList) := by
    rw [← toList_slug ha, heq, toList_slug hb]
  refine List.map_injective_iff.2 (fun _ _ => String.toList_injective)
    (eq_of_slugChars_eq ?_ hchars)
  intro segment hsegment
  rw [← List.map_append] at hsegment
  obtain ⟨name, hname, rfl⟩ := List.mem_map.1 hsegment
  exact ⟨toList_ne_nil_of_mem ha hb name hname, h name hname⟩

/-- Segments that are read from the right are told by the slug of their path. -/
theorem eq_of_slug_eq_of_ends (h : ∀ name ∈ a ++ b, ¬EndsWithUnderscore name)
    (heq : slug (ofSegments a) = slug (ofSegments b)) : a = b := by
  let backwards (names : List String) : List (List Char) :=
    ((names.map String.toList).map List.reverse).reverse
  have hchars : slugChars (backwards a) = slugChars (backwards b) := by
    rw [← reverse_slugChars, ← reverse_slugChars, ← toList_slug ha, heq, toList_slug hb]
  have hback : backwards a = backwards b := by
    refine eq_of_slugChars_eq ?_ hchars
    intro segment hsegment
    obtain ⟨name, hname, rfl⟩ : ∃ name ∈ a ++ b, name.toList.reverse = segment := by
      simpa [backwards, or_and_right, exists_or] using hsegment
    rw [List.head?_reverse]
    exact ⟨fun hnil => toList_ne_nil_of_mem ha hb name hname (List.reverse_eq_nil_iff.1 hnil),
      h name hname⟩
  have hsame : (a.map String.toList).map List.reverse = (b.map String.toList).map List.reverse :=
    List.reverse_injective hback
  exact List.map_injective_iff.2 (fun _ _ => String.toList_injective)
    (List.map_injective_iff.2 List.reverse_injective hsame)

end

end Naming

/-! ### Refused mappings -/

namespace MappingPlan

/-- What is refused is refused by the plan of the mappings before it. -/
theorem exists_of_mem_outcomes {plan : MappingPlan} {ms : List Mapping} {m : Mapping}
    {refusal : Option Failure} (h : (m, refusal) ∈ plan.outcomes ms) :
    ∃ before after, ms = before ++ m :: after ∧ (before.foldl add plan).refusal? m = refusal := by
  induction ms generalizing plan with
  | nil => cases h
  | cons first ms ih =>
    rcases List.mem_cons.1 h with heq | hmem
    · obtain ⟨rfl, rfl⟩ := Prod.mk.inj heq
      exact ⟨[], ms, rfl, rfl⟩
    · obtain ⟨before, after, rfl, hrefusal⟩ := ih hmem
      exact ⟨first :: before, after, rfl, hrefusal⟩

/-- **Namespaces that clash** differ, and have one slug. -/
theorem slug_eq_of_mem_failures {ms : List Mapping} {space existing module_ : String}
    (h : .conflictingNamespace space existing module_ ∈ (ofMappings ms).failures) :
    space ≠ existing ∧ Naming.slug space = Naming.slug existing := by
  have hfailures : (ofMappings ms).failures = (outcomes {} ms).filterMap (·.2) :=
    failures_foldl {} ms
  rw [hfailures] at h
  obtain ⟨⟨m, _⟩, hmem, rfl⟩ := List.mem_filterMap.1 h
  obtain ⟨before, after, -, hrefusal⟩ := exists_of_mem_outcomes hmem
  rcases (refusal?_eq_some_iff (holds_ofMappings before)).1 hrefusal with hplan | ⟨-, hclash⟩
  · -- a mapping that has no plan is refused for one of its names or types
    have hscope : Failure.scope (.conflictingNamespace space existing module_) = .entity :=
      PlannedMapping.failsOnly_of m _ hplan
    cases hscope
  · cases hclash with
    | space hnew hq hmodule =>
      refine ⟨fun heq => hnew _ hq heq.symm, ?_⟩
      exact ((String.append_right_inj _).1 hmodule).symm

open Naming Text

/-- **The slug of a module path tells the path** where no segment ends with an underscore, and also
where none begins with one.  So if mappings of one namespace are refused because its module is that
of another namespace, a segment of these two ends with an underscore and one begins with one. -/
theorem slug_tells_path {a b : List String} (ha : IsModulePath a) (hb : IsModulePath b) :
    ((∀ name ∈ a ++ b, ¬EndsWithUnderscore name) →
      slug (ofSegments a) = slug (ofSegments b) → ofSegments a = ofSegments b) ∧
    ((∀ name ∈ a ++ b, ¬BeginsWithUnderscore name) →
      slug (ofSegments a) = slug (ofSegments b) → ofSegments a = ofSegments b) ∧
    ∀ ms module_,
      .conflictingNamespace (ofSegments a) (ofSegments b) module_ ∈ (ofMappings ms).failures →
        (∃ name ∈ a ++ b, EndsWithUnderscore name) ∧
        ∃ name ∈ a ++ b, BeginsWithUnderscore name := by
  have hends (h : ∀ name ∈ a ++ b, ¬EndsWithUnderscore name)
      (heq : slug (ofSegments a) = slug (ofSegments b)) : ofSegments a = ofSegments b :=
    congrArg ofSegments (eq_of_slug_eq_of_ends ha hb h heq)
  have hbegins (h : ∀ name ∈ a ++ b, ¬BeginsWithUnderscore name)
      (heq : slug (ofSegments a) = slug (ofSegments b)) : ofSegments a = ofSegments b :=
    congrArg ofSegments (eq_of_slug_eq_of_begins ha hb h heq)
  refine ⟨hends, hbegins, fun ms module_ hf => ?_⟩
  obtain ⟨hne, hslug⟩ := slug_eq_of_mem_failures hf
  constructor
  · by_contra hnone
    exact hne (hends (fun name hname hend => hnone ⟨name, hname, hend⟩) hslug)
  · by_contra hnone
    exact hne (hbegins (fun name hname hbegin => hnone ⟨name, hname, hbegin⟩) hslug)

/-- A mapping of a type that is the only one of its module. -/
def loneMapping (space : String) : Mapping :=
  ⟨space, space ++ "::Thing", "crate::Stuff", "Stuff", []⟩

theorem slug_tells_path_apart :
    IsModulePath ["crate", "a_b"] ∧ IsModulePath ["crate", "a", "b"] ∧
    slug "crate::a_b" ≠ slug "crate::a::b" ∧
    IsModulePath ["crate", "a_", "b"] ∧ IsModulePath ["crate", "a", "_b"] ∧
    .conflictingNamespace "crate::a_::b" "crate::a::_b" "mapping_extensions_crate_a___b" ∈
      (ofMappings [loneMapping "crate::a::_b", loneMapping "crate::a_::b"]).failures ∧
    (∃ name ∈ ["crate", "a_", "b", "crate", "a", "_b"], EndsWithUnderscore name) ∧
    ∃ name ∈ ["crate", "a_", "b", "crate", "a", "_b"], BeginsWithUnderscore name := by
  have hwithin : IsModulePath ["crate", "a_b"] := by simp [IsModulePath]
  have hbetween : IsModulePath ["crate", "a", "b"] := by simp [IsModulePath]
  have hends : IsModulePath ["crate", "a_", "b"] := by simp [IsModulePath]
  have hbegins : IsModulePath ["crate", "a", "_b"] := by simp [IsModulePath]
  have hrefused : .conflictingNamespace "crate::a_::b" "crate::a::_b"
      "mapping_extensions_crate_a___b" ∈
      (ofMappings [loneMapping "crate::a::_b", loneMapping "crate::a_::b"]).failures := by
    decide +kernel
  refine ⟨hwithin, hbetween, fun heq => ?_, hends, hbegins, hrefused,
    (slug_tells_path hends hbegins).2.2 _ _ hrefused⟩
  have hpaths := (slug_tells_path hwithin hbetween).1 (by simp [EndsWithUnderscore]) heq
  exact absurd hpaths (by decide)

end MappingPlan

end Scaffold
