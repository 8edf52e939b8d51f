import Scaffold.Proofs.Generation
import Scaffold.Proofs.Mapping.Plan

/-!
# The code of an arrangement

The code of a plan follows its arrangement: a module for each namespace, in it a trait for each
destination, and after the trait one implementation for each mapping that was accepted
(`MappingPlan.exists_code`).  `Generation.ofMappings_arranged` puts this together with what is known
of plans: which mappings are accepted, and where the code of each of them stands.
-/

namespace Scaffold

open Syntax Template

/-! ### Code -/

/-- The name of the function of a trait. -/
def MappingTarget.methodIdent (t : MappingTarget) : Ident :=
  ⟨false, "map_to_" ++ Naming.snakeCase t.display⟩

/-- The parameters of that function: the source, and what is called for the rest of the
destination. -/
def MappingTarget.params (t : MappingTarget) : List Token :=
  fill "&self, additional_mappings: ::core::option::Option<&dyn Fn(&Self, &mut $dest)>"
    [("dest", t.dest.tokens)]

/-- The signature of that function, which makes the destination. -/
def MappingTarget.signature (t : MappingTarget) : List Token :=
  [.word false "fn", t.methodIdent.token, .group .paren (t.params ++ [.punct ',' false]),
    .punct '-' true, .punct '>' false] ++ t.dest.tokens

/-- Whether tokens implement a trait for the source of a mapping. -/
def MappingTarget.IsImpl (t : MappingTarget) (p : PlannedMapping) (code : List Token) : Prop :=
  ∃ body, code = [.word false "impl", t.traitIdent.token, .word false "for"] ++
    p.source.tokens ++ [.group .brace (t.signature ++ [.group .brace body])]

/-- Whether tokens declare a trait and implement it, once for each of its mappings, in order. -/
def MappingTarget.IsWritten (t : MappingTarget) (code : List Token) : Prop :=
  ∃ impls, List.Forall₂ t.IsImpl t.impls impls ∧
    code = [.word false "pub", .word false "trait", t.traitIdent.token,
      .group .brace (t.signature ++ [.punct ';' false])] ++ impls.flatten

/-- Whether tokens are a module of the traits for one namespace, in order. -/
def MappingSpace.IsWritten (s : MappingSpace) (code : List Token) : Prop :=
  ∃ traits, List.Forall₂ MappingTarget.IsWritten s.targets traits ∧
    code = [.word false "pub", .word false "mod", s.module_.token, .group .brace traits.flatten]

namespace MappingTarget

variable {t : MappingTarget}

theorem traitName_eq (h : t.IsNamed) : t.traitName = .ok t.traitIdent :=
  Naming.word_eq (Naming.isWordText_append (by decide)
    (Naming.all_isNameChar_of_isIdentifier h.display))

theorem methodName_eq (h : t.IsNamed) : t.methodName = .ok t.methodIdent :=
  Naming.word_eq (Naming.isWordText_append (by decide)
    (Naming.all_isNameChar_snakeCase h.display))

/-- What fills the holes in the code of a trait. -/
def filling (t : MappingTarget) : Filling :=
  [("trait", [t.traitIdent.token]), ("method", [t.methodIdent.token]), ("dest", t.dest.tokens),
    ("params", t.params)]

/-- The signature is filled in with more holes, or with these alone. -/
theorem fill_signature (callback source : List Token) :
    fill "fn $method($params,) -> $dest"
        (("callback", callback) :: ("source", source) :: t.filling) = t.signature := by
  have hlex : lex "fn $method($params,) -> $dest" = some [.word false "fn", .punct '$' false,
      .word false "method", .group .paren [.punct '$' false, .word false "params",
        .punct ',' false], .punct '-' true, .punct '>' false, .punct '$' false,
      .word false "dest"] := by rfl
  simp [fill, hlex, fillTokens, fillToken, List.lookup_cons, filling, signature]

theorem isImpl_fill (p : PlannedMapping) (callback body : List Token) :
    t.IsImpl p (fill "impl $trait for $source"
        (("callback", callback) :: ("source", p.source.tokens) :: t.filling) ++
      braces (fill "fn $method($params,) -> $dest"
          (("callback", callback) :: ("source", p.source.tokens) :: t.filling) ++
        braces body)) := by
  have hlex : lex "impl $trait for $source" = some [.word false "impl", .punct '$' false,
      .word false "trait", .word false "for", .punct '$' false, .word false "source"] := by rfl
  refine ⟨body, ?_⟩
  rw [fill_signature]
  simp [fill, hlex, fillTokens, fillToken, List.lookup_cons, filling, braces]

theorem isImpl_of_implTokens {p : PlannedMapping} {code : List Token}
    (h : implTokens t.filling p = .ok code) : t.IsImpl p code := by
  obtain ⟨assignments, -, h⟩ := bind_eq_ok.1 h
  obtain rfl := Except.ok.inj h
  exact isImpl_fill p _ _

/-- **The code of a trait.** -/
theorem exists_code (h : t.IsNamed) : ∃ code, t.tokens = .ok code ∧ t.IsWritten code := by
  obtain ⟨code, hcode⟩ := exists_tokens h
  refine ⟨code, hcode, ?_⟩
  have hlex : lex "pub trait $trait" = some [.word false "pub", .word false "trait",
      .punct '$' false, .word false "trait"] := by rfl
  have hfn : lex "fn $method($params,) -> $dest;" = some [.word false "fn", .punct '$' false,
      .word false "method", .group .paren [.punct '$' false, .word false "params",
        .punct ',' false], .punct '-' true, .punct '>' false, .punct '$' false,
      .word false "dest", .punct ';' false] := by rfl
  unfold tokens at hcode
  simp only [traitName_eq h, methodName_eq h, ok_bind] at hcode
  obtain ⟨impls, himpls, hcode⟩ := bind_eq_ok.1 hcode
  obtain rfl := Except.ok.inj hcode
  refine ⟨impls, (mapM_eq_ok.1 himpls).imp fun p code => isImpl_of_implTokens, ?_⟩
  simp [fill, hlex, hfn, fillTokens, fillToken, List.lookup_cons, signature, params, braces]

end MappingTarget

/-- The code of a module. -/
theorem MappingSpace.exists_code {s : MappingSpace} (h : ∀ t ∈ s.targets, t.IsNamed) :
    ∃ code, s.tokens = .ok code ∧ s.IsWritten code := by
  obtain ⟨traits, htraits, hwritten⟩ :=
    exists_mapM_forall₂ fun t ht => MappingTarget.exists_code (h t ht)
  have hlex : lex "pub mod $name" = some [.word false "pub", .word false "mod", .punct '$' false,
      .word false "name"] := by rfl
  unfold tokens
  rw [htraits]
  refine ⟨_, rfl, traits, hwritten, ?_⟩
  simp [fill, hlex, fillTokens, fillToken, braces]

/-- **The code of a plan** is that of its modules. -/
theorem MappingPlan.exists_code (ms : List Mapping) :
    ∃ codes, List.Forall₂ MappingSpace.IsWritten (ofMappings ms).spaces codes ∧
      (ofMappings ms).artifact = Artifact.ofTokens mappingsId codes.flatten := by
  obtain ⟨codes, hcodes, hwritten⟩ :=
    exists_mapM_forall₂ fun s hs => MappingSpace.exists_code (isNamed_ofMappings ms s hs)
  refine ⟨codes, hwritten, ?_⟩
  unfold artifact
  rw [hcodes]
  rfl

namespace Generation

/-- Generating resolved mappings makes one artifact of the code of their plan. -/
theorem exists_ofMappings_eq (ms : List Mapping) :
    ∃ codes, List.Forall₂ MappingSpace.IsWritten (MappingPlan.ofMappings ms).spaces codes ∧
      ofMappings ms = (Artifact.ofTokens mappingsId codes.flatten).map fun a =>
        ⟨[a], (MappingPlan.outcomes {} ms).filterMap (·.2)⟩ := by
  obtain ⟨codes, hwritten, hartifact⟩ := MappingPlan.exists_code ms
  have hfailures : (MappingPlan.ofMappings ms).failures =
      (MappingPlan.outcomes {} ms).filterMap (·.2) := MappingPlan.failures_foldl {} ms
  refine ⟨codes, hwritten, ?_⟩
  unfold ofMappings
  dsimp only
  rw [hartifact, ← hfailures]
  cases Artifact.ofTokens mappingsId codes.flatten <;> rfl

/-- **The code for mappings is arranged.**  Its modules have different names, one for each
namespace of an accepted mapping in the order of first appearance; in each, the traits have
different names, one for each destination in that order, each with one implementation for each
accepted mapping of its namespace and destination, in order.  A valid mapping is refused exactly
where it clashes with one that was accepted before.  So where no two mappings have both a source of
one type and one destination, no trait is implemented twice for one type, whatever types the names
of the sources stand for. -/
theorem ofMappings_arranged (ms : List Mapping) :
    let plan := MappingPlan.ofMappings ms
    let accepted := MappingPlan.accepted {}
    let outcomes := MappingPlan.outcomes {}
    MappingPlan.Holds (accepted ms) plan.spaces ∧
    ((plan.spaces.flatMap fun s => s.targets.flatMap (·.impls)).map Except.ok).Perm
      ((accepted ms).map PlannedMapping.of) ∧
    (∃ codes, List.Forall₂ MappingSpace.IsWritten plan.spaces codes ∧
      ofMappings ms = (Artifact.ofTokens mappingsId codes.flatten).map fun a =>
        ⟨[a], (outcomes ms).filterMap (·.2)⟩) ∧
    (∀ before m after, ms = before ++ m :: after → ∃ refusal rest,
      outcomes ms = outcomes before ++ (m, refusal) :: rest ∧
      (m.IsValid → ∀ f, refusal = some f ↔ m.Clash (accepted before) f) ∧
      (¬m.IsValid → ∃ f, PlannedMapping.of m = .error f ∧ refusal = some f)) ∧
    ∀ {κ : Type} (type : String → κ), (ms.map fun m => (type m.source, m.dest)).Nodup →
      ∀ s ∈ plan.spaces, ∀ t ∈ s.targets, ∃ held, t.Holds held ∧
        (held.map fun m => type m.source).Nodup := by
  intro plan accepted outcomes
  have hholds : MappingPlan.Holds (accepted ms) plan.spaces := MappingPlan.holds_ofMappings ms
  refine ⟨hholds, hholds.perm_impls, exists_ofMappings_eq ms, ?_, ?_⟩
  · rintro before m after rfl
    have hbefore := MappingPlan.holds_ofMappings before
    refine ⟨_, _, MappingPlan.outcomes_append {} before (m :: after), fun hm f => ?_, fun hm => ?_⟩
    · obtain ⟨p, hp⟩ := PlannedMapping.exists_of_iff.2 hm
      have hplanned : PlannedMapping.of m ≠ .error f := by
        rw [hp]
        exact fun h => by cases h
      exact (MappingPlan.refusal?_eq_some_iff hbefore).trans
        ((or_iff_right hplanned).trans (and_iff_right hm))
    · cases hp : PlannedMapping.of m with
      | ok p => exact absurd (PlannedMapping.exists_of_iff.1 ⟨p, hp⟩) hm
      | error f => exact ⟨f, rfl, (MappingPlan.refusal?_eq_some_iff hbefore).2 (.inl hp)⟩
  · intro κ type hdistinct s hs t ht
    refine ⟨_, ((hholds.sorted.holds s hs).sorted.holds t ht), ?_⟩
    -- the mappings of a trait have one destination, so their sources differ in type
    have hsub : List.Sublist (((accepted ms).filter (·.space = s.name)).filter
        (·.destination = t.destination)) ms :=
      (List.filter_sublist.trans List.filter_sublist).trans (MappingPlan.accepted_sublist {} ms)
    refine List.Nodup.map_on (fun m hm q hq heq => ?_) (hsub.nodup hdistinct.of_map)
    have hdest : m.dest = q.dest := by
      have hmdest := of_decide_eq_true (List.mem_filter.1 hm).2
      have hqdest := of_decide_eq_true (List.mem_filter.1 hq).2
      exact congrArg Prod.snd (hmdest.trans hqdest.symm)
    exact List.inj_on_of_nodup_map hdistinct (hsub.mem hm) (hsub.mem hq)
      (Prod.ext heq hdest)

/-- A mapping from a type of one module to a type in another. -/
def shopMapping (source dest : String) : Mapping :=
  ⟨"crate::shop", "crate::shop::" ++ source, "crate::" ++ dest ++ "::Stuff", "Stuff", []⟩

theorem ofMappings_arranged_conflict :
    let ms := [shopMapping "Thing" "store", shopMapping "Box" "depot", shopMapping "Box" "store"]
    let conflict : Failure :=
      .conflictingMapping "crate::shop" "Stuff" "crate::depot::Stuff" "crate::store::Stuff"
    MappingPlan.Holds [shopMapping "Thing" "store", shopMapping "Box" "store"]
      (MappingPlan.ofMappings ms).spaces ∧
    (shopMapping "Box" "depot").Clash [shopMapping "Thing" "store"] conflict ∧
    ∀ s ∈ (MappingPlan.ofMappings ms).spaces, ∀ t ∈ s.targets, ∃ held, t.Holds held ∧
      (held.map (·.source)).Nodup := by
  intro ms conflict
  have houtcomes : MappingPlan.outcomes {} ms = [(shopMapping "Thing" "store", none),
      (shopMapping "Box" "depot", some conflict), (shopMapping "Box" "store", none)] := by
    decide +kernel
  have hdistinct : (ms.map fun m => (m.source, m.dest)).Nodup := by decide
  have hvalid : (PlannedMapping.of (shopMapping "Box" "depot")).isOk = true := by decide +kernel
  obtain ⟨hholds, -, -, houtcome, htwice⟩ := ofMappings_arranged ms
  refine ⟨?_, ?_, fun s hs t ht => htwice id hdistinct s hs t ht⟩
  · have haccepted : MappingPlan.accepted {} ms =
        [shopMapping "Thing" "store", shopMapping "Box" "store"] := by
      rw [MappingPlan.accepted, houtcomes]
      rfl
    rwa [haccepted] at hholds
  · have hfirst : MappingPlan.outcomes {} [shopMapping "Thing" "store"] =
        [(shopMapping "Thing" "store", none)] := by decide +kernel
    have haccepted : MappingPlan.accepted {} [shopMapping "Thing" "store"] =
        [shopMapping "Thing" "store"] := by
      rw [MappingPlan.accepted, hfirst]
      rfl
    obtain ⟨refusal, rest, heq, hclash, -⟩ := houtcome [shopMapping "Thing" "store"] _ _ rfl
    rw [houtcomes, hfirst] at heq
    have hrefusal : some conflict = refusal :=
      congrArg Prod.snd (List.cons.inj (List.cons.inj heq).2).1
    rw [← haccepted]
    refine (hclash ?_ conflict).1 hrefusal.symm
    cases hp : PlannedMapping.of (shopMapping "Box" "depot") with
    | ok p => exact PlannedMapping.exists_of_iff.1 ⟨p, hp⟩
    | error f =>
      rw [hp] at hvalid
      cases hvalid

end Generation

end Scaffold
