import Mathlib.Data.List.Basic
import Scaffold.Generation
import Scaffold.Proofs.Mapping.Plan

/-!
# Refused mappings leave no trace

A plan can be made in place: `Mapping.placing` looks for the module of a mapping, opens one where
there is none, looks for the trait in it, opens one where there is none, and puts the mapping there.
Each of these steps may be refused after others have been carried out, and what has been changed by
then stays changed.  Still, placing in place makes what a plan makes of the mapping, and where it is
refused nothing has been changed (`Mapping.run_placing`): a module is opened only where no trait can
stand in the way.  So the plan of mappings is that of the accepted ones among them
(`Generation.ofMappings_accepted`).
-/

namespace Scaffold

/-! ### Placing in place -/

/-- Puts a mapping into the traits of its namespace. -/
def MappingTarget.placing (p : PlannedMapping) : EStateM Failure (List MappingTarget) Unit := do
  match (← get).find? (·.display = p.display) with
  | some t =>
    if t.destPath ≠ p.destPath then
      throw (.conflictingMapping p.space p.display p.destPath t.destPath)
  | none => modify (· ++ [⟨p.display, p.destPath, p.dest, []⟩])
  modify (·.replaceF fun t =>
    if t.display = p.display then some { t with impls := t.impls ++ [p] } else none)

namespace MappingSpace

/-- Works on the traits of the first module for a namespace. -/
def within (space : String) (x : EStateM Failure (List MappingTarget) Unit) :
    EStateM Failure (List MappingSpace) Unit
  | [] => .ok () []
  | s :: ss =>
    if s.name = space then
      match x.run s.targets with
      | .ok _ targets => .ok () ({ s with targets := targets } :: ss)
      | .error f targets => .error f ({ s with targets := targets } :: ss)
    else
      match within space x ss with
      | .ok _ ss => .ok () (s :: ss)
      | .error f ss => .error f (s :: ss)

/-- Puts a planned mapping into the modules. -/
def placing (p : PlannedMapping) : EStateM Failure (List MappingSpace) Unit := do
  unless (← get).any (·.name = p.space) do
    match (← get).find? (·.module_ = p.module_) with
    | some taken => throw (.conflictingNamespace p.space taken.name p.module_.text)
    | none => modify (· ++ [⟨p.space, p.module_, []⟩])
  within p.space (MappingTarget.placing p)

end MappingSpace

/-- **Puts a mapping into the modules,** step by step. -/
def Mapping.placing (m : Mapping) : EStateM Failure (List MappingSpace) Unit := do
  match PlannedMapping.of m with
  | .ok p => MappingSpace.placing p
  | .error f => throw f

/-- How a computation in place ends that makes what `x` makes, and changes nothing where `x`
fails. -/
def leaving {ε σ : Type} (s : σ) : Except ε σ → EStateM.Result ε σ Unit
  | .ok s' => .ok () s'
  | .error e => .error e s

/-! ### Placing in place makes what a plan makes -/

/-- Replacing the first element that a function replaces. -/
theorem replaceF_append_cons {α : Type} {f : α → Option α} {before after : List α} {a b : α}
    (hbefore : ∀ c ∈ before, f c = none) (ha : f a = some b) :
    (before ++ a :: after).replaceF f = before ++ b :: after := by
  induction before with
  | nil => simp [List.replaceF, ha]
  | cons c before ih =>
    obtain ⟨hc, hbefore⟩ := List.forall_mem_cons.1 hbefore
    simp [List.replaceF, hc, ih hbefore]

section Placing

variable {p : PlannedMapping}

theorem MappingTarget.place_append {before : List MappingTarget}
    (h : ∀ t ∈ before, t.display ≠ p.display) (ts : List MappingTarget) :
    place p (before ++ ts) = (place p ts).map (before ++ ·) := by
  induction before with
  | nil =>
    rw [List.nil_append]
    cases place p ts <;> rfl
  | cons t before ih =>
    obtain ⟨ht, hbefore⟩ := List.forall_mem_cons.1 h
    rw [List.cons_append, place, if_neg ht, ih hbefore]
    cases place p ts <;> rfl

/-- Placing a mapping among the traits in place. -/
theorem MappingTarget.run_placing (p : PlannedMapping) (ts : List MappingTarget) :
    (placing p).run ts = leaving ts (place p ts) := by
  have hput {before : List MappingTarget} (hbefore : ∀ u ∈ before, u.display ≠ p.display)
      {t : MappingTarget} (ht : t.display = p.display) (after : List MappingTarget) :
      ((before ++ t :: after).replaceF fun t =>
        if t.display = p.display then some { t with impls := t.impls ++ [p] } else none) =
      before ++ { t with impls := t.impls ++ [p] } :: after :=
    replaceF_append_cons (fun u hu => if_neg (hbefore u hu)) (if_pos ht)
  unfold placing
  rw [EStateM.run_bind, EStateM.run_get]
  cases hfind : ts.find? (·.display = p.display) with
  | none =>
    have hnone : ∀ t ∈ ts, t.display ≠ p.display := by simpa using hfind
    have hplace := place_append hnone []
    rw [List.append_nil] at hplace
    have hopen := hput hnone (t := ⟨p.display, p.destPath, p.dest, []⟩) rfl []
    simp only [hfind, hplace, EStateM.run_bind, EStateM.run_modify, hopen]
    rfl
  | some t =>
    obtain ⟨ht, before, after, rfl, hbefore⟩ := List.find?_eq_some_iff_append.1 hfind
    have ht : t.display = p.display := by simpa using ht
    have hbefore : ∀ u ∈ before, u.display ≠ p.display := by simpa using hbefore
    rw [place_append hbefore, place, if_pos ht]
    by_cases hpath : t.destPath = p.destPath
    · have hjoin := hput hbefore ht after
      rw [if_pos hpath]
      simp only [hfind, ne_eq, ite_not, if_pos hpath, EStateM.run_modify, hjoin]
      rfl
    · rw [if_neg hpath]
      simp only [hfind, ne_eq, ite_not, if_neg hpath]
      rfl

namespace MappingSpace

theorem within_append {before ss : List MappingSpace} (h : ∀ s ∈ before, s.name ≠ p.space) :
    (within p.space (MappingTarget.placing p)).run (before ++ ss) =
      match (within p.space (MappingTarget.placing p)).run ss with
      | .ok _ ss => .ok () (before ++ ss)
      | .error f ss => .error f (before ++ ss) := by
  induction before with
  | nil =>
    rw [List.nil_append]
    cases (within p.space (MappingTarget.placing p)).run ss <;> rfl
  | cons s before ih =>
    obtain ⟨hs, hbefore⟩ := List.forall_mem_cons.1 h
    have hrest := ih hbefore
    rw [EStateM.run] at hrest ⊢
    rw [List.cons_append, within, if_neg hs, hrest]
    cases (within p.space (MappingTarget.placing p)).run ss <;> rfl

/-- Extending the module of a namespace in place. -/
theorem run_within (p : PlannedMapping) (ss : List MappingSpace) :
    (within p.space (MappingTarget.placing p)).run ss = leaving ss (extend p ss) := by
  induction ss with
  | nil => rfl
  | cons s ss ih =>
    rw [EStateM.run] at ih ⊢
    rw [within, extend]
    by_cases hname : s.name = p.space
    · rw [if_pos hname, if_pos hname, MappingTarget.run_placing]
      cases MappingTarget.place p s.targets <;> rfl
    · rw [if_neg hname, if_neg hname, ih]
      cases extend p ss <;> rfl

/-- Placing a planned mapping among the modules in place. -/
theorem run_placing (p : PlannedMapping) (ss : List MappingSpace) :
    (placing p).run ss = leaving ss (place p ss) := by
  unfold placing place
  rw [EStateM.run_bind, EStateM.run_get]
  by_cases hany : ss.any (·.name = p.space) = true
  · rw [if_pos hany]
    simp only [hany]
    exact run_within p ss
  · have hnone : ∀ s ∈ ss, s.name ≠ p.space := by simpa using hany
    rw [if_neg hany]
    simp only [hany, Bool.false_eq_true, if_false, EStateM.run_bind, EStateM.run_get]
    cases ss.find? (·.module_ = p.module_) with
    | some taken => rfl
    | none =>
      -- the module that is opened has no traits, so none stands in the way
      have hopened : (within p.space (MappingTarget.placing p)).run
          (ss ++ [⟨p.space, p.module_, []⟩]) =
            .ok () (ss ++ [⟨p.space, p.module_, [⟨p.display, p.destPath, p.dest, [p]⟩]⟩]) := by
        rw [within_append hnone, run_within, extend, if_pos rfl]
        rfl
      exact hopened

end MappingSpace

/-- **Placing a mapping in place** makes what a plan makes of it, and changes nothing where it is
refused. -/
theorem Mapping.run_placing (m : Mapping) (ss : List MappingSpace) :
    m.placing.run ss = leaving ss (PlannedMapping.of m >>= fun p => MappingSpace.place p ss) := by
  unfold placing
  cases PlannedMapping.of m with
  | ok p => exact MappingSpace.run_placing p ss
  | error f => rfl

end Placing

/-! ### Plans of accepted mappings -/

namespace MappingPlan

variable {plan : MappingPlan}

/-- Placing a mapping in place is adding it to a plan. -/
theorem run_placing_eq (plan : MappingPlan) (m : Mapping) :
    m.placing.run plan.spaces =
      match plan.refusal? m with
      | none => .ok () (plan.add m).spaces
      | some f => .error f (plan.add m).spaces := by
  rw [Mapping.run_placing]
  unfold refusal? add
  cases PlannedMapping.of m >>= fun p => MappingSpace.place p plan.spaces <;> rfl

/-- Going through the accepted mappings alone leads to the same modules, and nothing is refused. -/
theorem foldl_accepted (plan : MappingPlan) (ms : List Mapping) (failures : List Failure) :
    (plan.accepted ms).foldl add ⟨plan.spaces, failures⟩ =
      ⟨(ms.foldl add plan).spaces, failures⟩ := by
  induction ms generalizing plan with
  | nil => rfl
  | cons m ms ih =>
    cases hrefusal : plan.refusal? m with
    | none =>
      obtain ⟨p, spaces, hp, hplace, hadd⟩ := exists_of_accepted hrefusal
      have hagain : add ⟨plan.spaces, failures⟩ m = ⟨(plan.add m).spaces, failures⟩ := by
        rw [hadd]
        unfold add
        rw [hp, ok_bind, hplace]
      rw [accepted_cons_of_accepted hrefusal, List.foldl_cons, hagain, List.foldl_cons]
      exact ih (plan.add m)
    | some f =>
      have hsame : (plan.add m).spaces = plan.spaces := by rw [add_of_refused hrefusal]
      rw [accepted_cons_of_refused hrefusal, List.foldl_cons, ← hsame]
      exact ih (plan.add m)

/-- Every refused mapping has its failure, in order. -/
theorem forall₂_refused (outcomes : List (Mapping × Option Failure)) :
    List.Forall₂ (fun o f => o.2 = some f) (outcomes.filter (·.2.isSome))
      (outcomes.filterMap (·.2)) := by
  induction outcomes with
  | nil => exact .nil
  | cons o outcomes ih =>
    obtain ⟨m, refusal⟩ := o
    cases refusal with
    | none => exact ih
    | some f => exact .cons rfl ih

end MappingPlan

namespace Generation

/-- **Refused mappings leave no trace.**  Placing a mapping in place, one step after the other, is
adding it to a plan, and where it is refused the modules are as they were.  The artifact of mappings
is that of the accepted ones among them, for which there are no failures; each of the others has one
failure, in order. -/
theorem ofMappings_accepted (ms : List Mapping) :
    let outcomes := MappingPlan.outcomes {} ms
    let accepted := MappingPlan.accepted {} ms
    (∀ (m : Mapping) spaces f left, m.placing.run spaces = .error f left → left = spaces) ∧
    (∀ (plan : MappingPlan) (m : Mapping), m.placing.run plan.spaces =
      match plan.refusal? m with
      | none => .ok () (plan.add m).spaces
      | some f => .error f (plan.add m).spaces) ∧
    ofMappings accepted = (ofMappings ms).map (fun g => ⟨g.artifacts, []⟩) ∧
    outcomes.map (·.1) = ms ∧ (outcomes.filter (·.2.isNone)).map (·.1) = accepted ∧
    ∀ g, ofMappings ms = .ok g →
      List.Forall₂ (fun o f => o.2 = some f) (outcomes.filter (·.2.isSome)) g.failures := by
  intro outcomes accepted
  have hplan : MappingPlan.ofMappings accepted = ⟨(MappingPlan.ofMappings ms).spaces, []⟩ :=
    MappingPlan.foldl_accepted {} ms []
  have hfailures : (MappingPlan.ofMappings ms).failures = outcomes.filterMap (·.2) :=
    MappingPlan.failures_foldl {} ms
  refine ⟨fun m spaces f left h => ?_, MappingPlan.run_placing_eq, ?_,
    MappingPlan.map_fst_outcomes {} ms, rfl, fun g hg => ?_⟩
  · rw [Mapping.run_placing] at h
    cases hplace : PlannedMapping.of m >>= fun p => MappingSpace.place p spaces with
    | ok spaces' =>
      rw [hplace] at h
      cases h
    | error f' =>
      rw [hplace] at h
      cases h
      rfl
  · have hartifact : (MappingPlan.ofMappings accepted).artifact =
        (MappingPlan.ofMappings ms).artifact := by
      rw [hplan]
      rfl
    unfold ofMappings
    rw [hplan] at hartifact ⊢
    dsimp only
    rw [hartifact]
    cases (MappingPlan.ofMappings ms).artifact <;> rfl
  · obtain ⟨a, -, hg⟩ := bind_eq_ok.1 hg
    obtain rfl := Except.ok.inj hg
    rw [hfailures]
    exact MappingPlan.forall₂_refused outcomes

/-- A mapping to one of several types of one name. -/
def priceMapping (currency : String) : Mapping :=
  ⟨"crate::shop", "crate::shop::Item", "crate::" ++ currency ++ "::Price", "Price", []⟩

theorem ofMappings_accepted_conflict :
    ∃ g, ofMappings [priceMapping "euro", priceMapping "pound"] = .ok g ∧
      ofMappings [priceMapping "euro"] = .ok ⟨g.artifacts, []⟩ ∧
      g.failures =
        [.conflictingMapping "crate::shop" "Price" "crate::pound::Price" "crate::euro::Price"] := by
  have hmade : (ofMappings [priceMapping "euro", priceMapping "pound"]).isOk = true := by
    decide +kernel
  have houtcomes : MappingPlan.outcomes {} [priceMapping "euro", priceMapping "pound"] =
      [(priceMapping "euro", none), (priceMapping "pound", some
        (.conflictingMapping "crate::shop" "Price" "crate::pound::Price" "crate::euro::Price"))] := by
    decide +kernel
  obtain ⟨-, -, hagain, -, haccepted, hfailures⟩ :=
    ofMappings_accepted [priceMapping "euro", priceMapping "pound"]
  cases hg : ofMappings [priceMapping "euro", priceMapping "pound"] with
  | error stop =>
    rw [hg] at hmade
    cases hmade
  | ok g =>
    have hfailed := hfailures g hg
    rw [houtcomes] at haccepted hfailed
    rw [← haccepted, hg] at hagain
    obtain ⟨f, rest, hf, hrest, heq⟩ := List.forall₂_cons_left_iff.1 hfailed
    rw [List.forall₂_nil_left_iff.1 hrest] at heq
    exact ⟨g, rfl, hagain, heq.trans (congrArg (fun f => [f]) (Option.some.inj hf).symm)⟩

end Generation

end Scaffold
