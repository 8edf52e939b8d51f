import Scaffold.Proofs.Mapping.Code
import Scaffold.Proofs.Resolve

/-!
# What becomes of registrations

A call that registers a mapping is resolved, is left out if it repeats an earlier one, is planned,
and is written; at each of these steps it may get lost.  None is: `Generation.registrations_accounted`
follows every call to one implementation in the artifact, to one failure, or to an earlier call that
it repeats.
-/

namespace Scaffold

/-- The types that a mapping joins. -/
def Mapping.types (m : Mapping) : String × String := (m.source, m.dest)

/-! ### Resolving -/

section Resolving

variable {host : Host} {lookup : Lookup} {c : Candidate}

/-- Only a declaration gives nothing. -/
theorem Host.findMapping_eq_nothing {e : Ending Mapping}
    (h : host.findMapping lookup c = .ok e.finding) :
    e = .nothing ↔ ∃ d, c.node = .declaration d := by
  have hnothing : e = .nothing ↔ e.finding = .nothing := by
    cases e <;> simp [Ending.finding]
  rw [hnothing]
  unfold findMapping at h
  cases hnode : c.node with
  | declaration d =>
    simp only [hnode] at h
    exact iff_of_true (Except.ok.inj h).symm ⟨d, rfl⟩
  | call call =>
    simp only [hnode] at h
    refine iff_of_false (fun heq => ?_) (by simp)
    rw [heq] at h
    split at h
    · cases Except.ok.inj h
    · obtain ⟨sourceMembers, -, h⟩ := bind_eq_ok.1 h
      obtain ⟨destMembers, -, h⟩ := bind_eq_ok.1 h
      cases Except.ok.inj h

/-- **The mappings among candidates** are those that are made of them. -/
theorem Host.exists_ends_of_resolveMappings {candidates : List Candidate} {resolved : Resolved Mapping}
    (h : host.resolveMappings candidates = .ok resolved) : ∃ endings,
      host.Ends host.findMapping Mapping.types candidates endings ∧
      List.Forall₂ (fun c e => e = .nothing ↔ ∃ d, c.node = .declaration d) candidates endings ∧
      resolved = ⟨endings.filterMap Ending.made?, endings.filterMap Ending.failure?⟩ := by
  obtain ⟨findings, hfindings, heq⟩ := bind_eq_ok.1 h
  obtain rfl := Except.ok.inj heq
  obtain ⟨endings, hends, hcollect⟩ := exists_ends Mapping.types hfindings
  refine ⟨endings, hends, hends.found.imp ?_, hcollect⟩
  rintro c e ⟨unit, -, hfind⟩
  exact findMapping_eq_nothing hfind

/-- What is accepted is a call. -/
theorem MappingSettings.ne_declaration_of_mem_scan {s : MappingSettings} {corpus : Corpus}
    (hc : c ∈ corpus.scan s.accepts) (d : Declaration) : c.node ≠ .declaration d := by
  have haccepts : s.accepts c.node = true := (List.mem_filter.1 hc).2
  intro hd
  rw [hd] at haccepts
  cases haccepts

end Resolving

/-! ### Planning -/

namespace MappingPlan

/-- How a registration that was resolved ends when its mapping is planned. -/
inductive Settles (outcomes : List (Mapping × Option Failure)) :
    Ending Mapping → Ending Mapping → Prop where
  | made {m : Mapping} (h : (m, none) ∈ outcomes) : Settles outcomes (.made m) (.made m)
  | refused {m : Mapping} {f : Failure} (h : (m, some f) ∈ outcomes) :
      Settles outcomes (.made m) (.failed f)
  | failed (f : Failure) : Settles outcomes (.failed f) (.failed f)
  | repeated (m : Mapping) : Settles outcomes (.repeated m) (.repeated m)
  | nothing : Settles outcomes .nothing .nothing

theorem Settles.cons {outcomes : List (Mapping × Option Failure)} {e fate : Ending Mapping}
    (h : Settles outcomes e fate) (first : Mapping × Option Failure) :
    Settles (first :: outcomes) e fate := by
  cases h with
  | made h => exact .made (List.mem_cons_of_mem _ h)
  | refused h => exact .refused (List.mem_cons_of_mem _ h)
  | failed f => exact .failed f
  | repeated m => exact .repeated m
  | nothing => exact .nothing

/-- **Planning settles every registration:** what was resolved is accepted or refused. -/
theorem exists_settled (plan : MappingPlan) (endings : List (Ending Mapping)) :
    ∃ fates, List.Forall₂ (Settles (plan.outcomes (endings.filterMap Ending.made?))) endings fates ∧
      fates.filterMap Ending.made? = plan.accepted (endings.filterMap Ending.made?) ∧
      (endings.filterMap Ending.failure? ++
        (plan.outcomes (endings.filterMap Ending.made?)).filterMap (·.2)).Perm
          (fates.filterMap Ending.failure?) := by
  induction endings generalizing plan with
  | nil => exact ⟨[], .nil, rfl, .refl _⟩
  | cons e endings ih =>
    cases e with
    | nothing =>
      obtain ⟨fates, hsettles, hmade, hfailed⟩ := ih plan
      exact ⟨.nothing :: fates, .cons .nothing hsettles, hmade, hfailed⟩
    | failed f =>
      obtain ⟨fates, hsettles, hmade, hfailed⟩ := ih plan
      exact ⟨.failed f :: fates, .cons (.failed f) hsettles, hmade, hfailed.cons f⟩
    | repeated m =>
      obtain ⟨fates, hsettles, hmade, hfailed⟩ := ih plan
      exact ⟨.repeated m :: fates, .cons (.repeated m) hsettles, hmade, hfailed⟩
    | made m =>
      obtain ⟨fates, hsettles, hmade, hfailed⟩ := ih (plan.add m)
      have hrest := hsettles.imp fun _ _ h => h.cons (m, plan.refusal? m)
      have hitems : (Ending.made m :: endings).filterMap Ending.made? =
          m :: endings.filterMap Ending.made? := rfl
      rw [hitems, outcomes]
      cases hrefusal : plan.refusal? m with
      | none =>
        rw [hrefusal] at hrest
        rw [accepted_cons_of_accepted hrefusal]
        exact ⟨.made m :: fates, .cons (.made List.mem_cons_self) hrest,
          congrArg (m :: ·) hmade, hfailed⟩
      | some f =>
        rw [hrefusal] at hrest
        rw [accepted_cons_of_refused hrefusal]
        refine ⟨.failed f :: fates, .cons (.refused List.mem_cons_self) hrest, hmade, ?_⟩
        exact List.perm_middle.trans (hfailed.cons f)

end MappingPlan

namespace Generation

/-- The steps of generating mappings. -/
theorem mappings_eq_ok {s : Settings} {host : Host} {corpus : Corpus} {g : Generation} :
    mappings s host corpus = .ok g ↔ s.validate = .ok () ∧ ∃ resolved made,
      host.resolveMappings (corpus.scan s.mapping.accepts) = .ok resolved ∧
      ofMappings resolved.items = .ok made ∧
      g = ⟨made.artifacts, resolved.failures ++ made.failures⟩ := by
  unfold mappings
  simp only [bind_eq_ok, Stop.ofFailure_eq_ok, Stop.ofBreakdown_eq_ok]
  constructor
  · rintro ⟨_, hvalid, resolved, hresolved, made, hmade, hg⟩
    exact ⟨hvalid, resolved, made, hresolved, hmade, (Except.ok.inj hg).symm⟩
  · rintro ⟨hvalid, resolved, made, hresolved, hmade, rfl⟩
    exact ⟨(), hvalid, resolved, hresolved, made, hmade, rfl⟩

/-- **No registration is lost.**  Resolving ends every call with one failure, as the repeat of an
earlier one, or with a mapping; declarations are passed over, and only the members of a type can
keep it from an end.  Where mappings are generated, every call that is accepted ends as one
implementation in the artifact, as one failure, or as a repeat. -/
theorem registrations_accounted (s : Settings) (host : Host) :
    (∀ candidates,
      (∀ b, host.resolveMappings candidates = .error b → ∃ info, host.membersOf info = .error b) ∧
      ∀ resolved, host.resolveMappings candidates = .ok resolved → ∃ endings,
        host.Ends host.findMapping Mapping.types candidates endings ∧
        List.Forall₂ (fun c e => e = .nothing ↔ ∃ d, c.node = .declaration d) candidates endings ∧
        resolved.failures = endings.filterMap Ending.failure? ∧
        resolved.items = endings.filterMap Ending.made?) ∧
    ∀ corpus g, mappings s host corpus = .ok g → ∃ endings fates spaces codes a,
      host.Ends host.findMapping Mapping.types (corpus.scan s.mapping.accepts) endings ∧
      List.Forall₂ (MappingPlan.Settles (MappingPlan.outcomes {} (endings.filterMap Ending.made?)))
        endings fates ∧
      (∀ e ∈ fates, e ≠ .nothing) ∧
      ((spaces.flatMap fun s => s.targets.flatMap (·.impls)).map Except.ok).Perm
        ((fates.filterMap Ending.made?).map PlannedMapping.of) ∧
      List.Forall₂ MappingSpace.IsWritten spaces codes ∧
      Artifact.ofTokens mappingsId codes.flatten = .ok a ∧ g.artifacts = [a] ∧
      g.failures.Perm (fates.filterMap Ending.failure?) ∧
      (corpus.scan s.mapping.accepts).length =
        (spaces.flatMap fun s => s.targets.flatMap (·.impls)).length + g.failures.length +
          (fates.filterMap Ending.repeated?).length := by
  refine ⟨fun candidates => ⟨fun b hb => ?_, fun resolved hresolved => ?_⟩, fun corpus g hg => ?_⟩
  · rcases bind_eq_error.1 hb with hb | ⟨findings, -, hb⟩
    · obtain ⟨unit, c, -, hfind⟩ := Host.exists_error_of_findings hb
      exact Host.exists_error_of_findMapping hfind
    · cases hb
  · obtain ⟨endings, hends, hnothing, rfl⟩ := host.exists_ends_of_resolveMappings hresolved
    exact ⟨endings, hends, hnothing, rfl, rfl⟩
  · obtain ⟨-, resolved, made, hresolved, hmade, rfl⟩ := mappings_eq_ok.1 hg
    obtain ⟨endings, hends, hnothing, rfl⟩ := host.exists_ends_of_resolveMappings hresolved
    obtain ⟨fates, hsettles, haccepted, hfailed⟩ := MappingPlan.exists_settled {} endings
    obtain ⟨codes, hwritten, heq⟩ := exists_ofMappings_eq (endings.filterMap Ending.made?)
    obtain ⟨a, ha, rfl⟩ := map_eq_ok.1 (heq.symm.trans hmade)
    have himpls := (MappingPlan.holds_ofMappings (endings.filterMap Ending.made?)).perm_impls
    rw [← haccepted] at himpls
    have hcalls : ∀ e ∈ fates, e ≠ .nothing := by
      rintro e he rfl
      obtain ⟨ending, hmem, hsettle⟩ := exists_partner hsettles he
      cases hsettle
      obtain ⟨c, hc, hiff⟩ := exists_partner hnothing hmem
      obtain ⟨d, hd⟩ := hiff.1 rfl
      exact MappingSettings.ne_declaration_of_mem_scan hc d hd
    refine ⟨endings, fates, _, codes, a, hends, hsettles, hcalls, himpls, hwritten, ha, rfl,
      hfailed, ?_⟩
    have hlength := himpls.length_eq
    rw [List.length_map, List.length_map] at hlength
    rw [hends.found.length_eq, hsettles.length_eq, Ending.length_eq hcalls, hfailed.length_eq,
      hlength]

/-- A host that knows the types of one module. -/
def shopHost : Host where
  lookup _ :=
    { resolveType := fun ref =>
        if ref.text ∈ ["Thing", "Stuff"] then
          some ⟨ref.text, "crate::shop::" ++ ref.text, "crate::shop", .struct⟩
        else none
      declaredType := fun _ => none
      resolvesReceiver := fun _ _ => true }
  membersOf _ := .ok []

/-- A call that maps a type to `Stuff`. -/
def stuffCall (source : String) : CorpusNode :=
  .call ⟨["Mappings"], "register", [⟨source, "crate"⟩, ⟨"Stuff", "crate"⟩], "crate"⟩

/-- A call, one that names no type, and the first again. -/
def shopCorpus : Corpus :=
  Corpus.push {} "shop.rs" [stuffCall "Thing", stuffCall "Gone", stuffCall "Thing"]

theorem registrations_accounted_shop :
    ∃ g, mappings {} shopHost shopCorpus = .ok g ∧ ∃ (spaces : List MappingSpace) (repeats : Nat),
      3 = (spaces.flatMap fun s => s.targets.flatMap (·.impls)).length + g.failures.length +
        repeats := by
  have hmade : (mappings {} shopHost shopCorpus).isOk = true := by decide +kernel
  have hcalls : (shopCorpus.scan ({} : Settings).mapping.accepts).length = 3 := by decide +kernel
  cases hg : mappings {} shopHost shopCorpus with
  | error stop =>
    rw [hg] at hmade
    cases hmade
  | ok g =>
    obtain ⟨-, hall⟩ := registrations_accounted {} shopHost
    obtain ⟨_, fates, spaces, _, _, -, -, -, -, -, -, -, -, hlength⟩ := hall shopCorpus g hg
    rw [hcalls] at hlength
    exact ⟨g, rfl, spaces, _, hlength⟩

end Generation

end Scaffold
