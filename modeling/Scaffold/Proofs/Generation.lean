import Scaffold.Generation
import Scaffold.Proofs.Mapping.Plan
import Scaffold.Proofs.Naming
import Scaffold.Proofs.Stopping

/-!
# When generation breaks down

The names in generated code are made of identifiers and of names that have been checked, so they
are words.  What is left is the layout: an artifact breaks down exactly where its tokens form a file
with a part that has no layout (`Handler.artifact_eq_breakdown`, `MappingPlan.artifact_eq_breakdown`).
Beyond that a generator breaks down only where its host does (`Generation.handlers_eq_breakdown`,
`Generation.mappings_eq_breakdown`); failures never lead so far.
-/

namespace Scaffold

open Syntax

/-! ### Tokens -/

/-- Whether tokens form a file that cannot be laid out. -/
def Unwritable (tokens : List Token) : Prop :=
  ∃ file, readFileTokens tokens = some file ∧ Layout.hasLayout file = false

theorem Layout.fileText_eq_error {file : Node} {b : Breakdown} :
    fileText file = .error b ↔ b = .layout ∧ hasLayout file = false := by
  unfold fileText
  cases hasLayout file with
  | true => simp
  | false => simp [eq_comm]

theorem Artifact.ofTokens_eq_breakdown {id : String} {tokens : List Token} {b : Breakdown} :
    ofTokens id tokens = .error (.breakdown b) ↔ b = .layout ∧ Unwritable tokens := by
  unfold ofTokens Unwritable
  cases readFileTokens tokens with
  | none => simp
  | some file =>
    have hbody (body : String) :
        (pure ⟨id, textOf body⟩ : Except Stop Artifact) ≠ .error (.breakdown b) := by
      intro h
      cases h
    rw [bind_eq_error, Stop.ofBreakdown_eq_breakdown, Layout.fileText_eq_error]
    constructor
    · rintro (⟨hb, hfile⟩ | ⟨body, -, h⟩)
      · exact ⟨hb, file, rfl, hfile⟩
      · exact absurd h (hbody body)
    · rintro ⟨hb, file', heq, hfile⟩
      obtain rfl := Option.some.inj heq
      exact .inl ⟨hb, hfile⟩

/-! ### Handlers -/

namespace Handler

/-- The tokens of a handler's artifact. -/
def code (h : Handler) : Except Stop (List Token) := do
  let self ← Stop.ofFailure (namedType h.typePath h.typePath)
  let base ← Stop.ofBreakdown (Naming.word (h.className ++ "Base"))
  let members ← Stop.ofFailure (h.members.mapM h.plannedMember)
  Stop.ofBreakdown (h.tokens self base members)

theorem artifact_eq (h : Handler) : h.artifact = h.code >>= Artifact.ofTokens h.artifactId := by
  unfold artifact code
  simp only [bind_assoc]

/-- A member is planned only where its label is shaped like an identifier. -/
theorem isIdentifier_of_plannedMember {h : Handler} {m : HandlerMember} {p : PlannedMember}
    (hp : h.plannedMember m = .ok p) : Naming.isIdentifier p.label = true := by
  obtain ⟨i, hi, hp⟩ := bind_eq_ok.1 hp
  obtain ⟨type, -, hp⟩ := bind_eq_ok.1 hp
  obtain rfl := Except.ok.inj hp
  exact Naming.isIdentifier_of_ident hi

/-- The names made of a label are words. -/
theorem exists_memberFilling (base : Ident) {m : PlannedMember}
    (hm : Naming.isIdentifier m.label = true) : ∃ filling, memberFilling base m = .ok filling := by
  have hlabel := Naming.all_isNameChar_of_isIdentifier hm
  obtain ⟨handler, hhandler⟩ := Naming.exists_word_append "handle_" (by decide) hlabel
  obtain ⟨value, hvalue⟩ := Naming.exists_word_append "value_" (by decide) hlabel
  obtain ⟨handled, hhandled⟩ := Naming.exists_word_append "handled_" (by decide) hlabel
  unfold memberFilling
  rw [hhandler, hvalue, hhandled]
  exact ⟨_, rfl⟩

/-- The tokens of a handler whose class has a name are there, or a failure is. -/
theorem code_ne_breakdown {h : Handler} (hname : Ident.isWordText h.className = true)
    (b : Breakdown) : h.code ≠ .error (.breakdown b) := by
  unfold code
  intro hcode
  rcases bind_eq_error.1 hcode with hself | ⟨self, -, hcode⟩
  · exact Stop.ofFailure_ne_breakdown _ _ hself
  have hend : "Base".toList.all Naming.isNameChar = true := by decide
  obtain ⟨base, hbase⟩ := Naming.exists_word_append h.className hname hend
  rw [hbase] at hcode
  rcases bind_eq_error.1 hcode with hself | ⟨base', -, hcode⟩
  · cases hself
  rcases bind_eq_error.1 hcode with hmembers | ⟨members, hmembers, hcode⟩
  · exact Stop.ofFailure_ne_breakdown _ _ hmembers
  have hfillings : ∀ m ∈ members, ∃ filling, memberFilling base' m = .ok filling := by
    intro m hm
    obtain ⟨member, -, hplanned⟩ := exists_of_mem_mapM (Stop.ofFailure_eq_ok.1 hmembers) hm
    exact exists_memberFilling base' (isIdentifier_of_plannedMember hplanned)
  obtain ⟨fillings, hfillings⟩ := exists_mapM hfillings
  rw [Stop.ofBreakdown_eq_breakdown, tokens, hfillings] at hcode
  cases hcode

/-- **The artifact of a handler** breaks down only where there is no layout for its code. -/
theorem artifact_eq_breakdown {h : Handler} (hname : Ident.isWordText h.className = true)
    {b : Breakdown} : h.artifact = .error (.breakdown b) ↔
      b = .layout ∧ ∃ tokens, h.code = .ok tokens ∧ Unwritable tokens := by
  rw [artifact_eq, bind_eq_error]
  constructor
  · rintro (hcode | ⟨tokens, hcode, hlayout⟩)
    · exact absurd hcode (code_ne_breakdown hname b)
    · obtain ⟨hb, hfile⟩ := Artifact.ofTokens_eq_breakdown.1 hlayout
      exact ⟨hb, tokens, hcode, hfile⟩
  · rintro ⟨hb, tokens, hcode, hfile⟩
    exact .inr ⟨tokens, hcode, Artifact.ofTokens_eq_breakdown.2 ⟨hb, hfile⟩⟩

end Handler

/-! ### Mappings -/

/-- Whether the names that a mapping adds to the code are shaped like identifiers. -/
structure PlannedMapping.IsNamed (p : PlannedMapping) : Prop where
  display : Naming.isIdentifier p.display = true
  assignments : ∀ a ∈ p.assignments, Naming.isIdentifier a.destName = true

/-- Whether the names in a trait are shaped like identifiers. -/
structure MappingTarget.IsNamed (t : MappingTarget) : Prop where
  display : Naming.isIdentifier t.display = true
  impls : ∀ p ∈ t.impls, p.IsNamed

/-- A mapping is planned only where its names are shaped like identifiers. -/
theorem PlannedMapping.isNamed_of {m : Mapping} {p : PlannedMapping} (h : of m = .ok p) :
    p.IsNamed := by
  unfold of at h
  obtain ⟨source, -, h⟩ := bind_eq_ok.1 h
  obtain ⟨dest, -, h⟩ := bind_eq_ok.1 h
  obtain ⟨display, hdisplay, h⟩ := bind_eq_ok.1 h
  obtain ⟨module_, -, h⟩ := bind_eq_ok.1 h
  obtain ⟨assignments, hassignments, h⟩ := bind_eq_ok.1 h
  obtain rfl := Except.ok.inj h
  refine ⟨Naming.isIdentifier_of_ident hdisplay, fun a ha => ?_⟩
  obtain ⟨pair, -, hpair⟩ := exists_of_mem_mapM hassignments ha
  obtain ⟨source', -, hpair⟩ := bind_eq_ok.1 hpair
  obtain ⟨dest', hdest, hpair⟩ := bind_eq_ok.1 hpair
  obtain rfl := Except.ok.inj hpair
  exact Naming.isIdentifier_of_ident hdest

/-- **Every name in a plan** is shaped like an identifier. -/
theorem MappingPlan.isNamed_ofMappings (ms : List Mapping) :
    ∀ s ∈ (ofMappings ms).spaces, ∀ t ∈ s.targets, t.IsNamed := by
  intro s hs t ht
  have hsorted := ((holds_ofMappings ms).sorted.holds s hs).sorted
  have himpls := (hsorted.holds t ht).impls
  refine ⟨?_, fun p hp => ?_⟩
  · -- the trait is there for a mapping of its name
    obtain ⟨m, hm, hdest⟩ := hsorted.exists_mem ht
    have hplan : PlannedMapping.of m ∈ t.impls.map .ok := by
      rw [← himpls]
      exact List.mem_map_of_mem (List.mem_filter.2 ⟨hm, decide_eq_true hdest⟩)
    obtain ⟨p, -, hp⟩ := List.mem_map.1 hplan
    have hdisplay : p.display = t.display :=
      congrArg Prod.fst ((PlannedMapping.plans_of hp.symm).destination.trans hdest)
    exact hdisplay ▸ (PlannedMapping.isNamed_of hp.symm).display
  · have hplan : (Except.ok p : Except Failure PlannedMapping) ∈ t.impls.map .ok :=
      List.mem_map_of_mem hp
    rw [← himpls] at hplan
    obtain ⟨m, -, hm⟩ := List.mem_map.1 hplan
    exact PlannedMapping.isNamed_of hm

/-- The code of an assignment is there. -/
theorem Assignment.exists_tokens {a : Assignment} (h : Naming.isIdentifier a.destName = true) :
    ∃ ts, a.tokens = .ok ts := by
  have hname := Naming.all_isNameChar_of_isIdentifier h
  obtain ⟨setter, hsetter⟩ := Naming.exists_word_append "set_" (by decide) hname
  unfold tokens
  dsimp only
  split
  · rw [hsetter]
    exact ⟨_, rfl⟩
  · exact ⟨_, rfl⟩

/-- The code of a trait is there. -/
theorem MappingTarget.exists_tokens {t : MappingTarget} (h : t.IsNamed) :
    ∃ ts, t.tokens = .ok ts := by
  have hdisplay := Naming.all_isNameChar_of_isIdentifier h.display
  have hsnake := Naming.all_isNameChar_snakeCase h.display
  obtain ⟨trait_, htrait⟩ := Naming.exists_word_append "MapTo" (by decide) hdisplay
  obtain ⟨method, hmethod⟩ := Naming.exists_word_append "map_to_" (by decide) hsnake
  have himpls (f : Template.Filling) : ∃ tss, t.impls.mapM (implTokens f) = .ok tss := by
    refine exists_mapM fun p hp => ?_
    have hassignments : ∀ a ∈ p.assignments, ∃ ts, a.tokens = .ok ts :=
      fun a ha => Assignment.exists_tokens ((h.impls p hp).assignments a ha)
    obtain ⟨tss, htss⟩ := exists_mapM hassignments
    unfold implTokens
    rw [htss]
    exact ⟨_, rfl⟩
  unfold tokens traitName methodName
  rw [htrait, hmethod]
  obtain ⟨tss, htss⟩ := himpls
    [("trait", [trait_.token]), ("method", [method.token]), ("dest", t.dest.tokens),
      ("params", Template.fill
        "&self, additional_mappings: ::core::option::Option<&dyn Fn(&Self, &mut $dest)>"
        [("dest", t.dest.tokens)])]
  exact ⟨_, bind_eq_ok.2 ⟨trait_, rfl, bind_eq_ok.2 ⟨method, rfl, bind_eq_ok.2 ⟨tss, htss, rfl⟩⟩⟩⟩

/-- **The artifact of mappings** breaks down only where there is no layout for its code. -/
theorem MappingPlan.artifact_eq_breakdown {ms : List Mapping} {b : Breakdown} :
    (ofMappings ms).artifact = .error (.breakdown b) ↔ b = .layout ∧
      ∃ spaces, (ofMappings ms).spaces.mapM MappingSpace.tokens = .ok spaces ∧
        Unwritable spaces.flatten := by
  have hspaces : ∀ s ∈ (ofMappings ms).spaces, ∃ ts, s.tokens = .ok ts := by
    intro s hs
    have htargets : ∀ t ∈ s.targets, ∃ ts, t.tokens = .ok ts :=
      fun t ht => MappingTarget.exists_tokens (isNamed_ofMappings ms s hs t ht)
    obtain ⟨tss, htss⟩ := exists_mapM htargets
    unfold MappingSpace.tokens
    rw [htss]
    exact ⟨_, rfl⟩
  obtain ⟨spaces, heq⟩ := exists_mapM hspaces
  unfold artifact
  rw [heq]
  constructor
  · intro h
    obtain ⟨hb, hfile⟩ := Artifact.ofTokens_eq_breakdown.1 h
    exact ⟨hb, spaces, rfl, hfile⟩
  · rintro ⟨hb, spaces', heq', hfile⟩
    obtain rfl := Except.ok.inj heq'
    exact Artifact.ofTokens_eq_breakdown.2 ⟨hb, hfile⟩

/-! ### Generators -/

namespace Generation

variable {s : Settings} {host : Host} {corpus : Corpus} {b : Breakdown}

theorem add_eq_breakdown {p : HandlerProgress} {h : Handler} :
    p.add h = .error (.breakdown b) ↔ h.artifact = .error (.breakdown b) := by
  unfold HandlerProgress.add
  cases h.artifact with
  | ok a =>
    cases hinsert : p.registry.insert a with
    | ok r => simp [hinsert, Stop.ofFailure, bind, Except.bind, pure, Except.pure]
    | error f => simp [hinsert, Stop.ofFailure, bind, Except.bind]
  | error stop =>
    cases stop with
    | failure f =>
      dsimp only
      split_ifs <;> simp [pure, Except.pure]
    | breakdown b' => simp

/-- **What a handler adds to a run:** its artifact, or a failure that reaches less far. -/
theorem HandlerProgress.add_eq_ok {p q : HandlerProgress} {h : Handler} : p.add h = .ok q ↔
    (∃ a r, h.artifact = .ok a ∧ p.registry.insert a = .ok r ∧ q = ⟨r, p.failures⟩) ∨
    ∃ f, h.artifact = .error (.failure f) ∧ f.scope ≠ .run ∧
      q = ⟨p.registry, p.failures ++ [f]⟩ := by
  unfold add
  cases h.artifact with
  | ok a =>
    constructor
    · intro hadd
      obtain ⟨r, hr, hq⟩ := bind_eq_ok.1 hadd
      exact .inl ⟨a, r, rfl, Stop.ofFailure_eq_ok.1 hr, (Except.ok.inj hq).symm⟩
    · rintro (⟨a', r, ha, hr, rfl⟩ | ⟨f, hf, -⟩)
      · obtain rfl := Except.ok.inj ha
        exact bind_eq_ok.2 ⟨r, Stop.ofFailure_eq_ok.2 hr, rfl⟩
      · cases hf
  | error stop =>
    cases stop with
    | failure f =>
      constructor
      · intro hadd
        dsimp only at hadd
        split_ifs at hadd with hscope
        exact .inr ⟨f, rfl, hscope, (Except.ok.inj hadd).symm⟩
      · rintro (⟨a, r, ha, -⟩ | ⟨f', hf, hscope, rfl⟩)
        · cases ha
        · obtain rfl := Stop.failure.inj (Except.error.inj hf)
          exact if_pos hscope
    | breakdown b =>
      constructor
      · intro hadd
        cases hadd
      · rintro (⟨a, r, ha, -⟩ | ⟨f, hf, -⟩)
        · cases ha
        · cases hf

/-- The steps of generating handlers. -/
theorem handlers_eq_ok {g : Generation} :
    handlers s host corpus = .ok g ↔ s.validate = .ok () ∧ ∃ resolved q,
      host.resolveHandlers (corpus.scan s.handler.accepts) = .ok resolved ∧
      resolved.items.foldlM HandlerProgress.add { failures := resolved.failures } = .ok q ∧
      g = ⟨q.registry.artifacts, q.failures⟩ := by
  unfold handlers
  simp only [bind_eq_ok, Stop.ofFailure_eq_ok, Stop.ofBreakdown_eq_ok]
  constructor
  · rintro ⟨_, hvalid, resolved, hresolved, q, hq, hg⟩
    exact ⟨hvalid, resolved, q, hresolved, hq, (Except.ok.inj hg).symm⟩
  · rintro ⟨hvalid, resolved, q, hresolved, hq, rfl⟩
    exact ⟨(), hvalid, resolved, hresolved, q, hq, rfl⟩

/-- Generating handlers breaks down while they are resolved, or over the first handler whose code
has no layout. -/
theorem handlers_eq_breakdown :
    handlers s host corpus = .error (.breakdown b) ↔ s.validate = .ok () ∧
      (host.resolveHandlers (corpus.scan s.handler.accepts) = .error b ∨
        ∃ resolved before h after progress,
          host.resolveHandlers (corpus.scan s.handler.accepts) = .ok resolved ∧
          resolved.items = before ++ h :: after ∧
          before.foldlM HandlerProgress.add { failures := resolved.failures } = .ok progress ∧
          h.artifact = .error (.breakdown b)) := by
  unfold handlers
  constructor
  · intro h
    rcases bind_eq_error.1 h with hvalid | ⟨_, hvalid, h⟩
    · exact absurd hvalid (Stop.ofFailure_ne_breakdown _ _)
    refine ⟨Stop.ofFailure_eq_ok.1 hvalid, ?_⟩
    rcases bind_eq_error.1 h with hresolve | ⟨resolved, hresolve, h⟩
    · exact .inl (Stop.ofBreakdown_eq_breakdown.1 hresolve)
    rcases bind_eq_error.1 h with hfold | ⟨progress, -, h⟩
    · obtain ⟨before, handler, after, progress, hitems, hbefore, hadd⟩ := foldlM_eq_error.1 hfold
      exact .inr ⟨resolved, before, handler, after, progress, Stop.ofBreakdown_eq_ok.1 hresolve,
        hitems, hbefore, add_eq_breakdown.1 hadd⟩
    · cases h
  · rintro ⟨hvalid, h⟩
    rw [hvalid]
    refine bind_eq_error.2 (.inr ⟨(), rfl, ?_⟩)
    rcases h with h | ⟨resolved, before, handler, after, progress, hresolve, hitems, hbefore, hadd⟩
    · exact bind_eq_error.2 (.inl (Stop.ofBreakdown_eq_breakdown.2 h))
    · refine bind_eq_error.2 (.inr ⟨resolved, Stop.ofBreakdown_eq_ok.2 hresolve, ?_⟩)
      refine bind_eq_error.2 (.inl (foldlM_eq_error.2 ?_))
      exact ⟨before, handler, after, progress, hitems, hbefore, add_eq_breakdown.2 hadd⟩

/-- Generating mappings breaks down while they are resolved, or over code without a layout. -/
theorem mappings_eq_breakdown :
    mappings s host corpus = .error (.breakdown b) ↔ s.validate = .ok () ∧
      (host.resolveMappings (corpus.scan s.mapping.accepts) = .error b ∨
        ∃ resolved, host.resolveMappings (corpus.scan s.mapping.accepts) = .ok resolved ∧
          (MappingPlan.ofMappings resolved.items).artifact = .error (.breakdown b)) := by
  unfold mappings ofMappings
  constructor
  · intro h
    rcases bind_eq_error.1 h with hvalid | ⟨_, hvalid, h⟩
    · exact absurd hvalid (Stop.ofFailure_ne_breakdown _ _)
    refine ⟨Stop.ofFailure_eq_ok.1 hvalid, ?_⟩
    rcases bind_eq_error.1 h with hresolve | ⟨resolved, hresolve, h⟩
    · exact .inl (Stop.ofBreakdown_eq_breakdown.1 hresolve)
    refine .inr ⟨resolved, Stop.ofBreakdown_eq_ok.1 hresolve, ?_⟩
    rcases bind_eq_error.1 h with hmade | ⟨made, -, h⟩
    · rcases bind_eq_error.1 hmade with hartifact | ⟨artifact, -, h⟩
      · exact hartifact
      · cases h
    · cases h
  · rintro ⟨hvalid, h⟩
    rw [hvalid]
    refine bind_eq_error.2 (.inr ⟨(), rfl, ?_⟩)
    rcases h with h | ⟨resolved, hresolve, hartifact⟩
    · exact bind_eq_error.2 (.inl (Stop.ofBreakdown_eq_breakdown.2 h))
    · refine bind_eq_error.2 (.inr ⟨resolved, Stop.ofBreakdown_eq_ok.2 hresolve, ?_⟩)
      exact bind_eq_error.2 (.inl (bind_eq_error.2 (.inl hartifact)))

end Generation

end Scaffold
