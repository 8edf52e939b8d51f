import Scaffold.Proofs.Generation
import Scaffold.Proofs.Resolve
import Scaffold.Proofs.Skipping

/-!
# What becomes of marked declarations

A marked declaration may be unknown to the host, have nothing to handle, or declare a type that was
described before; otherwise its handler is described and gets an artifact or a failure.  Resolving
ends every declaration (`Host.exists_ends`), and synthesis settles those that were described
(`HandlerProgress.exists_settled`), so `Generation.declarations_accounted` finds each of them in
exactly one place, in the order in which they stand in the corpus.
-/

namespace Scaffold

/-! ### Fates -/

/-- What becomes of a marked declaration. -/
inductive DeclarationFate where
  /-- The host does not know the type. -/
  | unresolved (f : Failure)
  /-- The type has nothing to handle. -/
  | skipped
  /-- A declaration before it describes the handler of the type. -/
  | repeated (h : Handler)
  /-- It describes a handler, which has an artifact. -/
  | made (h : Handler) (a : Artifact)
  /-- It describes a handler, which has no artifact. -/
  | refused (h : Handler) (f : Failure)

namespace DeclarationFate

/-- The failure to resolve the declaration. -/
def unresolved? : DeclarationFate → Option Failure
  | .unresolved f => some f
  | _ => none

/-- The handler that the declaration describes. -/
def described? : DeclarationFate → Option Handler
  | .made h _ | .refused h _ => some h
  | _ => none

/-- The artifact of its handler. -/
def artifact? : DeclarationFate → Option Artifact
  | .made _ a => some a
  | _ => none

/-- The failure to write its handler. -/
def refused? : DeclarationFate → Option Failure
  | .refused _ f => some f
  | _ => none

/-- What is found for the declaration. -/
def finding : DeclarationFate → Finding Handler
  | .unresolved f => .failure f
  | .skipped => .nothing
  | .repeated h | .made h _ | .refused h _ => .item h

/-- Whether a repeat comes after a declaration that describes its type, and no two declarations
describe one type. -/
structure Coherent (fates : List DeclarationFate) : Prop where
  repeated : ∀ before h after, fates = before ++ .repeated h :: after →
    ∃ first ∈ before.filterMap described?, first.typePath = h.typePath
  distinct : ((fates.filterMap described?).map (·.typePath)).Nodup

/-- After the same declarations, one cannot both be a repeat and describe its type. -/
theorem Coherent.not_both {before rest rest' : List DeclarationFate} {handler : Handler}
    {fate : DeclarationFate} (h : Coherent (before ++ .repeated handler :: rest))
    (h' : Coherent (before ++ fate :: rest')) : fate.described? ≠ some handler := by
  intro hdescribed
  obtain ⟨first, hfirst, hpath⟩ := h.repeated before handler rest rfl
  have hdistinct := h'.distinct
  rw [List.filterMap_append, List.filterMap_cons, hdescribed, List.map_append, List.map_cons,
    List.nodup_append] at hdistinct
  exact hdistinct.2.2 _ (List.mem_map_of_mem hfirst) _ List.mem_cons_self hpath

end DeclarationFate

namespace Host

/-- Whether a candidate is a declaration of a type with these members, by the answers of a host to
the unit. -/
def Declares (host : Host) (unit : SourceUnit) (c : Candidate) (info : TypeInfo)
    (members : List TypeMember) : Prop :=
  ∃ d, c.node = .declaration d ∧ (host.lookup unit).declaredType d = some info ∧
    host.membersOf info = .ok members

/-- Whether a candidate declares a type with this handler. -/
def Describes (host : Host) (unit : SourceUnit) (c : Candidate) (h : Handler) : Prop :=
  ∃ info members, host.Declares unit c info members ∧ Handler.ofType? info members = some h

/-- Whether a candidate is a declaration that ends as told, by the answers of a host to the unit. -/
inductive Decides (host : Host) (unit : SourceUnit) (c : Candidate) : DeclarationFate → Prop
  | unresolved {d : Declaration} (hc : c.node = .declaration d)
      (hinfo : (host.lookup unit).declaredType d = none) :
      Decides host unit c (.unresolved (.unresolvedDeclaration d.path c.unit.origin))
  | skipped {info : TypeInfo} {members : List TypeMember}
      (hmembers : host.Declares unit c info members)
      (hnone : ∀ m ∈ members, m.visibility = .restricted → m.kind = .field → m.stored = false) :
      Decides host unit c .skipped
  | repeated {h : Handler} (hhandler : host.Describes unit c h) : Decides host unit c (.repeated h)
  | made {h : Handler} {a : Artifact} (hhandler : host.Describes unit c h)
      (ha : h.artifact = .ok a) : Decides host unit c (.made h a)
  | refused {h : Handler} {f : Failure} (hhandler : host.Describes unit c h)
      (hf : h.artifact = .error (.failure f)) (hscope : f.scope ≠ .run) :
      Decides host unit c (.refused h f)

/-- Whether candidates end as told, each by the answers to a unit with its number. -/
def DecidesAll (host : Host) : List Candidate → List DeclarationFate → Prop :=
  List.Forall₂ fun c fate => ∃ unit : SourceUnit, unit.id = c.unit.id ∧ host.Decides unit c fate

end Host

/-! ### Resolving -/

/-- A type has nothing to handle exactly where none of its stored fields is restricted. -/
theorem Handler.ofType?_eq_none {info : TypeInfo} {members : List TypeMember} :
    Handler.ofType? info members = none ↔
      ∀ m ∈ members, m.visibility = .restricted → m.kind = .field → m.stored = false := by
  rw [Handler.ofType?_eq info members _ _ rfl rfl]
  split_ifs with hempty
  · rw [List.filter_filter, List.filter_eq_nil_iff] at hempty
    simpa using hempty
  · rw [List.filter_filter, List.filter_eq_nil_iff] at hempty
    simpa using hempty

/-- What is found for a declaration: a failure where the host does not know it, otherwise its
handler or nothing. -/
theorem Host.findHandler_of_declaration {host : Host} {unit : SourceUnit} {c : Candidate}
    {d : Declaration} (hc : c.node = .declaration d) {finding : Finding Handler}
    (h : host.findHandler (host.lookup unit) c = .ok finding) :
    ((host.lookup unit).declaredType d = none ∧
      finding = .failure (.unresolvedDeclaration d.path c.unit.origin)) ∨
    (∃ info members, host.Declares unit c info members ∧ Handler.ofType? info members = none ∧
      finding = .nothing) ∨
    ∃ handler, host.Describes unit c handler ∧ finding = .item handler := by
  cases hinfo : (host.lookup unit).declaredType d with
  | none =>
    unfold findHandler at h
    rw [hc] at h
    dsimp only at h
    rw [hinfo] at h
    exact .inl ⟨rfl, (Except.ok.inj h).symm⟩
  | some info =>
    obtain ⟨members, hmembers, rfl⟩ := (findHandler_eq_ok hc hinfo).1 h
    have hdeclares : host.Declares unit c info members := ⟨d, hc, hinfo, hmembers⟩
    cases hhandler : Handler.ofType? info members with
    | none => exact .inr (.inl ⟨info, members, hdeclares, hhandler, rfl⟩)
    | some handler => exact .inr (.inr ⟨handler, ⟨info, members, hdeclares, hhandler⟩, rfl⟩)

/-- What is accepted is a declaration. -/
theorem HandlerSettings.exists_declaration_of_mem_scan {s : HandlerSettings} {corpus : Corpus}
    {c : Candidate} (hc : c ∈ corpus.scan s.accepts) : ∃ d, c.node = .declaration d := by
  have haccepts : s.accepts c.node = true := (List.mem_filter.1 hc).2
  cases hnode : c.node with
  | declaration d => exact ⟨d, rfl⟩
  | call call =>
    rw [hnode] at haccepts
    cases haccepts

/-! ### One fate for each declaration -/

namespace Host

variable {host : Host} {unit : SourceUnit} {c : Candidate} {fate fate' : DeclarationFate}

/-- What is found for a declaration whose fate is known. -/
theorem Decides.findHandler_eq (h : host.Decides unit c fate) :
    host.findHandler (host.lookup unit) c = .ok fate.finding := by
  have hhandler {handler : Handler} (hdescribes : host.Describes unit c handler) :
      host.findHandler (host.lookup unit) c = .ok (.item handler) := by
    obtain ⟨info, members, ⟨d, hc, hinfo, hmembers⟩, hhandler⟩ := hdescribes
    exact (findHandler_eq_ok hc hinfo).2 ⟨members, hmembers, by rw [hhandler]; rfl⟩
  cases h with
  | @unresolved d hc hinfo =>
    unfold findHandler
    rw [hc]
    dsimp only
    rw [hinfo]
    rfl
  | @skipped info members hdeclares hnone =>
    obtain ⟨d, hc, hinfo, hmembers⟩ := hdeclares
    refine (findHandler_eq_ok hc hinfo).2 ⟨members, hmembers, ?_⟩
    rw [Handler.ofType?_eq_none.2 hnone]
    rfl
  | repeated hdescribes | made hdescribes | refused hdescribes => exact hhandler hdescribes

/-- A fate is decided by what the host answers to the unit. -/
theorem Decides.congr {unit' : SourceUnit} (hlookup : host.lookup unit = host.lookup unit')
    (h : host.Decides unit c fate) : host.Decides unit' c fate := by
  have hdescribes {handler : Handler} (hdescribes : host.Describes unit c handler) :
      host.Describes unit' c handler := by
    obtain ⟨info, members, ⟨d, hc, hinfo, hmembers⟩, hhandler⟩ := hdescribes
    exact ⟨info, members, ⟨d, hc, hlookup ▸ hinfo, hmembers⟩, hhandler⟩
  cases h with
  | unresolved hc hinfo => exact .unresolved hc (hlookup ▸ hinfo)
  | skipped hdeclares hnone =>
    obtain ⟨d, hc, hinfo, hmembers⟩ := hdeclares
    exact .skipped ⟨d, hc, hlookup ▸ hinfo, hmembers⟩ hnone
  | repeated hh => exact .repeated (hdescribes hh)
  | made hh ha => exact .made (hdescribes hh) ha
  | refused hh hf hscope => exact .refused (hdescribes hh) hf hscope

/-- Fates of one declaration differ only where one of them is a repeat and the other is not. -/
theorem Decides.eq_or_repeated (h : host.Decides unit c fate) (h' : host.Decides unit c fate') :
    fate = fate' ∨ (∃ handler, fate = .repeated handler ∧ fate'.described? = some handler) ∨
      ∃ handler, fate' = .repeated handler ∧ fate.described? = some handler := by
  have hfinding : fate.finding = fate'.finding :=
    Except.ok.inj (h.findHandler_eq.symm.trans h'.findHandler_eq)
  cases h with
  | unresolved =>
    cases h' with
    | unresolved => exact .inl (congrArg _ (Finding.failure.inj hfinding))
    | _ => cases hfinding
  | skipped =>
    cases h' with
    | skipped => exact .inl rfl
    | _ => cases hfinding
  | repeated =>
    cases h' with
    | unresolved | skipped => cases hfinding
    | repeated => exact .inl (congrArg _ (Finding.item.inj hfinding))
    | made | refused => exact .inr (.inl ⟨_, rfl, congrArg some (Finding.item.inj hfinding).symm⟩)
  | made _ ha =>
    cases h' with
    | unresolved | skipped => cases hfinding
    | repeated => exact .inr (.inr ⟨_, rfl, congrArg some (Finding.item.inj hfinding)⟩)
    | made _ ha' =>
      obtain rfl := Finding.item.inj hfinding
      exact .inl (congrArg _ (Except.ok.inj (ha.symm.trans ha')))
    | refused _ hf =>
      obtain rfl := Finding.item.inj hfinding
      cases ha.symm.trans hf
  | refused _ hf =>
    cases h' with
    | unresolved | skipped => cases hfinding
    | repeated => exact .inr (.inr ⟨_, rfl, congrArg some (Finding.item.inj hfinding)⟩)
    | made _ ha =>
      obtain rfl := Finding.item.inj hfinding
      cases ha.symm.trans hf
    | refused _ hf' =>
      obtain rfl := Finding.item.inj hfinding
      exact .inl (congrArg _ (Stop.failure.inj (Except.error.inj (hf.symm.trans hf'))))

/-- **Declarations end in one way only,** where a host answers by the number of a unit. -/
theorem DecidesAll.unique
    (hlookup : ∀ u v : SourceUnit, u.id = v.id → host.lookup u = host.lookup v)
    {candidates : List Candidate} (before : List DeclarationFate)
    {fates fates' : List DeclarationFate} (h : host.DecidesAll candidates fates)
    (hcoherent : DeclarationFate.Coherent (before ++ fates))
    (h' : host.DecidesAll candidates fates')
    (hcoherent' : DeclarationFate.Coherent (before ++ fates')) : fates = fates' := by
  induction h generalizing before fates' with
  | nil =>
    cases h'
    rfl
  | @cons c fate cs rest hfate _ ih =>
    obtain ⟨fate', rest', hfate', hrest', rfl⟩ := List.forall₂_cons_left_iff.1 h'
    obtain ⟨unit, hunit, hdecides⟩ := hfate
    obtain ⟨unit', hunit', hdecides'⟩ := hfate'
    have hsame : host.lookup unit' = host.lookup unit := hlookup _ _ (hunit'.trans hunit.symm)
    have hdecides' : host.Decides unit c fate' := hdecides'.congr hsame
    rcases hdecides.eq_or_repeated hdecides' with rfl | ⟨handler, rfl, hd⟩ | ⟨handler, rfl, hd⟩
    · rw [List.append_cons] at hcoherent hcoherent'
      rw [ih (before ++ [fate]) hcoherent hrest' hcoherent']
    · exact absurd hd (hcoherent.not_both hcoherent')
    · exact absurd hd (hcoherent'.not_both hcoherent)

end Host

/-! ### Synthesis -/

namespace Generation

namespace HandlerProgress

/-- How a declaration that was resolved ends when the handlers are written. -/
inductive Settles : Ending Handler → DeclarationFate → Prop where
  | failed (f : Failure) : Settles (.failed f) (.unresolved f)
  | nothing : Settles .nothing .skipped
  | repeated (h : Handler) : Settles (.repeated h) (.repeated h)
  | made {h : Handler} {a : Artifact} (ha : h.artifact = .ok a) : Settles (.made h) (.made h a)
  | refused {h : Handler} {f : Failure} (hf : h.artifact = .error (.failure f))
      (hscope : f.scope ≠ .run) : Settles (.made h) (.refused h f)

/-- What was resolved and what becomes of it agree on what is described. -/
theorem Settles.described? {e : Ending Handler} {fate : DeclarationFate} (h : Settles e fate) :
    fate.described? = e.made? := by
  cases h <;> rfl

theorem Settles.unresolved? {e : Ending Handler} {fate : DeclarationFate} (h : Settles e fate) :
    fate.unresolved? = e.failure? := by
  cases h <;> rfl

theorem Settles.eq_repeated {e : Ending Handler} {h : Handler} (hs : Settles e (.repeated h)) :
    e = .repeated h := by
  cases hs
  rfl

/-- **Writing settles every declaration:** each handler that was described adds its artifact or its
failure after those before. -/
theorem exists_settled {endings : List (Ending Handler)} {p q : HandlerProgress}
    (h : (endings.filterMap Ending.made?).foldlM HandlerProgress.add p = .ok q) :
    ∃ fates, List.Forall₂ Settles endings fates ∧
      q.registry.artifacts = p.registry.artifacts ++ fates.filterMap DeclarationFate.artifact? ∧
      q.failures = p.failures ++ fates.filterMap DeclarationFate.refused? := by
  induction endings generalizing p with
  | nil =>
    obtain rfl := Except.ok.inj h
    exact ⟨[], .nil, (List.append_nil _).symm, (List.append_nil _).symm⟩
  | cons e endings ih =>
    cases e with
    | nothing =>
      obtain ⟨fates, hsettles, hrest⟩ := ih h
      exact ⟨.skipped :: fates, .cons .nothing hsettles, hrest⟩
    | failed f =>
      obtain ⟨fates, hsettles, hrest⟩ := ih h
      exact ⟨.unresolved f :: fates, .cons (.failed f) hsettles, hrest⟩
    | repeated handler =>
      obtain ⟨fates, hsettles, hrest⟩ := ih h
      exact ⟨.repeated handler :: fates, .cons (.repeated handler) hsettles, hrest⟩
    | made handler =>
      obtain ⟨next, hnext, hfold⟩ := bind_eq_ok.1 h
      obtain ⟨fates, hsettles, hartifacts, hfailures⟩ := ih hfold
      rcases HandlerProgress.add_eq_ok.1 hnext with
        ⟨a, r, ha, hr, rfl⟩ | ⟨f, hf, hscope, rfl⟩
      · refine ⟨.made handler a :: fates, .cons (.made ha) hsettles, ?_, hfailures⟩
        rw [hartifacts, Registry.artifacts_of_insert hr, List.append_assoc]
        rfl
      · refine ⟨.refused handler f :: fates, .cons (.refused hf hscope) hsettles, hartifacts, ?_⟩
        rw [hfailures, List.append_assoc]
        rfl

/-- What was resolved for a declaration and what became of it decide the declaration. -/
theorem Settles.decides {host : Host} {unit : SourceUnit} {c : Candidate} {d : Declaration}
    (hc : c.node = .declaration d) {e : Ending Handler} {fate : DeclarationFate}
    (hfind : host.findHandler (host.lookup unit) c = .ok e.finding) (h : Settles e fate) :
    host.Decides unit c fate := by
  rcases Host.findHandler_of_declaration hc hfind with
    ⟨hinfo, hfinding⟩ | ⟨info, members, hmembers, hnone, hfinding⟩ | ⟨handler, hhandler, hfinding⟩
  · cases h with
    | failed f =>
      obtain rfl := Finding.failure.inj hfinding
      exact .unresolved hc hinfo
    | _ => cases hfinding
  · cases h with
    | nothing => exact .skipped hmembers (Handler.ofType?_eq_none.1 hnone)
    | _ => cases hfinding
  · cases h with
    | repeated h =>
      obtain rfl := Finding.item.inj hfinding
      exact .repeated hhandler
    | made ha =>
      obtain rfl := Finding.item.inj hfinding
      exact .made hhandler ha
    | refused hf hscope =>
      obtain rfl := Finding.item.inj hfinding
      exact .refused hhandler hf hscope
    | _ => cases hfinding

end HandlerProgress

/-! ### Accounting -/

/-- Whether a generation accounts for candidates that end as told: the artifacts stand in the order
of the candidates, and so do the failures, those of resolving before those of writing. -/
structure AccountsFor (host : Host) (candidates : List Candidate) (fates : List DeclarationFate)
    (g : Generation) : Prop where
  decided : host.DecidesAll candidates fates
  coherent : DeclarationFate.Coherent fates
  artifacts : g.artifacts = fates.filterMap DeclarationFate.artifact?
  failures : g.failures = fates.filterMap DeclarationFate.unresolved? ++
    fates.filterMap DeclarationFate.refused?

/-- The fates that settle endings agree with them on what is gathered from each. -/
theorem HandlerProgress.filterMap_eq_of_settles {α : Type} {f : DeclarationFate → Option α}
    {g : Ending Handler → Option α} (hfg : ∀ {e fate}, Settles e fate → f fate = g e)
    {endings : List (Ending Handler)} {fates : List DeclarationFate}
    (h : List.Forall₂ Settles endings fates) : fates.filterMap f = endings.filterMap g := by
  induction h with
  | nil => rfl
  | cons hsettles _ ih => rw [List.filterMap_cons, List.filterMap_cons, hfg hsettles, ih]

/-- **No marked declaration is lost.**  Where handlers are generated, every declaration that is
accepted is unknown to the host and reported, has nothing to handle, repeats one before it, has an
artifact, or is reported because its handler has none; and nothing else is made or reported.  Where
the host answers by the number of a unit, no declaration may be counted in another way. -/
theorem declarations_accounted {s : Settings} {host : Host} {corpus : Corpus} {g : Generation}
    (h : handlers s host corpus = .ok g) :
    ∃ fates, AccountsFor host (corpus.scan s.handler.accepts) fates g ∧
      ((∀ u v : SourceUnit, u.id = v.id → host.lookup u = host.lookup v) →
        ∀ fates', host.DecidesAll (corpus.scan s.handler.accepts) fates' →
          DeclarationFate.Coherent fates' → fates' = fates) := by
  obtain ⟨-, resolved, q, hresolve, hfold, rfl⟩ := handlers_eq_ok.1 h
  obtain ⟨findings, hfindings, heq⟩ := bind_eq_ok.1 hresolve
  obtain rfl := Except.ok.inj heq
  obtain ⟨endings, hends, hcollect⟩ := Host.exists_ends Handler.typePath hfindings
  change Resolved.collect Handler.typePath findings = _ at hcollect
  rw [hcollect] at hfold
  obtain ⟨fates, hsettles, hartifacts, hfailures⟩ := HandlerProgress.exists_settled hfold
  have hdescribed {es : List (Ending Handler)} {fs : List DeclarationFate}
      (hes : List.Forall₂ HandlerProgress.Settles es fs) :
      fs.filterMap DeclarationFate.described? = es.filterMap Ending.made? :=
    HandlerProgress.filterMap_eq_of_settles HandlerProgress.Settles.described? hes
  have hdecided : host.DecidesAll (corpus.scan s.handler.accepts) fates := by
    have hfound := (List.forall₂_and_left _ _).2 ⟨fun c hc => hc, hends.found⟩
    refine forall₂_trans ?_ hfound hsettles
    rintro c e fate ⟨hc, unit, hunit, hfind⟩ hsettle
    obtain ⟨d, hd⟩ := HandlerSettings.exists_declaration_of_mem_scan hc
    exact ⟨unit, hunit, hsettle.decides hd hfind⟩
  have hcoherent : DeclarationFate.Coherent fates := by
    refine ⟨?_, ?_⟩
    · rintro before handler after rfl
      obtain ⟨e, rest, he, -, hdrop⟩ :=
        List.forall₂_cons_right_iff.1 (List.forall₂_drop_append _ _ _ hsettles)
      obtain rfl := he.eq_repeated
      have hsplit : endings = endings.take before.length ++ .repeated handler :: rest := by
        rw [← hdrop, List.take_append_drop]
      obtain ⟨first, hfirst, hpath⟩ := hends.repeated _ _ _ hsplit
      refine ⟨first, ?_, hpath⟩
      rw [hdescribed (List.forall₂_take_append _ _ _ hsettles)]
      exact List.mem_filterMap.2 ⟨.made first, hfirst, rfl⟩
    · rw [hdescribed hsettles]
      exact hends.distinct
  have hunresolved : fates.filterMap DeclarationFate.unresolved? =
      endings.filterMap Ending.failure? :=
    HandlerProgress.filterMap_eq_of_settles HandlerProgress.Settles.unresolved? hsettles
  refine ⟨fates, ⟨hdecided, hcoherent, hartifacts, ?_⟩, fun hlookup fates' hall hother => ?_⟩
  · rw [hfailures, hunresolved]
  · exact (hdecided.unique hlookup [] hcoherent hall hother).symm

/-- A host that knows the types of one module, each with one field. -/
def pantryHost : Host where
  lookup _ :=
    { resolveType := fun _ => none
      declaredType := fun d =>
        if d.name = "Gone" then none else some ⟨d.name, d.path, d.space, .struct⟩
      resolvesReceiver := fun _ _ => false }
  membersOf info := .ok [⟨"size", if info.name = "Odd" then "Vec<" else "u8",
    if info.name = "Open" then .exposed else .restricted, .field, true⟩]

/-- A marked struct. -/
def markedStruct (name : String) : CorpusNode :=
  .declaration ⟨name, "crate::pantry", .struct, ["handler"], true⟩

/-- Five declarations, each of which ends in another way. -/
def pantryCorpus : Corpus :=
  Corpus.push {} "pantry.rs" (["Jar", "Gone", "Open", "Jar", "Odd"].map markedStruct)

theorem declarations_accounted_pantry :
    ∃ g fates, handlers {} pantryHost pantryCorpus = .ok g ∧ fates.length = 5 ∧
      AccountsFor pantryHost (pantryCorpus.scan ({} : Settings).handler.accepts) fates g ∧
      g.artifacts.length = 1 ∧ g.failures.length = 2 := by
  have hmade : (handlers {} pantryHost pantryCorpus).map
      (fun g => (g.artifacts.length, g.failures.length)) = .ok (1, 2) := by
    decide +kernel
  have hscan : (pantryCorpus.scan ({} : Settings).handler.accepts).length = 5 := by decide +kernel
  cases hg : handlers {} pantryHost pantryCorpus with
  | error stop =>
    rw [hg] at hmade
    cases hmade
  | ok g =>
    obtain ⟨fates, hfates, -⟩ := declarations_accounted hg
    rw [hg] at hmade
    obtain ⟨hartifacts, hfailures⟩ := Prod.mk.inj (Except.ok.inj hmade)
    exact ⟨g, fates, rfl, hfates.decided.length_eq.symm.trans hscan, hfates, hartifacts, hfailures⟩

end Generation

end Scaffold
