import Scaffold.Generation
import Scaffold.Proofs.Naming
import Scaffold.Proofs.Stopping

/-!
# Skipping entities that cannot be generated

Under the policy `skip` an entity that has no artifact is left out and reported, under `abort` it
fails the run.  The policy has no part in the artifacts themselves, so both runs go through the same
registries: `Generation.api_skip_eq_abort` says that skipping makes what aborting makes of the
entities that have artifacts, and reports exactly the others.
-/

namespace Scaffold

open Syntax Template

/-! ### The policy has no part in artifacts -/

/-- The settings with another policy for entities that cannot be generated. -/
def Settings.withPolicy (s : Settings) (policy : InvalidEntityPolicy) : Settings :=
  { s with api := { s.api with onInvalidEntity := policy } }

section Policy

variable (s : Settings) (policy : InvalidEntityPolicy)

@[simp] theorem Settings.validate_withPolicy : (s.withPolicy policy).validate = s.validate := rfl

@[simp] theorem EntityPlan.of_withPolicy (e : Entity) : of (s.withPolicy policy) e = of s e := by
  have fields (entity : String) (ms : List EntityMember) : ∀ seen,
      fieldsOf (s.withPolicy policy) entity seen ms = fieldsOf s entity seen ms := by
    induction ms with
    | nil => exact fun _ => rfl
    | cons m ms ih =>
      intro seen
      simp only [fieldsOf, ih]
      rfl
  unfold of
  rw [fields]

@[simp] theorem Entity.artifact_withPolicy (e : Entity) :
    e.artifact (s.withPolicy policy) = e.artifact s := by
  unfold artifact
  rw [EntityPlan.of_withPolicy]
  rfl

@[simp] theorem bootstrapArtifact_withPolicy (entities : List Entity) :
    bootstrapArtifact (s.withPolicy policy) entities = bootstrapArtifact s entities := rfl

end Policy

/-! ### The bootstrap -/

/-- The code that registers the repository of an entity. -/
def Entity.registration (e : Entity) : List Token :=
  [.word false "services", .punct '.' false, .word false "add_singleton",
    .group .paren [.word false (e.name ++ "Repository"), .punct ':' true, .punct ':' false,
      .word false "new", .group .paren []],
    .punct ';' false]

/-- The code of the bootstrap: a function that registers the repositories of entities in order and
returns the services. -/
def bootstrapCode (rt : Node) (entities : List Entity) : List Token :=
  fill "pub fn add_generated_repositories(services: &mut $rt::ServiceRegistry,)"
      [("rt", rt.tokens)] ++
    fill "-> &mut $rt::ServiceRegistry" [("rt", rt.tokens)] ++
    [.group .brace (entities.flatMap Entity.registration ++ [.word false "services"])]

/-- An entity that has an artifact has a name that is shaped like an identifier. -/
theorem Entity.isIdentifier_of_artifact {s : Settings} {e : Entity} {a : Artifact}
    (h : e.artifact s = .ok a) : Naming.isIdentifier e.name = true := by
  obtain ⟨plan, hplan, -⟩ := bind_eq_ok.1 h
  obtain ⟨_, hvalid, -⟩ := bind_eq_ok.1 (Stop.ofFailure_eq_ok.1 hplan)
  unfold validate at hvalid
  split_ifs at hvalid with hname
  all_goals simpa using hname

/-- **The bootstrap** of entities that have identifiers for names. -/
theorem bootstrapArtifact_eq {s : Settings} {entities : List Entity}
    (hnames : ∀ e ∈ entities, Naming.isIdentifier e.name = true) :
    bootstrapArtifact s entities = Stop.ofFailure s.runtime >>= fun rt =>
      Artifact.ofTokens bootstrapId (bootstrapCode rt entities) := by
  have hword : ∀ e ∈ entities,
      Naming.word (e.name ++ "Repository") = .ok ⟨false, e.name ++ "Repository"⟩ := by
    intro e he
    have hend : "Repository".toList.all Naming.isNameChar = true := by decide
    exact Naming.word_eq
      (Naming.isWordText_append (Naming.isWordText_of_isIdentifier (hnames e he)) hend)
  have hwords : (entities.mapM fun e => Naming.word (e.name ++ "Repository")) =
      .ok (entities.map fun e => ⟨false, e.name ++ "Repository"⟩) := by
    rw [mapM_eq_ok, List.forall₂_map_right_iff]
    exact List.forall₂_same.2 hword
  have htemplate (name : String) : fill "services.add_singleton($repository::new());"
      [("repository", [(⟨false, name⟩ : Ident).token])] =
        [.word false "services", .punct '.' false, .word false "add_singleton",
          .group .paren [.word false name, .punct ':' true, .punct ':' false, .word false "new",
            .group .paren []],
          .punct ';' false] := by
    have hlex : lex "services.add_singleton($repository::new());" =
        some [.word false "services", .punct '.' false, .word false "add_singleton",
          .group .paren [.punct '$' false, .word false "repository", .punct ':' true,
            .punct ':' false, .word false "new", .group .paren []],
          .punct ';' false] := by rfl
    simp [fill, hlex, fillTokens, fillToken, Ident.token]
  have hservices (f : Filling) : fill "services" f = [.word false "services"] := by
    have hlex : lex "services" = some [.word false "services"] := by rfl
    simp [fill, hlex, fillTokens, fillToken]
  have hcode : (entities.map fun e => (⟨false, e.name ++ "Repository"⟩ : Ident)).flatMap
      (fun r => fill "services.add_singleton($repository::new());"
        [("repository", [r.token])]) = entities.flatMap Entity.registration := by
    rw [List.flatMap_map]
    exact congrArg (entities.flatMap ·) (funext fun e => htemplate _)
  unfold bootstrapArtifact bootstrapCode
  rw [hwords]
  simp only [Stop.ofBreakdown, braces, hservices, ok_bind, hcode]

theorem bootstrapArtifact_eq_ok {s : Settings} {entities : List Entity}
    (hnames : ∀ e ∈ entities, Naming.isIdentifier e.name = true) {a : Artifact} :
    bootstrapArtifact s entities = .ok a ↔
      ∃ rt, s.runtime = .ok rt ∧
        Artifact.ofTokens bootstrapId (bootstrapCode rt entities) = .ok a := by
  rw [bootstrapArtifact_eq hnames, bind_eq_ok]
  exact exists_congr fun rt => and_congr_left fun _ => Stop.ofFailure_eq_ok

/-! ### Runs -/

/-- An artifact is registered after the others. -/
theorem Registry.artifacts_of_insert {r r' : Registry} {a : Artifact} (h : r.insert a = .ok r') :
    r'.artifacts = r.artifacts ++ [a] := by
  unfold insert at h
  split_ifs at h
  obtain rfl := Except.ok.inj h
  rfl

/-- Whether an entity can be generated. -/
def Entity.hasArtifact (s : Settings) (e : Entity) : Bool := (e.artifact s).isOk

theorem Entity.hasArtifact_iff {s : Settings} {e : Entity} :
    e.hasArtifact s = true ↔ ∃ a, e.artifact s = .ok a := by
  unfold hasArtifact
  cases e.artifact s with
  | ok a => exact ⟨fun _ => ⟨a, rfl⟩, fun _ => rfl⟩
  | error stop =>
    constructor
    · intro h
      cases h
    · rintro ⟨a, ha⟩
      cases ha

namespace Generation

variable {s : Settings} {p q : ApiProgress} {e : Entity} {entities : List Entity}

/-- **What an entity adds to a run:** its artifact, or a failure where failures are skipped. -/
theorem ApiProgress.add_eq_ok {policy : InvalidEntityPolicy} :
    p.add (s.withPolicy policy) e = .ok q ↔
      (∃ a r, e.artifact s = .ok a ∧ p.registry.insert a = .ok r ∧
        q = ⟨r, p.made ++ [e], p.failures⟩) ∨
      ∃ f, e.artifact s = .error (.failure f) ∧ f.scope = .entity ∧ policy = .skip ∧
        q = ⟨p.registry, p.made, p.failures ++ [f]⟩ := by
  unfold ApiProgress.add
  rw [Entity.artifact_withPolicy]
  cases e.artifact s with
  | ok a =>
    have hnone : ¬∃ f, (Except.ok a : Except Stop Artifact) = .error (.failure f) ∧
        f.scope = .entity ∧ policy = .skip ∧ q = ⟨p.registry, p.made, p.failures ++ [f]⟩ := by
      rintro ⟨f, hf, -⟩
      cases hf
    rw [or_iff_left hnone]
    constructor
    · intro h
      obtain ⟨r, hr, hq⟩ := bind_eq_ok.1 h
      exact ⟨a, r, rfl, Stop.ofFailure_eq_ok.1 hr, (Except.ok.inj hq).symm⟩
    · rintro ⟨a', r, ha, hr, rfl⟩
      obtain rfl := Except.ok.inj ha
      exact bind_eq_ok.2 ⟨r, Stop.ofFailure_eq_ok.2 hr, rfl⟩
  | error stop =>
    have hnone : ¬∃ a r, (Except.error stop : Except Stop Artifact) = .ok a ∧
        p.registry.insert a = .ok r ∧ q = ⟨r, p.made ++ [e], p.failures⟩ := by
      rintro ⟨a, r, ha, -⟩
      cases ha
    rw [or_iff_right hnone]
    cases stop with
    | failure f =>
      dsimp only
      constructor
      · intro h
        split_ifs at h with hskip
        exact ⟨f, rfl, hskip.1, hskip.2, (Except.ok.inj h).symm⟩
      · rintro ⟨f', hf, hscope, hpolicy, rfl⟩
        obtain rfl := Stop.failure.inj (Except.error.inj hf)
        rw [if_pos ⟨hscope, hpolicy⟩]
        rfl
    | breakdown b =>
      constructor
      · intro h
        cases h
      · rintro ⟨f, hf, -⟩
        cases hf

/-- How a run that skips goes from `p` to `q` over entities. -/
structure SkippingRun (s : Settings) (entities : List Entity) (p q : ApiProgress) : Prop where
  /-- The entities that can be generated go the same way where nothing is skipped. -/
  rerun : ∀ failures, (entities.filter (·.hasArtifact s)).foldlM
    (ApiProgress.add (s.withPolicy .abort)) ⟨p.registry, p.made, failures⟩ =
      .ok ⟨q.registry, q.made, failures⟩
  made : q.made = p.made ++ entities.filter (·.hasArtifact s)
  artifacts : ∃ made, List.Forall₂ (fun e a => e.artifact s = .ok a)
    (entities.filter (·.hasArtifact s)) made ∧ q.registry.artifacts = p.registry.artifacts ++ made
  failures : ∃ failures, List.Forall₂ (fun e f => e.artifact s = .error (.failure f))
    (entities.filter (!·.hasArtifact s)) failures ∧ q.failures = p.failures ++ failures

/-- **A run that skips** makes the entities that can be generated and reports the others. -/
theorem skippingRun_of_foldlM
    (h : entities.foldlM (ApiProgress.add (s.withPolicy .skip)) p = .ok q) :
    SkippingRun s entities p q := by
  induction entities generalizing p with
  | nil =>
    obtain rfl := Except.ok.inj h
    exact ⟨fun _ => rfl, (List.append_nil _).symm, ⟨[], .nil, (List.append_nil _).symm⟩,
      ⟨[], .nil, (List.append_nil _).symm⟩⟩
  | cons e entities ih =>
    obtain ⟨next, hnext, hrest⟩ := bind_eq_ok.1 h
    obtain ⟨rerun, hmade, ⟨made, hartifacts, hregistry⟩, ⟨failures, hfailures, hreported⟩⟩ := ih hrest
    rcases ApiProgress.add_eq_ok.1 hnext with ⟨a, r, ha, hr, rfl⟩ | ⟨f, hf, -, -, rfl⟩
    · -- the entity is made, and the other run makes it too
      have hhas : e.hasArtifact s = true := Entity.hasArtifact_iff.2 ⟨a, ha⟩
      have hskipped : (e :: entities).filter (!·.hasArtifact s) =
          entities.filter (!·.hasArtifact s) := by
        rw [List.filter_cons_of_neg (by simp [hhas])]
      refine ⟨fun failures => ?_, ?_, ⟨a :: made, ?_, ?_⟩, ⟨failures, ?_, hreported⟩⟩
      · rw [List.filter_cons_of_pos hhas]
        exact bind_eq_ok.2 ⟨_, ApiProgress.add_eq_ok.2 (.inl ⟨a, r, ha, hr, rfl⟩), rerun failures⟩
      · rw [List.filter_cons_of_pos hhas, hmade, List.append_assoc, List.singleton_append]
      · rw [List.filter_cons_of_pos hhas]
        exact .cons ha hartifacts
      · rw [hregistry, Registry.artifacts_of_insert hr, List.append_assoc, List.singleton_append]
      · rwa [hskipped]
    · -- the entity is left out, and the other run never comes to it
      have hhas : e.hasArtifact s = false := by
        rw [Entity.hasArtifact, hf]
        rfl
      have hkept : (e :: entities).filter (·.hasArtifact s) =
          entities.filter (·.hasArtifact s) := by
        rw [List.filter_cons_of_neg (by simp [hhas])]
      refine ⟨?_, ?_, ⟨made, ?_, hregistry⟩, ⟨f :: failures, ?_, ?_⟩⟩
      · rwa [hkept]
      · rwa [hkept]
      · rwa [hkept]
      · rw [List.filter_cons_of_pos (by simp [hhas])]
        exact .cons hf hfailures
      · rw [hreported, List.append_assoc, List.singleton_append]

/-- A run in which nothing has to be skipped. -/
theorem foldlM_skip_of_abort
    (h : entities.foldlM (ApiProgress.add (s.withPolicy .abort)) p = .ok q) :
    entities.foldlM (ApiProgress.add (s.withPolicy .skip)) p = .ok q := by
  refine foldlM_eq_ok_of_forall (fun p e q hadd => ?_) h
  rcases ApiProgress.add_eq_ok.1 hadd with hmade | ⟨f, -, -, hpolicy, -⟩
  · exact ApiProgress.add_eq_ok.2 (.inl hmade)
  · cases hpolicy

/-- The steps of generating from entities. -/
theorem api_eq_ok {policy : InvalidEntityPolicy} {g : Generation} :
    api (s.withPolicy policy) entities = .ok g ↔ s.validate = .ok () ∧
      ∃ q bootstrap r, entities.foldlM (ApiProgress.add (s.withPolicy policy)) {} = .ok q ∧
        bootstrapArtifact s q.made = .ok bootstrap ∧ q.registry.insert bootstrap = .ok r ∧
        g = ⟨r.artifacts, q.failures⟩ := by
  unfold api
  rw [bind_eq_ok]
  simp only [Settings.validate_withPolicy, bootstrapArtifact_withPolicy, bind_eq_ok,
    Stop.ofFailure_eq_ok]
  constructor
  · rintro ⟨_, hvalid, q, hq, bootstrap, hbootstrap, r, hr, hg⟩
    exact ⟨hvalid, q, bootstrap, r, hq, hbootstrap, hr, (Except.ok.inj hg).symm⟩
  · rintro ⟨hvalid, q, bootstrap, r, hq, hbootstrap, hr, rfl⟩
    exact ⟨(), hvalid, q, hq, bootstrap, hbootstrap, r, hr, rfl⟩

/-- **Skipping is aborting on the entities that can be generated.**  A run that skips makes what a run
that aborts makes of them alone: an artifact for each, in order, and a bootstrap that registers their
repositories in that order; and it reports the errors of the others, in order.  A run that aborts and
comes to an end makes what it makes when it skips. -/
theorem api_skip_eq_abort (s : Settings) (entities : List Entity) :
    (∀ g, api (s.withPolicy .skip) entities = .ok g →
      api (s.withPolicy .abort) (entities.filter (·.hasArtifact s)) = .ok ⟨g.artifacts, []⟩ ∧
      List.Forall₂ (fun e f => e.artifact s = .error (.failure f))
        (entities.filter (!·.hasArtifact s)) g.failures ∧
      ∃ made bootstrap rt, g.artifacts = made ++ [bootstrap] ∧
        List.Forall₂ (fun e a => e.artifact s = .ok a) (entities.filter (·.hasArtifact s)) made ∧
        s.runtime = .ok rt ∧
        Artifact.ofTokens bootstrapId
          (bootstrapCode rt (entities.filter (·.hasArtifact s))) = .ok bootstrap) ∧
    ∀ g, api (s.withPolicy .abort) entities = .ok g → api (s.withPolicy .skip) entities = .ok g := by
  constructor
  · intro g hg
    obtain ⟨hvalid, q, bootstrap, r, hq, hbootstrap, hr, rfl⟩ := api_eq_ok.1 hg
    obtain ⟨hrerun, hmade, ⟨made, hartifacts, hregistry⟩, ⟨failures, hfailures, hreported⟩⟩ :=
      skippingRun_of_foldlM hq
    have hmade : q.made = entities.filter (·.hasArtifact s) := hmade
    have hnames : ∀ e ∈ entities.filter (·.hasArtifact s), Naming.isIdentifier e.name = true := by
      intro e he
      obtain ⟨a, ha⟩ := Entity.hasArtifact_iff.1 (List.mem_filter.1 he).2
      exact Entity.isIdentifier_of_artifact ha
    obtain ⟨rt, hrt, hcode⟩ := (bootstrapArtifact_eq_ok hnames).1 (hmade ▸ hbootstrap)
    refine ⟨?_, ?_, made, bootstrap, rt, ?_, hartifacts, hrt, hcode⟩
    · exact api_eq_ok.2 ⟨hvalid, _, bootstrap, r, hrerun [], hbootstrap, hr, rfl⟩
    · rw [show q.failures = failures from hreported]
      exact hfailures
    · rw [Registry.artifacts_of_insert hr, hregistry]
      rfl
  · intro g hg
    obtain ⟨hvalid, q, bootstrap, r, hq, hrest⟩ := api_eq_ok.1 hg
    exact api_eq_ok.2 ⟨hvalid, q, bootstrap, r, foldlM_skip_of_abort hq, hrest⟩

/-- An entity without a key. -/
def keylessNote : Entity := ⟨"Note", [⟨"Text", "string", false, .both⟩]⟩

theorem api_skip_eq_abort_keyless :
    ∃ g, api (Settings.withPolicy {} .skip) [keylessNote] = .ok g ∧
      api (Settings.withPolicy {} .abort) [] = .ok ⟨g.artifacts, []⟩ ∧
      g.failures = [.noKeys "Note"] := by
  have hmade : (api (Settings.withPolicy {} .skip) [keylessNote]).toOption.isSome = true := by
    decide +kernel
  have hnone : [keylessNote].filter (·.hasArtifact {}) = [] := by decide +kernel
  have hother : [keylessNote].filter (!·.hasArtifact {}) = [keylessNote] := by decide +kernel
  have hkeyless : keylessNote.artifact {} = .error (.failure (.noKeys "Note")) := by decide +kernel
  cases hg : api (Settings.withPolicy {} .skip) [keylessNote] with
  | error stop => rw [hg] at hmade; cases hmade
  | ok g =>
    obtain ⟨habort, hfailures, -⟩ := (api_skip_eq_abort {} [keylessNote]).1 g hg
    rw [hnone] at habort
    rw [hother, List.forall₂_cons_left_iff] at hfailures
    obtain ⟨f, rest, hf, hrest, heq⟩ := hfailures
    rw [List.forall₂_nil_left_iff.1 hrest] at heq
    rw [hkeyless] at hf
    obtain rfl := Stop.failure.inj (Except.error.inj hf)
    exact ⟨g, rfl, habort, heq⟩

end Generation

end Scaffold
