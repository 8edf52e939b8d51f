import Scaffold.Proofs.Mapping.Registration
import Scaffold.Proofs.Skipping

/-!
# How far failures reach

Every function fails in few ways, which are told once for each of them (`FailsOnly`): what is wrong
with an entity or with a name reaches no further than the entity, what is wrong with a candidate no
further than the candidate, and what is wrong with the settings, with the code as a whole or with the
names of artifacts reaches the run.  A generator collects what reaches less far than the run and stops
for the rest (`Generation.failures_scoped`); only where entities are not to be skipped does it stop
for the first of them that has no artifact.
-/

namespace Scaffold

/-! ### Ways to fail -/

/-- Whether a computation fails only in ways that `P` holds of. -/
def FailsOnly {ε α : Type} (P : ε → Prop) (x : Except ε α) : Prop := ∀ e, x = .error e → P e

/-- Whether what stops generation, if it is a failure, is one that `P` holds of. -/
def Stop.Fails (P : Failure → Prop) : Stop → Prop
  | .failure f => P f
  | .breakdown _ => True

namespace FailsOnly

section General

variable {ε α β : Type} {P Q : ε → Prop}

theorem ok (a : α) : FailsOnly P (.ok a : Except ε α) := nofun

theorem error {e : ε} (h : P e) : FailsOnly P (.error e : Except ε α) := by
  rintro e' heq
  exact Except.error.inj heq ▸ h

theorem mono {x : Except ε α} (h : FailsOnly P x) (hPQ : ∀ e, P e → Q e) : FailsOnly Q x :=
  fun e he => hPQ e (h e he)

/-- What fails in two steps fails in one of them. -/
theorem bind {x : Except ε α} {f : α → Except ε β} (hx : FailsOnly P x)
    (hf : ∀ a, x = .ok a → FailsOnly P (f a)) : FailsOnly P (x >>= f) := by
  intro e he
  rcases bind_eq_error.1 he with he | ⟨a, ha, he⟩
  · exact hx e he
  · exact hf a ha e he

theorem map {x : Except ε α} (h : FailsOnly P x) (f : α → β) : FailsOnly P (x.map f) :=
  fun e he => h e (map_eq_error.1 he)

theorem mapM {f : α → Except ε β} {as : List α} (h : ∀ a ∈ as, FailsOnly P (f a)) :
    FailsOnly P (as.mapM f) := by
  intro e he
  obtain ⟨a, ha, he⟩ := exists_error_of_mapM he
  exact h a ha e he

theorem forIn {as : List α} {b : β} {f : α → β → Except ε (ForInStep β)}
    (h : ∀ a b, FailsOnly P (f a b)) : FailsOnly P (ForIn.forIn as b f) := by
  induction as generalizing b with
  | nil => exact ok b
  | cons a as ih =>
    rw [List.forIn_cons]
    refine (h a b).bind fun r _ => ?_
    cases r with
    | done b => exact ok b
    | yield b => exact ih

end General

variable {α : Type} {P : Failure → Prop}

theorem ofFailure {x : Except Failure α} (h : FailsOnly P x) :
    FailsOnly (Stop.Fails P) (Stop.ofFailure x) := by
  cases x with
  | ok a => exact ok a
  | error f => exact error (h f rfl)

/-- A breakdown is no failure, so only failures are told apart. -/
theorem imp {Q : Failure → Prop} {x : Except Stop α} (h : FailsOnly (Stop.Fails P) x)
    (hPQ : ∀ f, P f → Q f) : FailsOnly (Stop.Fails Q) x := by
  refine h.mono fun stop hstop => ?_
  cases stop with
  | failure f => exact hPQ f hstop
  | breakdown b => exact hstop

theorem ofBreakdown (x : Except Breakdown α) : FailsOnly (Stop.Fails P) (Stop.ofBreakdown x) := by
  cases x with
  | ok a => exact ok a
  | error b => exact error trivial

end FailsOnly

/-! ### Names, types and settings -/

theorem Naming.failsOnly_ident (name context : String) :
    FailsOnly (fun f => f.scope = .entity) (ident name context) := by
  unfold ident
  split_ifs
  · exact .error rfl
  · exact .ok _
  · exact .error rfl
  · exact .ok _

theorem failsOnly_namedType (text context : String) :
    FailsOnly (fun f => f.scope = .entity) (namedType text context) := by
  unfold namedType
  split
  · exact .ok _
  · exact .error rfl

namespace Settings

variable {s : Settings}

/-- Whether a failure is one of the settings. -/
def IsFault (f : Failure) : Prop := ∃ fault, f = .settings fault

theorem IsFault.scope_eq {f : Failure} (h : IsFault f) : f.scope = .run := by
  obtain ⟨fault, rfl⟩ := h
  rfl

theorem failsOnly_runtime (s : Settings) : FailsOnly IsFault s.runtime := by
  unfold runtime
  split
  · exact .ok _
  · exact .error ⟨_, rfl⟩

theorem failsOnly_derivePaths (s : Settings) : FailsOnly IsFault s.api.derivePaths := by
  unfold ApiSettings.derivePaths
  refine .mapM fun text _ => ?_
  split
  · exact .ok _
  · exact .error ⟨_, rfl⟩

theorem failsOnly_require (holds : Bool) (fault : SettingsFault) :
    FailsOnly IsFault (require holds fault) := by
  unfold require
  split_ifs
  · exact .ok _
  · exact .error ⟨_, rfl⟩

theorem failsOnly_validate (s : Settings) : FailsOnly IsFault s.validate := by
  unfold validate
  refine s.failsOnly_runtime.bind fun rt _ => ?_
  refine s.failsOnly_derivePaths.bind fun derives _ => ?_
  refine (failsOnly_require _ _).bind fun _ _ => ?_
  have haliases (e : String × String) (b : PUnit) : FailsOnly IsFault (do
      require (Syntax.readType e.2).isSome (.aliasNotType e.1 e.2)
      pure (ForInStep.yield b)) :=
    (failsOnly_require _ _).bind fun _ _ => .ok _
  refine (FailsOnly.forIn haliases).bind fun _ _ => ?_
  refine (failsOnly_require _ _).bind fun _ _ => ?_
  refine (failsOnly_require _ _).bind fun _ _ => ?_
  have hreceivers (receiver : String) (b : PUnit) : FailsOnly IsFault (do
      require (Naming.isIdentifier receiver) (.receiverNotIdentifier receiver)
      pure (ForInStep.yield b)) :=
    (failsOnly_require _ _).bind fun _ _ => .ok _
  refine (FailsOnly.forIn hreceivers).bind fun _ _ => ?_
  exact failsOnly_require _ _

/-- Settings that have been checked have a runtime and paths to derive. -/
theorem exists_of_validate (h : s.validate = .ok ()) :
    (∃ rt, s.runtime = .ok rt) ∧ ∃ derives, s.api.derivePaths = .ok derives := by
  obtain ⟨rt, hrt, h⟩ := bind_eq_ok.1 h
  obtain ⟨derives, hderives, -⟩ := bind_eq_ok.1 h
  exact ⟨⟨rt, hrt⟩, derives, hderives⟩

end Settings

/-! ### Entities -/

namespace Entity

theorem failsOnly_validateMembers (entity : String) (seen : List String) (ms : List EntityMember) :
    FailsOnly (fun f => f.scope = .entity) (validateMembers entity seen ms) := by
  induction ms generalizing seen with
  | nil => exact .ok _
  | cons m ms ih =>
    unfold validateMembers
    split_ifs
    · exact .error rfl
    · exact .error rfl
    · exact ih _

theorem failsOnly_validate (e : Entity) : FailsOnly (fun f => f.scope = .entity) e.validate := by
  unfold validate
  split_ifs
  · exact .error rfl
  · exact .error rfl
  · exact failsOnly_validateMembers _ _ _

end Entity

namespace EntityPlan

theorem failsOnly_fieldsOf (s : Settings) (entity : String) (seen : List String)
    (ms : List EntityMember) :
    FailsOnly (fun f => f.scope = .entity) (fieldsOf s entity seen ms) := by
  induction ms generalizing seen with
  | nil => exact .ok _
  | cons m ms ih =>
    unfold fieldsOf
    dsimp only
    split_ifs
    · exact .error rfl
    · refine (Naming.failsOnly_ident _ _).bind fun ident _ => ?_
      refine (failsOnly_namedType _ _).bind fun type _ => ?_
      exact (ih _).bind fun rest _ => .ok _

/-- An entity has a plan, or something is wrong with it. -/
theorem failsOnly_of (s : Settings) (e : Entity) :
    FailsOnly (fun f => f.scope = .entity) (of s e) := by
  unfold of
  refine e.failsOnly_validate.bind fun _ _ => ?_
  refine (failsOnly_fieldsOf _ _ _ _).bind fun fields _ => ?_
  split_ifs
  · exact .ok _
  · exact .error rfl

end EntityPlan

/-! ### Artifacts -/

/-- The tokens of an entity's artifact. -/
def Entity.code (s : Settings) (e : Entity) : Except Stop (List Syntax.Token) := do
  let plan ← Stop.ofFailure (EntityPlan.of s e)
  let rt ← Stop.ofFailure s.runtime
  let derives ← Stop.ofFailure s.api.derivePaths
  Stop.ofBreakdown (plan.tokens s rt derives)

theorem Entity.artifact_eq (s : Settings) (e : Entity) :
    e.artifact s = e.code s >>= Artifact.ofTokens e.artifactId := by
  unfold artifact code
  simp only [bind_assoc]

/-- Tokens make an artifact, or they form no file. -/
theorem Artifact.failsOnly_ofTokens (id : String) (tokens : List Syntax.Token) :
    FailsOnly (Stop.Fails fun f => f = .malformed id) (ofTokens id tokens) := by
  unfold ofTokens
  split
  · exact (FailsOnly.ofBreakdown _).bind fun body _ => .ok _
  · exact .error rfl

theorem Registry.failsOnly_insert (r : Registry) (a : Artifact) :
    FailsOnly (fun f => f = .duplicateArtifact a.id) (r.insert a) := by
  unfold insert
  split_ifs
  · exact .error rfl
  · exact .ok _

section Settings

variable {s : Settings} (hvalid : s.validate = .ok ())

include hvalid

/-- An entity has code, or something is wrong with it. -/
theorem Entity.failsOnly_code (e : Entity) :
    FailsOnly (Stop.Fails fun f => f.scope = .entity) (e.code s) := by
  obtain ⟨⟨rt, hrt⟩, derives, hderives⟩ := Settings.exists_of_validate hvalid
  unfold code
  rw [hrt, hderives]
  refine (EntityPlan.failsOnly_of s e).ofFailure.bind fun plan _ => ?_
  exact (FailsOnly.ok _).bind fun rt _ => (FailsOnly.ok _).bind fun derives _ => .ofBreakdown _

/-- An entity has an artifact, or something is wrong with it, or its code is no file. -/
theorem Entity.failsOnly_artifact (e : Entity) :
    FailsOnly (Stop.Fails fun f => f.scope = .entity ∨ f = .malformed e.artifactId)
      (e.artifact s) := by
  rw [artifact_eq]
  refine ((e.failsOnly_code hvalid).imp fun _ => .inl).bind fun tokens _ => ?_
  exact (Artifact.failsOnly_ofTokens _ _).imp fun _ => .inr

/-- There is a bootstrap, or its code is no file. -/
theorem failsOnly_bootstrapArtifact (entities : List Entity) :
    FailsOnly (Stop.Fails fun f => f = .malformed bootstrapId)
      (bootstrapArtifact s entities) := by
  obtain ⟨⟨rt, hrt⟩, -⟩ := Settings.exists_of_validate hvalid
  unfold bootstrapArtifact
  rw [hrt]
  refine (FailsOnly.ok _).bind fun rt _ => ?_
  refine (FailsOnly.ofBreakdown _).bind fun repositories _ => ?_
  exact Artifact.failsOnly_ofTokens _ _

end Settings

/-- A handler has an artifact, or something is wrong with its names or types, or its code is no
file. -/
theorem Handler.failsOnly_artifact (h : Handler) :
    FailsOnly (Stop.Fails fun f => f.scope = .entity ∨ f = .malformed h.artifactId) h.artifact := by
  have hmember (m : HandlerMember) : FailsOnly (fun f => f.scope = .entity) (h.plannedMember m) :=
    (Naming.failsOnly_ident _ _).bind fun _ _ => (failsOnly_namedType _ _).bind fun _ _ => .ok _
  unfold artifact
  refine (((failsOnly_namedType _ _).mono fun _ => .inl).ofFailure).bind fun self _ => ?_
  refine (FailsOnly.ofBreakdown _).bind fun base _ => ?_
  refine (((FailsOnly.mapM fun m _ => hmember m).mono fun _ => .inl).ofFailure).bind fun ms _ => ?_
  refine (FailsOnly.ofBreakdown _).bind fun tokens _ => ?_
  exact (Artifact.failsOnly_ofTokens _ _).imp fun _ => .inr

/-! ### Mappings -/

/-- A mapping has a plan, or something is wrong with its names or types. -/
theorem PlannedMapping.failsOnly_of (m : Mapping) :
    FailsOnly (fun f => f.scope = .entity) (of m) := by
  have hpair (context : String) (pair : MemberPair) :
      FailsOnly (fun f => f.scope = .entity) (Assignment.of context pair) :=
    (Naming.failsOnly_ident _ _).bind fun _ _ => (Naming.failsOnly_ident _ _).bind fun _ _ => .ok _
  unfold of
  refine (failsOnly_namedType _ _).bind fun source _ => ?_
  refine (failsOnly_namedType _ _).bind fun dest _ => ?_
  refine (Naming.failsOnly_ident _ _).bind fun _ _ => ?_
  refine (Naming.failsOnly_ident _ _).bind fun module_ _ => ?_
  exact (FailsOnly.mapM fun pair _ => hpair _ pair).bind fun _ _ => .ok _

theorem MappingTarget.failsOnly_place (p : PlannedMapping) (ts : List MappingTarget) :
    FailsOnly (fun f => f.scope = .candidate) (place p ts) := by
  rcases place_cases p ts with ⟨_, _, _, -, -, -, hok⟩ | ⟨t, -, -, -, herror⟩ | ⟨-, hok⟩
  · exact hok ▸ .ok _
  · exact herror ▸ .error rfl
  · exact hok ▸ .ok _

/-- A planned mapping is placed, or clashes with others. -/
theorem MappingSpace.failsOnly_place (p : PlannedMapping) (ss : List MappingSpace) :
    FailsOnly (fun f => f.scope = .candidate) (place p ss) := by
  rcases place_cases p ss with ⟨_, s, _, -, -, hplace⟩ | ⟨-, ⟨s, -, -, herror⟩ | ⟨-, hok⟩⟩
  · exact hplace ▸ (MappingTarget.failsOnly_place p s.targets).map _
  · exact herror ▸ .error rfl
  · exact hok ▸ .ok _

/-- A plan collects no failure of the run. -/
theorem MappingPlan.scope_of_mem_failures {ms : List Mapping} {f : Failure}
    (hf : f ∈ (ofMappings ms).failures) : f.scope = .entity ∨ f.scope = .candidate := by
  have hadd (plan : MappingPlan) (m : Mapping)
      (h : ∀ f ∈ plan.failures, f.scope = .entity ∨ f.scope = .candidate) :
      ∀ f ∈ (plan.add m).failures, f.scope = .entity ∨ f.scope = .candidate := by
    cases hrefusal : plan.refusal? m with
    | none =>
      obtain ⟨_, _, -, -, hadd⟩ := exists_of_accepted hrefusal
      rw [hadd]
      exact h
    | some f =>
      rw [add_of_refused hrefusal]
      refine List.forall_mem_append.2 ⟨h, List.forall_mem_singleton.2 ?_⟩
      rcases bind_eq_error.1 (refusal?_eq_some.1 hrefusal) with hplan | ⟨p, -, hplace⟩
      · exact .inl (PlannedMapping.failsOnly_of m f hplan)
      · exact .inr (MappingSpace.failsOnly_place p _ f hplace)
  have hall : ∀ f ∈ (ofMappings ms).failures, f.scope = .entity ∨ f.scope = .candidate :=
    List.foldlRecOn ms add (motive := fun plan => ∀ f ∈ plan.failures,
      f.scope = .entity ∨ f.scope = .candidate) (List.forall_mem_nil _) fun plan h m _ => hadd plan m h
  exact hall f hf

/-- An artifact of mappings is there, or their code is no file. -/
theorem MappingPlan.failsOnly_artifact (plan : MappingPlan) :
    FailsOnly (Stop.Fails fun f => f = .malformed mappingsId) plan.artifact :=
  (FailsOnly.ofBreakdown _).bind fun _ _ => Artifact.failsOnly_ofTokens _ _

/-! ### Candidates -/

section Candidates

variable {α κ : Type} [BEq κ] {host : Host} {lookup : Lookup} {c : Candidate} {f : Failure}

/-- Every failure that is collected is found for a candidate. -/
theorem Host.exists_of_mem_failures {key : α → κ}
    {find : Lookup → Candidate → Except Breakdown (Finding α)} {candidates : List Candidate}
    {findings : List (Finding α)} (h : host.findings find candidates = .ok findings)
    (hf : f ∈ (Resolved.collect key findings).failures) :
    ∃ unit c, find (host.lookup unit) c = .ok (.failure f) := by
  obtain ⟨finding, hmem, hfinding⟩ := List.mem_filterMap.1 hf
  obtain ⟨c, -, unit, -, hfind⟩ := exists_partner (forall₂_findings h) hmem
  cases finding with
  | failure f' =>
    obtain rfl := Option.some.inj hfinding
    exact ⟨unit, c, hfind⟩
  | _ => cases hfinding

theorem Lookup.failsOnly_namedType (lookup : Lookup) (origin : String) (ref : TypeRef) :
    FailsOnly (fun f => f.scope = .candidate) (lookup.namedType origin ref) := by
  unfold namedType
  split
  · split_ifs
    · exact .error rfl
    · exact .ok _
  · exact .error rfl

theorem Lookup.failsOnly_mappedTypes (lookup : Lookup) (origin : String) (c : Call) :
    FailsOnly (fun f => f.scope = .candidate) (lookup.mappedTypes origin c) := by
  unfold mappedTypes
  split_ifs
  · exact .error rfl
  · split
    · refine (lookup.failsOnly_namedType _ _).bind fun source _ => ?_
      exact (lookup.failsOnly_namedType _ _).bind fun dest _ => .ok _
    · exact .error rfl

theorem Host.scope_of_findHandler (h : host.findHandler lookup c = .ok (.failure f)) :
    f.scope = .candidate := by
  unfold findHandler at h
  split at h
  · cases h
  · split at h
    · obtain rfl := Finding.failure.inj (Except.ok.inj h)
      rfl
    · obtain ⟨members, -, h⟩ := bind_eq_ok.1 h
      split at h <;> cases h

theorem Host.scope_of_findMapping (h : host.findMapping lookup c = .ok (.failure f)) :
    f.scope = .candidate := by
  unfold findMapping at h
  split at h
  · cases h
  · split at h
    · rename_i htypes
      obtain rfl := Finding.failure.inj (Except.ok.inj h)
      exact lookup.failsOnly_mappedTypes _ _ _ htypes
    · obtain ⟨sourceMembers, -, h⟩ := bind_eq_ok.1 h
      obtain ⟨destMembers, -, h⟩ := bind_eq_ok.1 h
      cases h

end Candidates

/-! ### Generators -/

namespace Generation

variable {s : Settings} {entities : List Entity} {host : Host} {corpus : Corpus} {g : Generation}
  {f : Failure} {stop : Stop}

/-- **What stops a run at an entity:** its artifact has a name that is taken, or it has none and
cannot be skipped. -/
theorem ApiProgress.add_eq_error {p : ApiProgress} {e : Entity} : p.add s e = .error stop ↔
    (∃ a, e.artifact s = .ok a ∧ Stop.ofFailure (p.registry.insert a) = .error stop) ∨
    e.artifact s = .error stop ∧
      ∀ f, stop = .failure f → f.scope = .entity → s.api.onInvalidEntity = .abort := by
  unfold ApiProgress.add
  cases e.artifact s with
  | ok a =>
    rw [bind_eq_error]
    constructor
    · rintro (h | ⟨r, -, h⟩)
      · exact .inl ⟨a, rfl, h⟩
      · cases h
    · rintro (⟨a', ha, h⟩ | ⟨h, -⟩)
      · obtain rfl := Except.ok.inj ha
        exact .inl h
      · cases h
  | error cause =>
    have hnone : ¬∃ a, (Except.error cause : Except Stop Artifact) = .ok a ∧
        Stop.ofFailure (p.registry.insert a) = .error stop := by
      rintro ⟨a, ha, -⟩
      cases ha
    rw [or_iff_right hnone]
    cases cause with
    | breakdown b =>
      constructor
      · intro h
        obtain rfl := Except.error.inj h
        exact ⟨rfl, nofun⟩
      · exact fun h => Except.error.inj h.1 ▸ rfl
    | failure f =>
      dsimp only
      -- it is passed over exactly where it is the entity's own and entities are skipped
      split_ifs with hskip
      · refine iff_of_false (fun h => by cases h) ?_
        rintro ⟨h, habort⟩
        obtain rfl := Except.error.inj h
        exact absurd ((habort f rfl hskip.1).symm.trans hskip.2) (by decide)
      · constructor
        · intro h
          obtain rfl := Except.error.inj h
          refine ⟨rfl, fun f' hf hscope => ?_⟩
          obtain rfl := Stop.failure.inj hf
          cases hpolicy : s.api.onInvalidEntity with
          | abort => rfl
          | skip => exact absurd ⟨hscope, hpolicy⟩ hskip
        · exact fun h => Except.error.inj h.1 ▸ rfl

/-- The steps at which generating from entities stops. -/
theorem api_eq_error (hvalid : s.validate = .ok ()) : api s entities = .error stop ↔
    (∃ before e after p, entities = before ++ e :: after ∧
      before.foldlM (ApiProgress.add s) {} = .ok p ∧ p.add s e = .error stop) ∨
    ∃ p, entities.foldlM (ApiProgress.add s) {} = .ok p ∧
      (bootstrapArtifact s p.made = .error stop ∨ ∃ a, bootstrapArtifact s p.made = .ok a ∧
        Stop.ofFailure (p.registry.insert a) = .error stop) := by
  unfold api
  rw [hvalid]
  refine (bind_eq_error (x := entities.foldlM (ApiProgress.add s) {})).trans ?_
  refine or_congr foldlM_eq_error (exists_congr fun p => and_congr_right fun _ => ?_)
  rw [bind_eq_error]
  refine or_congr_right (exists_congr fun a => and_congr_right fun _ => ?_)
  rw [bind_eq_error]
  refine or_iff_left ?_
  rintro ⟨r, -, h⟩
  cases h

/-- Settings that are not valid stop every generator. -/
theorem exists_error_of_validate_ne (hvalid : s.validate ≠ .ok ()) :
    ∃ f, s.validate = .error f ∧ f.scope = .run := by
  cases h : s.validate with
  | ok u => exact absurd h hvalid
  | error f => exact ⟨f, rfl, (s.failsOnly_validate f h).scope_eq⟩

/-- Where entities are not skipped, every one that a run gets past has an artifact. -/
theorem hasArtifact_of_abort {p q : ApiProgress} (habort : s.api.onInvalidEntity = .abort)
    (h : entities.foldlM (ApiProgress.add s) p = .ok q) :
    ∀ e ∈ entities, e.hasArtifact s = true := by
  refine forall_mem_of_foldlM (fun p e q hadd => ?_) h
  -- any settings are themselves with the policy that they have
  have hadd : p.add (s.withPolicy s.api.onInvalidEntity) e = .ok q := hadd
  rcases ApiProgress.add_eq_ok.1 hadd with ⟨a, -, ha, -⟩ | ⟨f, -, -, hskip, -⟩
  · exact Entity.hasArtifact_iff.2 ⟨a, ha⟩
  · rw [habort] at hskip
    cases hskip

/-- **What a failed generation from entities reports:** two artifacts of one name, code that is no
file, or, unless entities are skipped, what is wrong with the first that has no artifact. -/
theorem api_eq_failure (hvalid : s.validate = .ok ()) (h : api s entities = .error (.failure f)) :
    (∃ id, f = .duplicateArtifact id) ∨ (∃ id, f = .malformed id) ∨
      f.scope = .entity ∧ s.api.onInvalidEntity = .abort ∧ ∃ before e after,
        entities = before ++ e :: after ∧ (∀ d ∈ before, d.hasArtifact s = true) ∧
        e.artifact s = .error (.failure f) := by
  have hinsert {r : Registry} {a : Artifact}
      (h : Stop.ofFailure (r.insert a) = .error (.failure f)) : ∃ id, f = .duplicateArtifact id :=
    ⟨a.id, r.failsOnly_insert a f (Stop.ofFailure_eq_failure.1 h)⟩
  rcases (api_eq_error hvalid).1 h with
    ⟨before, e, after, p, rfl, hbefore, hadd⟩ | ⟨p, -, hbootstrap | ⟨a, -, h⟩⟩
  · rcases ApiProgress.add_eq_error.1 hadd with ⟨a, -, h⟩ | ⟨hartifact, habort⟩
    · exact .inl (hinsert h)
    · -- what stops the run at an entity is the entity's own, or its code is no file
      rcases Entity.failsOnly_artifact hvalid e _ hartifact with hscope | hmalformed
      · have habort := habort f rfl hscope
        exact .inr (.inr ⟨hscope, habort, before, e, after, rfl, hasArtifact_of_abort habort hbefore,
          hartifact⟩)
      · exact .inr (.inl ⟨_, hmalformed⟩)
  · exact .inr (.inl ⟨_, failsOnly_bootstrapArtifact hvalid _ _ hbootstrap⟩)
  · exact .inl (hinsert h)

/-- Generating from entities collects what is wrong with entities. -/
theorem scope_of_api (h : api s entities = .ok g) : ∀ f ∈ g.failures, f.scope = .entity := by
  have h : api (s.withPolicy s.api.onInvalidEntity) entities = .ok g := h
  obtain ⟨-, q, -, -, hq, -, -, rfl⟩ := api_eq_ok.1 h
  refine foldlM_keeps (I := fun p => ∀ f ∈ p.failures, f.scope = .entity) ?_
    (List.forall_mem_nil _) hq
  intro p e p' hp hadd
  rcases ApiProgress.add_eq_ok.1 hadd with ⟨_, _, -, -, rfl⟩ | ⟨f, -, hscope, -, rfl⟩
  · exact hp
  · exact List.forall_mem_append.2 ⟨hp, List.forall_mem_singleton.2 hscope⟩

/-- Generating mappings collects failures of candidates, and what is wrong with the names and types
of mappings. -/
theorem scope_of_mappings (h : mappings s host corpus = .ok g) :
    ∀ f ∈ g.failures, f.scope = .entity ∨ f.scope = .candidate := by
  obtain ⟨-, resolved, made, hresolved, hmade, rfl⟩ := mappings_eq_ok.1 h
  obtain ⟨findings, hfindings, heq⟩ := bind_eq_ok.1 hresolved
  obtain ⟨a, -, heq'⟩ := bind_eq_ok.1 hmade
  obtain rfl := Except.ok.inj heq
  obtain rfl := Except.ok.inj heq'
  refine List.forall_mem_append.2 ⟨fun f hf => ?_, fun f hf => MappingPlan.scope_of_mem_failures hf⟩
  obtain ⟨unit, c, hfind⟩ := Host.exists_of_mem_failures hfindings hf
  exact .inr (Host.scope_of_findMapping hfind)

/-- What a handler stops reaches the run. -/
theorem HandlerProgress.failsOnly_add (p : HandlerProgress) (h : Handler) :
    FailsOnly (Stop.Fails fun f => f.scope = .run) (p.add h) := by
  unfold add
  split
  · refine (((p.registry.failsOnly_insert _).mono ?_).ofFailure).bind fun _ _ => .ok _
    rintro f rfl
    rfl
  · split_ifs with hscope
    · exact .ok _
    · exact .error (not_not.1 hscope)
  · rename_i stop hfailure hartifact
    cases stop with
    | failure f => exact absurd rfl (hfailure f)
    | breakdown b => exact .error trivial

/-- Generating handlers collects failures of candidates, and what is wrong with the names and types
of handlers. -/
theorem scope_of_handlers (h : handlers s host corpus = .ok g) :
    ∀ f ∈ g.failures, f.scope = .entity ∨ f.scope = .candidate := by
  obtain ⟨-, resolved, q, hresolved, hq, rfl⟩ := handlers_eq_ok.1 h
  obtain ⟨findings, hfindings, heq⟩ := bind_eq_ok.1 hresolved
  obtain rfl := Except.ok.inj heq
  refine foldlM_keeps (I := fun p => ∀ f ∈ p.failures, f.scope = .entity ∨ f.scope = .candidate)
    ?_ ?_ hq
  · intro p handler p' hp hadd
    rcases HandlerProgress.add_eq_ok.1 hadd with ⟨_, _, -, -, rfl⟩ | ⟨f, -, hscope, rfl⟩
    · exact hp
    · refine List.forall_mem_append.2 ⟨hp, List.forall_mem_singleton.2 ?_⟩
      show f.scope = .entity ∨ f.scope = .candidate
      cases hreach : f.scope with
      | entity => exact .inl rfl
      | candidate => exact .inr rfl
      | run => exact absurd hreach hscope
  · intro f hf
    change f ∈ (Resolved.collect Handler.typePath findings).failures at hf
    obtain ⟨unit, c, hfind⟩ := Host.exists_of_mem_failures hfindings hf
    exact .inr (Host.scope_of_findHandler hfind)

/-- What stops the generation of mappings reaches the run. -/
theorem failsOnly_mappings (s : Settings) (host : Host) (corpus : Corpus) :
    FailsOnly (Stop.Fails fun f => f.scope = .run) (mappings s host corpus) := by
  have hvalidate := (s.failsOnly_validate.mono fun _ => Settings.IsFault.scope_eq).ofFailure
  unfold mappings ofMappings
  refine hvalidate.bind fun _ _ => ?_
  refine (FailsOnly.ofBreakdown _).bind fun resolved _ => ?_
  refine FailsOnly.bind ?_ fun made _ => .ok _
  refine FailsOnly.bind ?_ fun a _ => .ok _
  exact (MappingPlan.failsOnly_artifact _).imp fun f h => h ▸ rfl

/-- What stops the generation of handlers reaches the run. -/
theorem failsOnly_handlers (s : Settings) (host : Host) (corpus : Corpus) :
    FailsOnly (Stop.Fails fun f => f.scope = .run) (handlers s host corpus) := by
  have hvalidate := (s.failsOnly_validate.mono fun _ => Settings.IsFault.scope_eq).ofFailure
  unfold handlers
  refine hvalidate.bind fun _ _ => ?_
  refine (FailsOnly.ofBreakdown _).bind fun resolved _ => ?_
  refine FailsOnly.bind ?_ fun p _ => .ok _
  intro stop h
  obtain ⟨_, handler, _, p, -, -, hadd⟩ := foldlM_eq_error.1 h
  exact p.failsOnly_add handler stop hadd

/-- **Failures reach as far as they are told.**  What a generator collects reaches an entity or a
candidate.  What stops the generation of mappings or of handlers reaches the run, and so does what
stops the generation from entities where entities are skipped; where they are not, it may also be
the failure of the first entity that has no artifact. -/
theorem failures_scoped (s : Settings) (entities : List Entity) (host : Host) (corpus : Corpus) :
    (∀ g, api s entities = .ok g ∨ mappings s host corpus = .ok g ∨ handlers s host corpus = .ok g →
      ∀ f ∈ g.failures, f.scope = .entity ∨ f.scope = .candidate) ∧
    (∀ f, mappings s host corpus = .error (.failure f) ∨
      handlers s host corpus = .error (.failure f) → f.scope = .run) ∧
    ∀ f, api s entities = .error (.failure f) →
      (s.api.onInvalidEntity = .skip → f.scope = .run) ∧
      (s.api.onInvalidEntity = .abort → f.scope = .run ∨ ∃ before e after,
        entities = before ++ e :: after ∧ (∀ d ∈ before, d.hasArtifact s = true) ∧
        e.artifact s = .error (.failure f)) := by
  refine ⟨fun g hg f hf => ?_, fun f h => ?_, fun f h => ?_⟩
  -- what is collected
  · rcases hg with hapi | hmappings | hhandlers
    · exact .inl (scope_of_api hapi f hf)
    · exact scope_of_mappings hmappings f hf
    · exact scope_of_handlers hhandlers f hf
  -- what stops mappings and handlers
  · rcases h with hmappings | hhandlers
    · exact failsOnly_mappings s host corpus _ hmappings
    · exact failsOnly_handlers s host corpus _ hhandlers
  -- what stops entities: their settings are checked before any of them
  · by_cases hvalid : s.validate = .ok ()
    · rcases api_eq_failure hvalid h with ⟨id, rfl⟩ | ⟨id, rfl⟩ | ⟨-, habort, hfirst⟩
      · exact ⟨fun _ => rfl, fun _ => .inl rfl⟩
      · exact ⟨fun _ => rfl, fun _ => .inl rfl⟩
      · refine ⟨fun hskip => ?_, fun _ => .inr hfirst⟩
        rw [habort] at hskip
        cases hskip
    · have hscope : f.scope = .run := by
        obtain ⟨fault, hfault, hrun⟩ := exists_error_of_validate_ne hvalid
        have hstop : api s entities = .error (.failure fault) := by
          unfold api
          rw [hfault]
          rfl
        obtain rfl := Stop.failure.inj (Except.error.inj (hstop.symm.trans h))
        exact hrun
      exact ⟨fun _ => hscope, fun _ => .inl hscope⟩

/-- An entity without a key stops a run that skips nothing, and a call of a type that is not known
is left out. -/
theorem failures_scoped_keyless :
    (∃ f, api (Settings.withPolicy {} .abort) [keylessNote] = .error (.failure f) ∧
      (f.scope = .run ∨ ∃ e ∈ [keylessNote], e.artifact (Settings.withPolicy {} .abort) =
        .error (.failure f))) ∧
    ∃ g, mappings {} shopHost shopCorpus = .ok g ∧ g.failures.length = 1 ∧
      ∀ f ∈ g.failures, f.scope = .entity ∨ f.scope = .candidate := by
  constructor
  · have hnone : (api (Settings.withPolicy {} .abort) [keylessNote]).map (·.artifacts) =
        .error (.failure (.noKeys "Note")) := by decide +kernel
    have hstop := map_eq_error.1 hnone
    obtain ⟨-, -, hentities⟩ :=
      failures_scoped (Settings.withPolicy {} .abort) [keylessNote] shopHost shopCorpus
    refine ⟨_, hstop, ?_⟩
    rcases (hentities _ hstop).2 rfl with hrun | ⟨before, e, after, heq, -, hartifact⟩
    · exact .inl hrun
    · exact .inr ⟨e, by simp [heq], hartifact⟩
  · have hlength : (mappings {} shopHost shopCorpus).map (·.failures.length) = .ok 1 := by
      decide +kernel
    obtain ⟨g, hg, hone⟩ := map_eq_ok.1 hlength
    obtain ⟨hcollected, -⟩ := failures_scoped {} [] shopHost shopCorpus
    exact ⟨g, hg, hone, hcollected g (.inr (.inl hg))⟩

end Generation

end Scaffold
