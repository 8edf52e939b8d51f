import Scaffold.Proofs.Failure

/-!
# Settings that cannot be rendered

Checking the settings reads each of them alone, while the templates put them in the middle of other
code.  Where that code is no file, generating from entities fails although the settings have been
accepted; `Generation.api_malformed_iff` says that this is the only way, beside two artifacts of one
name and what is wrong with an entity.  There are such settings: a path with generic arguments is
accepted for the runtime, but it is no path in an expression
(`Generation.api_malformed_generic_runtime`).
-/

namespace Scaffold

open Syntax

/-! ### Code that forms no file -/

theorem Artifact.ofTokens_eq_malformed {id id' : String} {tokens : List Token} :
    ofTokens id tokens = .error (.failure (.malformed id')) ↔
      readFileTokens tokens = none ∧ id' = id := by
  unfold ofTokens
  cases readFileTokens tokens with
  | none => simp [eq_comm]
  | some file =>
    refine iff_of_false (fun h => ?_) (fun h => by cases h.1)
    rcases bind_eq_error.1 h with h | ⟨body, -, h⟩
    · unfold Stop.ofBreakdown at h
      split at h <;> cases h
    · cases h

section Settings

variable {s : Settings} (hvalid : s.validate = .ok ()) {id : String}

include hvalid

/-- The artifact of an entity is malformed where its code forms no file. -/
theorem Entity.artifact_eq_malformed {e : Entity} :
    e.artifact s = .error (.failure (.malformed id)) ↔
      ∃ tokens, e.code s = .ok tokens ∧ readFileTokens tokens = none ∧ id = e.artifactId := by
  rw [artifact_eq, bind_eq_error]
  simp only [Artifact.ofTokens_eq_malformed]
  refine or_iff_right fun h => ?_
  have hscope : (Failure.malformed id).scope = .entity := e.failsOnly_code hvalid _ h
  cases hscope

/-- The bootstrap is malformed where its code forms no file. -/
theorem bootstrapArtifact_eq_malformed {entities : List Entity}
    (hnames : ∀ e ∈ entities, Naming.isIdentifier e.name = true) :
    bootstrapArtifact s entities = .error (.failure (.malformed id)) ↔
      ∃ rt, s.runtime = .ok rt ∧ readFileTokens (bootstrapCode rt entities) = none ∧
        id = bootstrapId := by
  obtain ⟨⟨rt, hrt⟩, -⟩ := Settings.exists_of_validate hvalid
  rw [bootstrapArtifact_eq hnames, hrt, Stop.ofFailure, ok_bind, Artifact.ofTokens_eq_malformed]
  constructor
  · exact fun h => ⟨rt, rfl, h⟩
  · rintro ⟨rt', heq, h⟩
    obtain rfl := Except.ok.inj heq
    exact h

end Settings

namespace Generation

variable {s : Settings} {entities : List Entity}

/-- The entities that a run has made have identifiers for names. -/
theorem isIdentifier_of_foldlM {p : ApiProgress}
    (h : entities.foldlM (ApiProgress.add s) {} = .ok p) :
    ∀ e ∈ p.made, Naming.isIdentifier e.name = true := by
  refine foldlM_keeps (I := fun p => ∀ e ∈ p.made, Naming.isIdentifier e.name = true) ?_
    (List.forall_mem_nil _) h
  intro p e q hp hadd
  have hadd : p.add (s.withPolicy s.api.onInvalidEntity) e = .ok q := hadd
  rcases ApiProgress.add_eq_ok.1 hadd with ⟨a, r, ha, -, rfl⟩ | ⟨f, -, -, -, rfl⟩
  · exact List.forall_mem_append.2
      ⟨hp, List.forall_mem_singleton.2 (Entity.isIdentifier_of_artifact ha)⟩
  · exact hp

/-- Registering never finds code malformed. -/
theorem ofFailure_insert_ne_malformed (r : Registry) (a : Artifact) (id : String) :
    Stop.ofFailure (r.insert a) ≠ .error (.failure (.malformed id)) := by
  intro h
  cases r.failsOnly_insert a _ (Stop.ofFailure_eq_failure.1 h)

/-- **What accepted settings can fail for.**  Generating from entities fails because two artifacts
have one name, because something is wrong with an entity that must not be skipped, or because code
is malformed; and the latter exactly where the code of an entity that is reached, or that of the
bootstrap, forms no file. -/
theorem api_malformed_iff (hvalid : s.validate = .ok ()) :
    (∀ f, api s entities = .error (.failure f) → (∃ id, f = .duplicateArtifact id) ∨
      (∃ id, f = .malformed id) ∨ f.scope = .entity ∧ s.api.onInvalidEntity = .abort) ∧
    ∀ id, api s entities = .error (.failure (.malformed id)) ↔
      (∃ before e after p tokens, entities = before ++ e :: after ∧
        before.foldlM (ApiProgress.add s) {} = .ok p ∧ e.code s = .ok tokens ∧
        readFileTokens tokens = none ∧ id = e.artifactId) ∨
      ∃ p rt, entities.foldlM (ApiProgress.add s) {} = .ok p ∧ s.runtime = .ok rt ∧
        readFileTokens (bootstrapCode rt p.made) = none ∧ id = bootstrapId := by
  constructor
  · intro f h
    rcases api_eq_failure hvalid h with hduplicate | hmalformed | ⟨hscope, habort, -⟩
    · exact .inl hduplicate
    · exact .inr (.inl hmalformed)
    · exact .inr (.inr ⟨hscope, habort⟩)
  · intro id
    have hadd {p : ApiProgress} {e : Entity} : p.add s e = .error (.failure (.malformed id)) ↔
        ∃ tokens, e.code s = .ok tokens ∧ readFileTokens tokens = none ∧ id = e.artifactId := by
      rw [ApiProgress.add_eq_error, ← Entity.artifact_eq_malformed hvalid]
      constructor
      · rintro (⟨a, -, h⟩ | ⟨h, -⟩)
        · exact absurd h (ofFailure_insert_ne_malformed _ _ _)
        · exact h
      · intro h
        refine .inr ⟨h, fun f hf hscope => ?_⟩
        obtain rfl := Stop.failure.inj hf
        cases hscope
    rw [api_eq_error hvalid]
    refine or_congr ?_ ?_
    · simp only [hadd, exists_and_left]
    · refine exists_congr fun p => ?_
      rw [exists_and_left]
      refine and_congr_right fun hp => ?_
      rw [bootstrapArtifact_eq_malformed hvalid (isIdentifier_of_foldlM hp)]
      refine or_iff_left ?_
      rintro ⟨a, -, h⟩
      exact ofFailure_insert_ne_malformed _ _ _ h

/-- A note without a key has no code that could be malformed. -/
theorem api_malformed_iff_keyless : ({} : Settings).validate = .ok () ∧
    ∀ id, api {} [keylessNote] ≠ .error (.failure (.malformed id)) := by
  have hvalid : ({} : Settings).validate = .ok () := by decide +kernel
  have hcode : (keylessNote.code {}).toOption = none := by decide +kernel
  have hadd : ((ApiProgress.add {} {} keylessNote).toOption.map fun p => p.made) = none := by
    decide +kernel
  refine ⟨hvalid, fun id h => ?_⟩
  rcases ((api_malformed_iff hvalid).2 id).1 h with
    ⟨before, e, after, p, tokens, heq, -, htokens, -⟩ | ⟨p, rt, hp, -⟩
  · have he : e ∈ [keylessNote] := heq ▸ List.mem_append_right _ List.mem_cons_self
    rw [List.mem_singleton.1 he] at htokens
    rw [htokens] at hcode
    cases hcode
  · rw [List.foldlM_cons] at hp
    obtain ⟨p', hp', -⟩ := bind_eq_ok.1 hp
    rw [hp'] at hadd
    cases hadd

/-- Settings for a runtime with a generic argument. -/
def genericRuntime : Settings := { runtimePath := "a<T>" }

/-- An entity with a key. -/
def userEntity : Entity := ⟨"User", [⟨"Id", "int", true, .both⟩]⟩

/-- These settings are accepted, but `a<T>::NotFound` is no expression. -/
theorem api_malformed_generic_runtime : genericRuntime.validate = .ok () ∧
    api genericRuntime [userEntity] = .error (.failure (.malformed "user_api.generated.rs")) := by
  have hvalid : genericRuntime.validate = .ok () := by decide +kernel
  have hid : userEntity.artifactId = "user_api.generated.rs" := by decide +kernel
  have hunread : ((userEntity.code genericRuntime).toOption.map fun tokens =>
      (readFileTokens tokens).isNone) = some true := by decide +kernel
  refine ⟨hvalid, ?_⟩
  cases hcode : userEntity.code genericRuntime with
  | error stop =>
    rw [hcode] at hunread
    cases hunread
  | ok tokens =>
    rw [hcode] at hunread
    have hnone : readFileTokens tokens = none := Option.isNone_iff_eq_none.1 (Option.some.inj hunread)
    have hartifact := (Entity.artifact_eq_malformed hvalid).2 ⟨tokens, hcode, hnone, hid.symm⟩
    have hadd : ApiProgress.add genericRuntime {} userEntity =
        .error (.failure (.malformed "user_api.generated.rs")) := by
      refine ApiProgress.add_eq_error.2 (.inr ⟨hartifact, fun f hf hscope => ?_⟩)
      obtain rfl := Stop.failure.inj hf
      cases hscope
    exact (api_eq_error hvalid).2 (.inl ⟨[], userEntity, [], {}, rfl, rfl, hadd⟩)

end Generation

end Scaffold
