import Scaffold.Project
import Scaffold.Proofs.Mapping.Registration
import Scaffold.Proofs.Session
import Scaffold.Proofs.Skipping
import Scaffold.Writing

/-!
# Identifiers of artifacts

Each generator ends the identifiers of its artifacts in its own way, and none of these endings is
the end of another (`Artifact.Ends.id_ne`), so whatever entities and types are called, artifacts
of different generators have different identifiers.  Before the ending stands snake case of a word,
which has none of the characters that mean something in the path of a file.  The artifacts of a run
can therefore be collected in one registry and written to one directory
(`Generation.identifiers_apart`).
-/

namespace Scaffold

/-! ### Characters of paths -/

namespace Text

/-- The characters that mean something in the path of a file. -/
def pathMarks : List Char := ['.', '/', '\\']

/-- Every lower-case form beyond ASCII comes after these characters. -/
theorem lowerRuns_apart :
    lowerRuns.all (fun r => decide (('\\'.toNat : Int) < r.range.first + r.distance)) = true := by
  unfold lowerRuns tableEntries CharTable.lowerMap
  rw [List.all_toArray]
  simp only [List.flatMap_cons, List.flatMap_nil]
  -- the lines are made lists of characters, since reading a text character by character is slow
  repeat rw [String.toList_ofList]
  decide +kernel

/-- The code point of the character that is made of one; what is no code point makes the first
character. -/
theorem toNat_ofNat (n : Nat) : (Char.ofNat n).toNat = n ∨ (Char.ofNat n).toNat = 0 := by
  by_cases hn : n.isValidChar
  · left
    rw [Char.ofNat, dif_pos hn]
    rfl
  · right
    rw [Char.ofNat, dif_neg hn]
    rfl

theorem ofNat_not_mem_pathMarks {run : CaseRun} (hrun : run ∈ lowerRuns) {n m : Nat}
    (h : run.image? n = some m) : Char.ofNat m ∉ pathMarks := by
  have hapart := of_decide_eq_true (Array.all_eq_true'.1 lowerRuns_apart run hrun)
  unfold CaseRun.image? at h
  split_ifs at h with hcovers
  have hm := Option.some.inj h
  simp only [Bool.and_eq_true, CodeRange.contains, decide_eq_true_eq] at hcovers
  have hlt : '\\'.toNat < m := by omega
  -- the last of the marks is the backslash
  have hmarks : pathMarks.all (fun d => decide (0 < d.toNat ∧ d.toNat ≤ '\\'.toNat)) = true := by
    decide
  intro hmem
  obtain ⟨hpos, hle⟩ := of_decide_eq_true (List.all_eq_true.1 hmarks _ hmem)
  rcases toNat_ofNat m with hnat | hnat <;> omega

/-- The lower-case form of another character has none of these. -/
theorem not_mem_pathMarks_lowerOf {c : Char} (h : c ∉ pathMarks) :
    ∀ d ∈ lowerOf c, d ∉ pathMarks := by
  unfold lowerOf
  split_ifs with hascii hdotted
  · have hlower : c ∉ pathMarks → c.toLower ∉ pathMarks :=
      of_isAscii (P := fun c => c ∉ pathMarks → c.toLower ∉ pathMarks) (by decide) hascii
    exact List.forall_mem_singleton.2 (hlower h)
  · exact List.forall_mem_cons.2 ⟨by decide, List.forall_mem_singleton.2 (by decide)⟩
  · refine List.forall_mem_singleton.2 ?_
    cases himage : lowerRuns.findSome? (·.image? c.toNat) with
    | none => exact h
    | some m =>
      obtain ⟨run, hrun, hm⟩ := Array.exists_of_findSome?_eq_some himage
      exact ofNat_not_mem_pathMarks hrun hm

theorem not_mem_pathMarks_of_isIdent {c : Char}
    (h : isIdentStart c = true ∨ isIdentContinue c = true) : c ∉ pathMarks := by
  by_cases hascii : isAscii c = true
  · revert h
    refine of_isAscii (P := fun c => isIdentStart c = true ∨ isIdentContinue c = true →
      c ∉ pathMarks) ?_ hascii
    decide +kernel
  · rw [Bool.not_eq_true] at hascii
    exact not_mem_of_not_isAscii hascii (by decide)

end Text

namespace Naming

open Text Syntax

/-- Snake case of a name without these characters has none of them. -/
theorem not_mem_pathMarks_snakeCase {name : String} (h : ∀ c ∈ name.toList, c ∉ pathMarks) :
    ∀ c ∈ (snakeCase name).toList, c ∉ pathMarks := by
  rw [snakeCase, String.toList_ofList]
  exact forall_mem_snakeChars (by decide) (fun _ => not_mem_pathMarks_lowerOf) none h

theorem not_mem_pathMarks_of_isWordText {text : String} (h : Ident.isWordText text = true) :
    ∀ c ∈ text.toList, c ∉ pathMarks := by
  unfold Ident.isWordText at h
  split at h
  · rename_i c cs heq
    rw [Bool.and_eq_true] at h
    rw [heq, List.forall_mem_cons]
    refine ⟨not_mem_pathMarks_of_isIdent (.inl h.1), fun d hd => ?_⟩
    exact not_mem_pathMarks_of_isIdent (.inr (List.all_eq_true.1 h.2 d hd))
  · cases h

/-- No word has one of these characters, raw or not. -/
theorem not_mem_pathMarks_of_word {text : String} {i : Ident} (h : word text = .ok i) :
    ∀ c ∈ text.toList, c ∉ pathMarks := by
  have hsome : Ident.ofText? text = some i := by
    unfold word at h
    split at h
    · rename_i j hj
      rw [hj, Except.ok.inj h]
    · cases h
  unfold Ident.ofText? at hsome
  split at hsome
  · rename_i cs heq
    unfold Ident.raw? at hsome
    split_ifs at hsome with hraw
    rw [Bool.and_eq_true] at hraw
    have hcs := not_mem_pathMarks_of_isWordText hraw.1
    rw [String.toList_ofList] at hcs
    rw [heq]
    exact List.forall_mem_cons.2 ⟨by decide, List.forall_mem_cons.2 ⟨by decide, hcs⟩⟩
  · unfold Ident.plain? at hsome
    split_ifs at hsome with hplain
    exact not_mem_pathMarks_of_isWordText hplain

end Naming

/-! ### Endings -/

namespace Artifact

/-- The ways in which identifiers end: of entities, of the bootstrap, of mappings and of
handlers. -/
def endings : List String :=
  ["_api.generated.rs", bootstrapId, mappingsId, "_handler.generated.rs"]

/-- What makes a plain name. -/
theorem isPlainName_iff {id : String} : isPlainName id = true ↔
    id ≠ "" ∧ '/' ∉ id.toList ∧ '\\' ∉ id.toList ∧ id.toList.head? ≠ some '.' := by
  simp only [isPlainName, Bool.and_eq_true, Bool.not_eq_true', List.any_eq_false, Bool.or_eq_true,
    decide_eq_true_eq, String.isEmpty_eq_false_iff, and_assoc]
  refine and_congr_right fun _ => ?_
  rw [← and_assoc]
  refine and_congr_left fun _ => ⟨fun h => ⟨fun hmem => h _ hmem (.inl rfl), fun hmem =>
    h _ hmem (.inr rfl)⟩, ?_⟩
  rintro ⟨hslash, hback⟩ c hc (rfl | rfl)
  · exact hslash hc
  · exact hback hc

/-- A name without characters that mean something in paths, before an ending that is a plain name,
is a plain name. -/
theorem isPlainName_append {name ending : String} (hname : ∀ c ∈ name.toList, c ∉ Text.pathMarks)
    (hending : isPlainName ending = true) : isPlainName (name ++ ending) = true := by
  obtain ⟨hne, hslash, hback, hhead⟩ := isPlainName_iff.1 hending
  have hmark {c : Char} (hc : c ∈ Text.pathMarks) (h : c ∉ ending.toList) :
      c ∉ (name ++ ending).toList := by
    rw [String.toList_append, List.mem_append, not_or]
    exact ⟨fun hmem => hname c hmem hc, h⟩
  refine isPlainName_iff.2 ⟨?_, hmark (by decide) hslash, hmark (by decide) hback, ?_⟩
  · intro h
    exact hne (String.append_eq_empty_iff.1 h).2
  · rw [String.toList_append]
    cases hchars : name.toList with
    | nil => exact hhead
    | cons c cs =>
      -- the name does not begin with a dot, since it has none
      intro hdot
      obtain rfl := Option.some.inj hdot
      exact hname '.' (hchars ▸ List.mem_cons_self) (by decide)

/-- The artifact of tokens has the identifier that it was made for. -/
theorem id_of_ofTokens {id : String} {tokens : List Syntax.Token} {a : Artifact}
    (h : ofTokens id tokens = .ok a) : a.id = id := by
  unfold ofTokens at h
  split at h
  · obtain ⟨body, -, h⟩ := bind_eq_ok.1 h
    rw [← Except.ok.inj h]
  · cases h

/-- Whether an identifier is a plain name that ends in one of these ways. -/
structure Ends (ending : String) (a : Artifact) : Prop where
  known : ending ∈ endings
  suffix : ending.toList <:+ a.id.toList
  plain : isPlainName a.id = true

/-- **Identifiers that end differently** are different: no ending is the end of another. -/
theorem Ends.id_ne {x y : String} {a b : Artifact} (ha : a.Ends x) (hb : b.Ends y) (hne : x ≠ y) :
    a.id ≠ b.id := by
  have hapart : ∀ x ∈ endings, ∀ y ∈ endings, x ≠ y → ¬x.toList <:+ y.toList := by decide
  intro hid
  rcases List.suffix_or_suffix_of_suffix ha.suffix (hid ▸ hb.suffix) with h | h
  · exact hapart x ha.known y hb.known hne h
  · exact hapart y hb.known x ha.known hne.symm h

theorem Ends.of_append (name : String) {ending : String} {a : Artifact}
    (hname : ∀ c ∈ name.toList, c ∉ Text.pathMarks) (hending : ending ∈ endings)
    (h : a.id = name ++ ending) : a.Ends ending := by
  have hplain : ∀ ending ∈ endings, isPlainName ending = true := by decide
  refine ⟨hending, ?_, ?_⟩
  · rw [h, String.toList_append]
    exact List.suffix_append _ _
  · rw [h]
    exact isPlainName_append hname (hplain ending hending)

end Artifact

/-! ### Generators -/

section Generators

variable {s : Settings} {g : Generation}

theorem Entity.ends_of_artifact {e : Entity} {a : Artifact} (h : e.artifact s = .ok a) :
    a.Ends "_api.generated.rs" := by
  have hname := isIdentifier_of_artifact h
  -- the identifier is given to the last step
  obtain ⟨plan, -, h⟩ := bind_eq_ok.1 h
  obtain ⟨rt, -, h⟩ := bind_eq_ok.1 h
  obtain ⟨derives, -, h⟩ := bind_eq_ok.1 h
  obtain ⟨tokens, -, h⟩ := bind_eq_ok.1 h
  refine .of_append (Naming.snakeCase e.name) ?_ (by decide) (Artifact.id_of_ofTokens h)
  exact Naming.not_mem_pathMarks_snakeCase
    (Naming.not_mem_pathMarks_of_isWordText (Naming.isWordText_of_isIdentifier hname))

theorem ends_of_bootstrapArtifact {entities : List Entity} {a : Artifact}
    (h : bootstrapArtifact s entities = .ok a) : a.Ends bootstrapId := by
  obtain ⟨rt, -, h⟩ := bind_eq_ok.1 h
  obtain ⟨repositories, -, h⟩ := bind_eq_ok.1 h
  refine .of_append "" (List.forall_mem_nil _) (by decide) ?_
  rw [String.empty_append]
  exact Artifact.id_of_ofTokens h

theorem MappingPlan.ends_of_artifact {plan : MappingPlan} {a : Artifact}
    (h : plan.artifact = .ok a) : a.Ends mappingsId := by
  obtain ⟨spaces, -, h⟩ := bind_eq_ok.1 h
  refine .of_append "" (List.forall_mem_nil _) (by decide) ?_
  rw [String.empty_append]
  exact Artifact.id_of_ofTokens h

theorem Handler.ends_of_artifact {h : Handler} {a : Artifact} (hartifact : h.artifact = .ok a) :
    a.Ends "_handler.generated.rs" := by
  obtain ⟨self, -, hartifact⟩ := bind_eq_ok.1 hartifact
  obtain ⟨base, hbase, hartifact⟩ := bind_eq_ok.1 hartifact
  obtain ⟨members, -, hartifact⟩ := bind_eq_ok.1 hartifact
  obtain ⟨tokens, -, hartifact⟩ := bind_eq_ok.1 hartifact
  -- the base trait is called by the name and more, and that is a word
  have hword := Naming.not_mem_pathMarks_of_word (Stop.ofBreakdown_eq_ok.1 hbase)
  rw [String.toList_append] at hword
  refine .of_append (Naming.snakeCase h.className) ?_ (by decide)
    (Artifact.id_of_ofTokens hartifact)
  exact Naming.not_mem_pathMarks_snakeCase fun c hc => hword c (List.mem_append_left _ hc)

namespace Generation

/-- The artifacts of entities have different identifiers, which end in one of two ways. -/
theorem ends_of_api {entities : List Entity} (h : api s entities = .ok g) :
    (g.artifacts.map (·.id)).Nodup ∧
      ∀ a ∈ g.artifacts, a.Ends "_api.generated.rs" ∨ a.Ends bootstrapId := by
  have h : api (s.withPolicy s.api.onInvalidEntity) entities = .ok g := h
  obtain ⟨-, q, bootstrap, r, hq, hbootstrap, hr, rfl⟩ := api_eq_ok.1 h
  have hends : ∀ a ∈ q.registry.artifacts, a.Ends "_api.generated.rs" := by
    refine foldlM_keeps (I := fun p => ∀ a ∈ p.registry.artifacts, a.Ends "_api.generated.rs") ?_
      (List.forall_mem_nil _) hq
    intro p e p' hp hadd
    rcases ApiProgress.add_eq_ok.1 hadd with ⟨a, r, ha, hr, rfl⟩ | ⟨f, -, -, -, rfl⟩
    · dsimp only
      rw [Registry.artifacts_of_insert hr, List.forall_mem_append]
      exact ⟨hp, List.forall_mem_singleton.2 (Entity.ends_of_artifact ha)⟩
    · exact hp
  refine ⟨r.nodup, ?_⟩
  rw [Registry.artifacts_of_insert hr, List.forall_mem_append]
  refine ⟨fun a ha => .inl (hends a ha), List.forall_mem_singleton.2 (.inr ?_)⟩
  exact ends_of_bootstrapArtifact hbootstrap

variable {host : Host} {corpus : Corpus}

theorem ends_of_mappings (h : mappings s host corpus = .ok g) :
    ∃ a, g.artifacts = [a] ∧ a.Ends mappingsId := by
  obtain ⟨-, resolved, made, -, hmade, rfl⟩ := mappings_eq_ok.1 h
  obtain ⟨a, ha, hmade⟩ := bind_eq_ok.1 hmade
  obtain rfl := Except.ok.inj hmade
  exact ⟨a, rfl, MappingPlan.ends_of_artifact ha⟩

theorem ends_of_handlers (h : handlers s host corpus = .ok g) :
    (g.artifacts.map (·.id)).Nodup ∧ ∀ a ∈ g.artifacts, a.Ends "_handler.generated.rs" := by
  obtain ⟨-, resolved, q, -, hq, rfl⟩ := handlers_eq_ok.1 h
  refine ⟨q.registry.nodup, ?_⟩
  refine foldlM_keeps (I := fun p => ∀ a ∈ p.registry.artifacts, a.Ends "_handler.generated.rs") ?_
    (List.forall_mem_nil _) hq
  intro p handler p' hp hadd
  rcases HandlerProgress.add_eq_ok.1 hadd with ⟨a, r, ha, hr, rfl⟩ | ⟨f, -, -, rfl⟩
  · dsimp only
    rw [Registry.artifacts_of_insert hr, List.forall_mem_append]
    exact ⟨hp, List.forall_mem_singleton.2 (Handler.ends_of_artifact ha)⟩
  · exact hp

end Generation

end Generators

/-! ### Collecting and writing -/

/-- An artifact whose identifier is new is registered. -/
theorem Registry.exists_insert {r : Registry} {a : Artifact} (h : a.id ∉ r.ids) :
    ∃ r', r.insert a = .ok r' ∧ r'.artifacts = r.artifacts ++ [a] := by
  have hfree : a.id ∉ r.taken := by
    rw [r.mem_taken]
    exact h
  unfold insert
  rw [dif_neg hfree]
  exact ⟨_, rfl, rfl⟩

namespace Project.Collection

variable (generator : String)

/-- Adding an artifact whose identifier is new only reports. -/
theorem result_addArtifact {c : Collection} {a : Artifact} (h : a.id ∉ c.registry.ids)
    (session : Session) : ∃ r after, r.artifacts = c.registry.artifacts ++ [a] ∧
      (c.addArtifact generator a : Run (StateM Session) Collection).result session =
        (.ok ⟨r, c.failures⟩, after) ∧
      after.files = session.files ∧ after.output = session.output := by
  obtain ⟨r, hr, hartifacts⟩ := Registry.exists_insert h
  unfold addArtifact
  rw [hr, Run.result_bind_of_ok (Run.result_emit _ _),
    Run.result_bind_of_ok (Run.result_ofFailure_ok _ r _)]
  exact ⟨r, _, hartifacts, rfl, rfl, rfl⟩

theorem result_foldlM {as : List Artifact} {c : Collection}
    (h : ((c.registry.artifacts ++ as).map (·.id)).Nodup) (session : Session) :
    ∃ r after, r.artifacts = c.registry.artifacts ++ as ∧
      (as.foldlM (addArtifact generator) c : Run (StateM Session) Collection).result session =
        (.ok ⟨r, c.failures⟩, after) ∧
      after.files = session.files ∧ after.output = session.output := by
  induction as generalizing c session with
  | nil => exact ⟨c.registry, session, (List.append_nil _).symm, rfl, rfl, rfl⟩
  | cons a as ih =>
    have hnew : a.id ∉ c.registry.ids := by
      rw [List.map_append, List.map_cons] at h
      intro hmem
      exact (List.nodup_append.1 h).2.2 _ hmem _ List.mem_cons_self rfl
    obtain ⟨r, between, hartifacts, hadd, hfiles, houtput⟩ :=
      result_addArtifact generator hnew session
    have hnext : r.artifacts ++ as = c.registry.artifacts ++ a :: as := by
      rw [hartifacts, List.append_assoc, List.singleton_append]
    obtain ⟨r', after, hartifacts', hrest, hfiles', houtput'⟩ :=
      ih (c := ⟨r, c.failures⟩) (by rwa [hnext]) between
    refine ⟨r', after, hartifacts'.trans hnext, ?_, hfiles'.trans hfiles,
      houtput'.trans houtput⟩
    rw [List.foldlM_cons, Run.result_bind_of_ok hadd]
    exact hrest

/-- **Collecting what a generator has made** only reports, as long as no identifier comes again. -/
theorem result_add {c : Collection} {g : Generation}
    (h : ((c.registry.artifacts ++ g.artifacts).map (·.id)).Nodup) (session : Session) :
    ∃ r after, r.artifacts = c.registry.artifacts ++ g.artifacts ∧
      (c.add generator g : Run (StateM Session) Collection).result session =
        (.ok ⟨r, c.failures ++ g.failures⟩, after) ∧
      after.files = session.files ∧ after.output = session.output := by
  unfold add
  rw [Run.result_bind_of_ok (Run.result_forM_emit _ _ _)]
  exact result_foldlM generator (c := ⟨c.registry, c.failures ++ g.failures⟩) h _

end Project.Collection

/-- **Writing artifacts** whose identifiers are plain names stops for faults of files alone. -/
theorem writeArtifacts_stopsOnly (directory : String) {artifacts : List Artifact}
    (h : ∀ a ∈ artifacts, Artifact.isPlainName a.id = true) :
    (writeArtifacts directory artifacts : Run (StateM Session) Written).StopsOnly
      fun halt => ∃ note fault, halt = .problem ⟨[.note note, .io fault]⟩ := by
  have hwrite (w : Written) (a : Artifact) (path : String) :
      (Written.add.write w a path : Run (StateM Session) Written).StopsOnly
        fun halt => ∃ note fault, halt = .problem ⟨[.note note, .io fault]⟩ := by
    unfold Written.add.write
    refine (Run.StopsOnly.change fun fault => ⟨_, fault, rfl⟩).bind fun _ => ?_
    exact (Run.StopsOnly.emit _).bind fun _ => .pure _
  unfold writeArtifacts
  refine (Run.StopsOnly.change fun fault => ⟨_, fault, rfl⟩).bind fun _ => ?_
  refine Run.StopsOnly.foldlM (fun w a ha => ?_) _
  unfold Written.add
  rw [h a ha, if_neg (by decide)]
  refine (Run.StopsOnly.lift _).bind fun outcome => ?_
  cases outcome with
  | error fault => exact hwrite w a _
  | ok text =>
    dsimp only
    split_ifs
    · exact (Run.StopsOnly.emit _).bind fun _ => .pure _
    · exact hwrite w a _

/-! ### Runs of all generators -/

/-- The identifiers of two groups of artifacts, none of which is in both. -/
theorem Artifact.nodup_append {as bs : List Artifact} (has : (as.map (·.id)).Nodup)
    (hbs : (bs.map (·.id)).Nodup) (h : ∀ a ∈ as, ∀ b ∈ bs, a.id ≠ b.id) :
    ((as ++ bs).map (·.id)).Nodup := by
  rw [List.map_append, List.nodup_append]
  exact ⟨has, hbs, List.forall_mem_map.2 fun a ha => List.forall_mem_map.2 fun b hb => h a ha b hb⟩

open Project in
/-- Collecting what three generators have made only reports, as long as all identifiers differ. -/
theorem Project.Collection.result_addAll {g₁ g₂ g₃ : Generation}
    (h : ((g₁.artifacts ++ g₂.artifacts ++ g₃.artifacts).map (·.id)).Nodup) (session : Session) :
    ∃ c after,
      (do
        let c ← ({} : Collection).add "api" g₁
        let c ← c.add "mapping" g₂
        c.add "handler" g₃ : Run (StateM Session) Collection).result session = (.ok c, after) ∧
      c.registry.artifacts = g₁.artifacts ++ g₂.artifacts ++ g₃.artifacts ∧
      c.failures = g₁.failures ++ g₂.failures ++ g₃.failures ∧
      after.files = session.files ∧ after.output = session.output := by
  have hfirst : ((g₁.artifacts ++ g₂.artifacts).map (·.id)).Nodup := by
    rw [List.map_append] at h
    exact (List.nodup_append.1 h).1
  have hone : (g₁.artifacts.map (·.id)).Nodup := by
    rw [List.map_append] at hfirst
    exact (List.nodup_append.1 hfirst).1
  obtain ⟨r₁, s₁, hr₁, hadd₁, hfiles₁, houtput₁⟩ :=
    result_add "api" (c := {}) (g := g₁) hone session
  have hr₁ : r₁.artifacts = g₁.artifacts := hr₁
  obtain ⟨r₂, s₂, hr₂, hadd₂, hfiles₂, houtput₂⟩ :=
    result_add "mapping" (c := ⟨r₁, [] ++ g₁.failures⟩) (g := g₂) (by rwa [hr₁]) s₁
  have hr₂ : r₂.artifacts = g₁.artifacts ++ g₂.artifacts := hr₁ ▸ hr₂
  obtain ⟨r₃, s₃, hr₃, hadd₃, hfiles₃, houtput₃⟩ :=
    result_add "handler" (c := ⟨r₂, [] ++ g₁.failures ++ g₂.failures⟩) (g := g₃) (by rwa [hr₂]) s₂
  have hr₃ : r₃.artifacts = g₁.artifacts ++ g₂.artifacts ++ g₃.artifacts := hr₂ ▸ hr₃
  refine ⟨⟨r₃, g₁.failures ++ g₂.failures ++ g₃.failures⟩, s₃, ?_, hr₃, rfl, hfiles₃.trans (hfiles₂.trans hfiles₁),
    houtput₃.trans (houtput₂.trans houtput₁)⟩
  rw [Run.result_bind_of_ok hadd₁, Run.result_bind_of_ok hadd₂]
  exact hadd₃

namespace Generation

open Project

/-- **Identifiers never collide and can always be written.**  Whatever entities and types are called,
the artifacts of all three generators have different identifiers, and each identifier is a plain
name: it is not empty, has no slash or backslash and does not begin with a dot.  So collecting the
three generations in one registry only reports, and writing their artifacts stops for faults of
files alone. -/
theorem identifiers_apart (s : Settings) (entities : List Entity) (host : Host) (corpus : Corpus)
    (g₁ g₂ g₃ : Generation) (h₁ : api s entities = .ok g₁) (h₂ : mappings s host corpus = .ok g₂)
    (h₃ : handlers s host corpus = .ok g₃) :
    ((g₁.artifacts ++ g₂.artifacts ++ g₃.artifacts).map (·.id)).Nodup ∧
    (∀ a ∈ g₁.artifacts ++ g₂.artifacts ++ g₃.artifacts, a.id ≠ "" ∧ '/' ∉ a.id.toList ∧
      '\\' ∉ a.id.toList ∧ a.id.toList.head? ≠ some '.') ∧
    (∀ session, ∃ c after,
      (do
        let c ← ({} : Collection).add "api" g₁
        let c ← c.add "mapping" g₂
        c.add "handler" g₃ : Run (StateM Session) Collection).result session = (.ok c, after) ∧
      c.registry.artifacts = g₁.artifacts ++ g₂.artifacts ++ g₃.artifacts ∧
      c.failures = g₁.failures ++ g₂.failures ++ g₃.failures ∧
      after.files = session.files ∧ after.output = session.output) ∧
    ∀ directory, (writeArtifacts directory (g₁.artifacts ++ g₂.artifacts ++ g₃.artifacts) :
      Run (StateM Session) Written).StopsOnly
        fun halt => ∃ note fault, halt = .problem ⟨[.note note, .io fault]⟩ := by
  obtain ⟨hnodup₁, hends₁⟩ := ends_of_api h₁
  obtain ⟨a₂, hartifacts₂, hends₂⟩ := ends_of_mappings h₂
  obtain ⟨hnodup₃, hends₃⟩ := ends_of_handlers h₃
  -- within one generation the registry keeps identifiers apart, across generations their endings do
  have hnodup : ((g₁.artifacts ++ g₂.artifacts ++ g₃.artifacts).map (·.id)).Nodup := by
    have hmappings : ∀ b ∈ g₂.artifacts, b.Ends mappingsId := by
      rw [hartifacts₂]
      exact List.forall_mem_singleton.2 hends₂
    refine Artifact.nodup_append (Artifact.nodup_append hnodup₁ ?_ ?_) hnodup₃ ?_
    · rw [hartifacts₂]
      exact List.nodup_singleton _
    · intro a ha b hb
      rcases hends₁ a ha with hend | hend
      · exact hend.id_ne (hmappings b hb) (by decide)
      · exact hend.id_ne (hmappings b hb) (by decide)
    · intro a ha b hb
      rcases List.mem_append.1 ha with ha | ha
      · rcases hends₁ a ha with hend | hend
        · exact hend.id_ne (hends₃ b hb) (by decide)
        · exact hend.id_ne (hends₃ b hb) (by decide)
      · exact (hmappings a ha).id_ne (hends₃ b hb) (by decide)
  have hplain : ∀ a ∈ g₁.artifacts ++ g₂.artifacts ++ g₃.artifacts,
      Artifact.isPlainName a.id = true := by
    rw [hartifacts₂]
    simp only [List.forall_mem_append, List.forall_mem_singleton]
    exact ⟨⟨fun a ha => (hends₁ a ha).elim (·.plain) (·.plain), hends₂.plain⟩,
      fun a ha => (hends₃ a ha).plain⟩
  exact ⟨hnodup, fun a ha => Artifact.isPlainName_iff.1 (hplain a ha),
    fun session => Collection.result_addAll hnodup session,
    fun directory => writeArtifacts_stopsOnly directory hplain⟩

/-- A crate with a handler. -/
def greeterCrate : List Source.SourceFile :=
  [⟨"crate", "lib.rs", "#[handler] pub struct Greeter \x7b pub(crate) tone: u8 \x7d"⟩]

theorem identifiers_apart_greeter :
    ∃ tree g₁ g₂ g₃, Source.SourceTree.ofFiles greeterCrate = .ok tree ∧
      api {} [] = .ok g₁ ∧ mappings {} tree.host tree.corpus = .ok g₂ ∧
      handlers {} tree.host tree.corpus = .ok g₃ ∧
      ((g₁.artifacts ++ g₂.artifacts ++ g₃.artifacts).map (·.id)).Nodup ∧
      (g₁.artifacts ++ g₂.artifacts ++ g₃.artifacts).length = 3 := by
  have hapi : (api {} []).map (·.artifacts.length) = .ok 1 := by decide +kernel
  have htree : ((Source.SourceTree.ofFiles greeterCrate).toOption.map fun tree =>
      ((mappings {} tree.host tree.corpus).map (·.artifacts.length),
        (handlers {} tree.host tree.corpus).map (·.artifacts.length))) = some (.ok 1, .ok 1) := by
    decide +kernel
  obtain ⟨g₁, h₁, hlength₁⟩ := map_eq_ok.1 hapi
  cases hread : Source.SourceTree.ofFiles greeterCrate with
  | error origin =>
    rw [hread] at htree
    cases htree
  | ok tree =>
    rw [hread] at htree
    obtain ⟨hmappings, hhandlers⟩ := Prod.mk.inj (Option.some.inj htree)
    obtain ⟨g₂, h₂, hlength₂⟩ := map_eq_ok.1 hmappings
    obtain ⟨g₃, h₃, hlength₃⟩ := map_eq_ok.1 hhandlers
    obtain ⟨hnodup, -⟩ :=
      identifiers_apart {} [] tree.host tree.corpus g₁ g₂ g₃ h₁ h₂ h₃
    refine ⟨tree, g₁, g₂, g₃, rfl, h₁, h₂, h₃, hnodup, ?_⟩
    rw [List.length_append, List.length_append, hlength₁, hlength₂, hlength₃]

end Generation

end Scaffold
