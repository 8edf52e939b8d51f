import Mathlib.Data.List.Destutter
import Mathlib.Data.List.SplitBy
import Scaffold.Proofs.Stopping
import Scaffold.Resolve

/-!
# Runs of one unit

`unitRuns` cuts candidates into runs of one unit each.  Going through candidates with one lookup at
a time opens a lookup for the unit of each run and uses it for that run alone (`visitUnits_eq`), in
any monad.  So where the lookups that are opened are noted, the units noted are those of the runs,
whatever order the candidates stand in (`followsRuns_of_resolveBy`).
-/

namespace Scaffold

/-! ### Runs -/

/-- The first run begins with the first candidate. -/
theorem exists_unitRuns_cons (c : Candidate) (cs : List Candidate) :
    ∃ run runs, unitRuns (c :: cs) = (c.unit, c :: run) :: runs := by
  rw [unitRuns]
  split
  · split_ifs
    · exact ⟨_, _, rfl⟩
    · exact ⟨_, _, rfl⟩
  · exact ⟨_, _, rfl⟩

/-- Cutting candidates into runs leaves none out. -/
theorem flatMap_unitRuns (candidates : List Candidate) :
    (unitRuns candidates).flatMap (·.2) = candidates := by
  induction candidates with
  | nil => rfl
  | cons c cs ih =>
    rw [unitRuns]
    split
    · rename_i unit run runs heq
      rw [heq, List.flatMap_cons] at ih
      split_ifs
      · rw [List.flatMap_cons, ← ih]
        rfl
      · rw [List.flatMap_cons, List.flatMap_cons, ← ih]
        rfl
    · rename_i heq
      rw [heq] at ih
      rw [← ih]
      rfl

/-- A run begins with a candidate of its unit. -/
theorem exists_head_of_mem_unitRuns {candidates : List Candidate}
    {run : SourceUnit × List Candidate} (hrun : run ∈ unitRuns candidates) :
    ∃ c rest, run.2 = c :: rest ∧ c.unit = run.1 := by
  induction candidates generalizing run with
  | nil => cases hrun
  | cons c cs ih =>
    rw [unitRuns] at hrun
    split at hrun
    · rename_i unit cs' runs heq
      split_ifs at hrun
      · rcases List.mem_cons.1 hrun with rfl | hrun
        · exact ⟨c, cs', rfl, rfl⟩
        · exact ih (heq ▸ List.mem_cons_of_mem _ hrun)
      · rcases List.mem_cons.1 hrun with rfl | hrun
        · exact ⟨c, [], rfl, rfl⟩
        · exact ih (heq ▸ hrun)
    · rw [List.mem_singleton.1 hrun]
      exact ⟨c, [], rfl, rfl⟩

/-- The candidates of a run are all of its unit. -/
theorem id_of_mem_unitRuns {candidates : List Candidate} {run : SourceUnit × List Candidate}
    (hrun : run ∈ unitRuns candidates) : ∀ c ∈ run.2, run.1.id = c.unit.id := by
  induction candidates generalizing run with
  | nil => cases hrun
  | cons c cs ih =>
    rw [unitRuns] at hrun
    split at hrun
    · rename_i unit cs' runs heq
      have hhead := ih (heq ▸ List.mem_cons_self)
      have htail : ∀ r ∈ runs, ∀ c ∈ r.2, r.1.id = c.unit.id :=
        fun r hr => ih (heq ▸ List.mem_cons_of_mem _ hr)
      split_ifs at hrun with hid
      · rcases List.mem_cons.1 hrun with rfl | hrun
        · exact List.forall_mem_cons.2 ⟨rfl, fun d hd => hid.symm.trans (hhead d hd)⟩
        · exact htail run hrun
      · rcases List.mem_cons.1 hrun with rfl | hrun
        · exact List.forall_mem_singleton.2 rfl
        · exact ih (heq ▸ hrun)
    · rw [List.mem_singleton.1 hrun]
      exact List.forall_mem_singleton.2 rfl

/-- The units of neighbouring runs differ. -/
theorem isChain_unitRuns (candidates : List Candidate) :
    (unitRuns candidates).IsChain fun r r' => r.1.id ≠ r'.1.id := by
  induction candidates with
  | nil => exact .nil
  | cons c cs ih =>
    rw [unitRuns]
    split
    · rename_i unit run runs heq
      rw [heq] at ih
      split_ifs with hid
      · rw [List.isChain_cons] at ih ⊢
        exact ⟨fun r hr => hid ▸ ih.1 r hr, ih.2⟩
      · exact .cons_cons (Ne.symm hid) ih
    · exact .singleton _

/-- **The units of the runs** are the units of the candidates, consecutive repeats left out. -/
theorem map_id_unitRuns (candidates : List Candidate) :
    (unitRuns candidates).map (·.1.id) = (candidates.map (·.unit.id)).destutter (· ≠ ·) := by
  induction candidates with
  | nil => rfl
  | cons c cs ih =>
    cases cs with
    | nil => rfl
    | cons d ds =>
      obtain ⟨run, runs, heq⟩ := exists_unitRuns_cons d ds
      rw [heq, List.map_cons, List.map_cons] at ih
      rw [unitRuns, heq]
      dsimp only
      rw [List.map_cons, List.map_cons, List.destutter_cons_cons]
      split_ifs with hsame hdiffers hdiffers
      · exact absurd hsame.symm hdiffers
      · rw [List.map_cons, ← hsame, ih]
        rfl
      · rw [List.map_cons, List.map_cons, ih]
        rfl
      · exact absurd (Ne.symm hsame) hdiffers

/-- **The runs** are the longest pieces of candidates of one unit. -/
theorem map_snd_unitRuns (candidates : List Candidate) :
    (unitRuns candidates).map (·.2) =
      candidates.splitBy fun c d => c.unit.id == d.unit.id := by
  symm
  rw [List.splitBy_eq_iff]
  refine ⟨?_, ?_, ?_, ?_⟩
  · rw [← List.flatMap_def, flatMap_unitRuns]
  · intro hnil
    obtain ⟨run, hrun, hempty⟩ := List.mem_map.1 hnil
    obtain ⟨c, rest, heq, -⟩ := exists_head_of_mem_unitRuns hrun
    cases heq.symm.trans hempty
  · intro piece hpiece
    obtain ⟨run, hrun, rfl⟩ := List.mem_map.1 hpiece
    refine List.Pairwise.isChain (List.pairwise_of_forall_mem_list fun c hc d hd => ?_)
    exact beq_iff_eq.2 ((id_of_mem_unitRuns hrun c hc).symm.trans (id_of_mem_unitRuns hrun d hd))
  · refine (List.isChain_map _).2 ((isChain_unitRuns candidates).imp_of_mem_imp ?_)
    intro run next hrun hnext hid
    obtain ⟨c, rest, hc, -⟩ := exists_head_of_mem_unitRuns hrun
    obtain ⟨d, after, hd, -⟩ := exists_head_of_mem_unitRuns hnext
    have hne : run.2 ≠ [] := hc ▸ List.cons_ne_nil _ _
    have hne' : next.2 ≠ [] := hd ▸ List.cons_ne_nil _ _
    refine ⟨hne, hne', beq_false_of_ne ?_⟩
    rw [← id_of_mem_unitRuns hrun _ (List.getLast_mem hne),
      ← id_of_mem_unitRuns hnext _ (List.head_mem hne')]
    exact hid

/-! ### Going through runs -/

section Visit

variable {m : Type → Type} [Monad m] {β : Type} (opens : SourceUnit → m Lookup)
  (visit : Lookup → Candidate → m β)

/-- One run: a lookup is opened for its unit, and every candidate is visited with it. -/
def visitRun (run : SourceUnit × List Candidate) : m (List β) := do
  let lookup ← opens run.1
  run.2.mapM (visit lookup)

variable [LawfulMonad m]

/-- The lookup at hand serves all candidates of its unit. -/
theorem visitUnits_append {id : Nat} {run : List Candidate} (hrun : ∀ c ∈ run, id = c.unit.id)
    (lookup : Lookup) (rest : List Candidate) :
    visitUnits opens visit (some (id, lookup)) (run ++ rest) = (do
      let first ← run.mapM (visit lookup)
      let others ← visitUnits opens visit (some (id, lookup)) rest
      pure (first ++ others)) := by
  induction run with
  | nil => simp
  | cons c cs ih =>
    obtain ⟨hc, hcs⟩ := List.forall_mem_cons.1 hrun
    rw [List.cons_append, visitUnits]
    dsimp only
    rw [if_pos hc, ← hc, pure_bind, ih hcs]
    simp

/-- Where the lookup at hand is for another unit, one is opened for the unit of the candidate. -/
theorem visitUnits_open {current : Option (Nat × Lookup)} {c : Candidate}
    (hcurrent : ∀ at' ∈ current, at'.1 ≠ c.unit.id) (cs : List Candidate) :
    visitUnits opens visit current (c :: cs) = (do
      let lookup ← opens c.unit
      visitUnits opens visit (some (c.unit.id, lookup)) (c :: cs)) := by
  cases current with
  | none => simp [visitUnits]
  | some current =>
    have hother : current.1 ≠ c.unit.id := hcurrent current rfl
    simp [visitUnits, hother]

/-- Runs of different units are visited one after the other. -/
theorem visitUnits_flatMap {runs : List (SourceUnit × List Candidate)}
    (hhead : ∀ r ∈ runs, ∃ c rest, r.2 = c :: rest ∧ c.unit = r.1)
    (hids : ∀ r ∈ runs, ∀ c ∈ r.2, r.1.id = c.unit.id)
    (hchain : runs.IsChain fun r r' => r.1.id ≠ r'.1.id) {current : Option (Nat × Lookup)}
    (hcurrent : ∀ at' ∈ current, ∀ r ∈ runs.head?, at'.1 ≠ r.1.id) :
    visitUnits opens visit current (runs.flatMap (·.2)) =
      List.flatten <$> runs.mapM (visitRun opens visit) := by
  induction runs generalizing current with
  | nil => simp [visitUnits]
  | cons r runs ih =>
    obtain ⟨⟨c, rest, hrun, hunit⟩, hruns⟩ := List.forall_mem_cons.1 hhead
    obtain ⟨hid, hothers⟩ := List.forall_mem_cons.1 hids
    obtain ⟨hnext, htail⟩ := List.isChain_cons.1 hchain
    have hstart : r.2 ++ runs.flatMap (·.2) = c :: (rest ++ runs.flatMap (·.2)) := by
      rw [hrun, List.cons_append]
    have hother : ∀ at' ∈ current, at'.1 ≠ c.unit.id :=
      fun at' hat => hunit ▸ hcurrent at' hat r rfl
    have hserved (lookup : Lookup) :=
      visitUnits_append opens visit hid lookup (runs.flatMap (·.2))
    have hrest (lookup : Lookup) : visitUnits opens visit (some (r.1.id, lookup))
        (runs.flatMap (·.2)) = List.flatten <$> runs.mapM (visitRun opens visit) := by
      refine ih hruns hothers htail fun at' hat next hmem => ?_
      obtain rfl := Option.some.inj hat
      exact hnext next hmem
    rw [List.flatMap_cons, hstart, visitUnits_open opens visit hother, ← hstart, hunit]
    simp only [hserved, hrest, List.mapM_cons, visitRun, map_eq_pure_bind, bind_assoc, pure_bind,
      List.flatten_cons]

/-- **One lookup at a time is one lookup for each run.** -/
theorem visitUnits_eq (candidates : List Candidate) :
    visitUnits opens visit none candidates =
      List.flatten <$> (unitRuns candidates).mapM (visitRun opens visit) := by
  have hruns : visitUnits opens visit none ((unitRuns candidates).flatMap (·.2)) =
      List.flatten <$> (unitRuns candidates).mapM (visitRun opens visit) :=
    visitUnits_flatMap opens visit (fun r hr => exists_head_of_mem_unitRuns hr)
      (fun r hr => id_of_mem_unitRuns hr) (isChain_unitRuns candidates) (fun _ h => nomatch h)
  rwa [flatMap_unitRuns] at hruns

end Visit

/-! ### Noting what is opened -/

/-- Opens the lookups of a host that may make a new one each time: the `k`-th one that is opened is
made by `lookups k`.  The units for which lookups are opened are noted. -/
def noteOpened (lookups : Nat → SourceUnit → Lookup) (unit : SourceUnit) :
    StateT (List SourceUnit) (Except Breakdown) Lookup :=
  fun opened => .ok (lookups opened.length unit, opened ++ [unit])

section Noted

variable {α κ : Type} [BEq κ] (key : α → κ) (isKind : CorpusNode → Prop)
  (find : Lookup → Candidate → Except Breakdown (Finding α))
  (lookups : Nat → SourceUnit → Lookup)

/-- Whether the lookup with the number of a run was opened for the unit of its first candidate, and
the findings are what it gives for the candidates of the run: nothing for those of another kind. -/
def Serves (opened : List SourceUnit) (run : List Candidate × Nat) (findings : List (Finding α)) :
    Prop :=
  ∃ unit, opened[run.2]? = some unit ∧ run.1.head?.map (·.unit) = some unit ∧
    List.Forall₂ (fun c finding => find (lookups run.2 unit) c = .ok finding ∧
      (¬isKind c.node → finding = .nothing)) run.1 findings

/-- Whether lookups follow the runs of candidates: one is opened for each run, and serves it. -/
structure FollowsRuns (candidates : List Candidate) (resolved : Resolved α)
    (opened : List SourceUnit) : Prop where
  ids : opened.map (·.id) = (candidates.map (·.unit.id)).destutter (· ≠ ·)
  served : ∃ findings : List (List (Finding α)),
    List.Forall₂ (Serves isKind find lookups opened)
      (candidates.splitBy fun c d => c.unit.id == d.unit.id).zipIdx findings ∧
    resolved = .collect key findings.flatten

/-- Resolving a candidate opens nothing. -/
theorem run_mapM_liftM {β : Type} (f : Candidate → Except Breakdown β) (cs : List Candidate)
    (opened : List SourceUnit) :
    (cs.mapM fun c => (liftM (f c) : StateT (List SourceUnit) (Except Breakdown) β)).run opened =
      (fun bs => (bs, opened)) <$> cs.mapM f := by
  induction cs with
  | nil => rfl
  | cons c cs ih => simp [List.mapM_cons, ih]

/-- What is opened for one run, where lookups were opened before. -/
theorem run_visitRun (run : SourceUnit × List Candidate) (before : List SourceUnit) :
    (visitRun (noteOpened lookups) (fun lookup c => liftM (find lookup c)) run).run before =
      (fun findings => (findings, before ++ [run.1])) <$>
        run.2.mapM (find (lookups before.length run.1)) :=
  run_mapM_liftM (find (lookups before.length run.1)) run.2 (before ++ [run.1])

/-- **What is opened for runs,** where lookups were opened before: one lookup for each of them. -/
theorem run_mapM_visitRun (runs : List (SourceUnit × List Candidate)) (before : List SourceUnit) :
    (runs.mapM (visitRun (noteOpened lookups) fun lookup c => liftM (find lookup c))).run before =
      (fun found => (found, before ++ runs.map (·.1))) <$>
        (runs.zipIdx before.length).mapM fun r => r.1.2.mapM (find (lookups r.2 r.1.1)) := by
  induction runs generalizing before with
  | nil => simp
  | cons r runs ih =>
    simp [List.mapM_cons, StateT.run_bind, run_visitRun, ih]

/-- What is resolved, and what is opened for it. -/
theorem run_resolveBy (candidates : List Candidate) :
    (resolveBy key find (noteOpened lookups) candidates).run [] =
      (fun found => (Resolved.collect key found.flatten, (unitRuns candidates).map (·.1))) <$>
        (unitRuns candidates).zipIdx.mapM fun r => r.1.2.mapM (find (lookups r.2 r.1.1)) := by
  have hruns := run_mapM_visitRun find lookups (unitRuns candidates) []
  unfold resolveBy findingsBy
  rw [visitUnits_eq]
  simp [hruns]

/-- Noting what is opened makes no difference to what is resolved. -/
theorem run'_resolveBy (lookup : SourceUnit → Lookup) (candidates : List Candidate) :
    (resolveBy key find (noteOpened fun _ => lookup) candidates).run' [] =
      resolveBy key find (fun unit => (pure (lookup unit) : Except Breakdown Lookup))
        candidates := by
  have hnumbers : ((unitRuns candidates).zipIdx.mapM fun r => r.1.2.mapM (find (lookup r.1.1))) =
      (unitRuns candidates).mapM fun r => r.2.mapM (find (lookup r.1)) := by
    conv_rhs => rw [← List.zipIdx_map_fst 0 (unitRuns candidates), List.mapM_map]
    rfl
  have hplain : visitUnits (fun unit => (pure (lookup unit) : Except Breakdown Lookup)) find none
      candidates =
        List.flatten <$> (unitRuns candidates).mapM fun r => r.2.mapM (find (lookup r.1)) :=
    visitUnits_eq _ _ candidates
  have hnoted : (resolveBy key find (noteOpened fun _ => lookup) candidates).run' [] =
      (·.1) <$> (resolveBy key find (noteOpened fun _ => lookup) candidates).run [] := rfl
  have hfound : resolveBy key find (fun unit => (pure (lookup unit) : Except Breakdown Lookup))
      candidates = (do
        let found ←
          visitUnits (fun unit => (pure (lookup unit) : Except Breakdown Lookup)) find none candidates
        pure (.collect key found)) := rfl
  rw [hnoted, run_resolveBy, hnumbers, hfound, hplain]
  simp

variable {key isKind find lookups}

/-- **Lookups follow the runs** of the candidates that are resolved. -/
theorem followsRuns_of_resolveBy
    (hkind : ∀ lookup c, ¬isKind c.node → find lookup c = .ok .nothing)
    {candidates : List Candidate} {resolved : Resolved α} {opened : List SourceUnit}
    (h : (resolveBy key find (noteOpened lookups) candidates).run [] = .ok (resolved, opened)) :
    FollowsRuns key isKind find lookups candidates resolved opened := by
  rw [run_resolveBy] at h
  obtain ⟨found, hfound, heq⟩ := map_eq_ok.1 h
  obtain ⟨rfl, rfl⟩ := Prod.mk.inj heq
  refine ⟨?_, found, ?_, rfl⟩
  · rw [List.map_map]
    exact map_id_unitRuns candidates
  · rw [← map_snd_unitRuns, List.zipIdx_map, List.forall₂_map_left_iff]
    refine ((List.forall₂_and_left _ _).2 ⟨fun r hr => hr, mapM_eq_ok.1 hfound⟩).imp ?_
    rintro ⟨run, k⟩ findings ⟨hrun, hfindings⟩
    have hk : (unitRuns candidates)[k]? = some run := List.mem_zipIdx_iff_getElem?.1 hrun
    obtain ⟨c, rest, hcs, hunit⟩ := exists_head_of_mem_unitRuns (List.mem_of_getElem? hk)
    refine ⟨run.1, ?_, ?_, (mapM_eq_ok.1 hfindings).imp fun c finding hfind => ⟨hfind, ?_⟩⟩
    · exact (List.getElem?_map ..).trans (congrArg (Option.map (·.1)) hk)
    · exact (congrArg (fun cs => cs.head?.map (·.unit)) hcs).trans (congrArg some hunit)
    · intro hother
      exact (Except.ok.inj ((hkind _ c hother).symm.trans hfind)).symm

/-- Resolving breaks down only over a candidate. -/
theorem exists_error_of_resolveBy {candidates : List Candidate} {b : Breakdown}
    (h : (resolveBy key find (noteOpened lookups) candidates).run [] = .error b) :
    ∃ lookup, ∃ c ∈ candidates, find lookup c = .error b := by
  rw [run_resolveBy] at h
  obtain ⟨run, hrun, h⟩ := exists_error_of_mapM (map_eq_error.1 h)
  obtain ⟨c, hc, hfind⟩ := exists_error_of_mapM h
  have hmem : run.1 ∈ unitRuns candidates :=
    List.mem_of_getElem? (List.mem_zipIdx_iff_getElem?.1 hrun)
  refine ⟨_, c, ?_, hfind⟩
  rw [← flatMap_unitRuns candidates]
  exact List.mem_flatMap.2 ⟨run.1, hmem, hc⟩

end Noted

end Scaffold
