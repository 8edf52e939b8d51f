import Scaffold.Proofs.Spelling
import Scaffold.Proofs.UnitRuns

/-!
# Resolving all candidates

Resolving goes through every candidate, so it breaks down where one of them does
(`Host.findings_spells`), and each has a finding of its own (`Host.forall₂_findings`).  Of the items
that were found those whose key came before are left out, and nothing else is: every candidate ends
with nothing, a failure, a repeat or an item (`Host.exists_ends`).
-/

namespace Scaffold

/-- A host finds things run by run, with one lookup for each run. -/
theorem Host.findings_eq {α : Type} (host : Host)
    (find : Lookup → Candidate → Except Breakdown (Finding α)) (candidates : List Candidate) :
    host.findings find candidates = (do
      let found ← (unitRuns candidates).mapM fun r => r.2.mapM (find (host.lookup r.1))
      pure found.flatten) := by
  have hruns : host.findings find candidates =
      List.flatten <$> (unitRuns candidates).mapM fun r => r.2.mapM (find (host.lookup r.1)) :=
    visitUnits_eq _ _ candidates
  rw [hruns, map_eq_pure_bind]

/-- What a host finds for each candidate spells the names of all. -/
theorem Host.findings_spells {α : Type} {host : Host} {lookup : Lookup}
    (hlookup : ∀ unit, host.lookup unit = lookup)
    {find : Lookup → Candidate → Except Breakdown (Finding α)} {names : Candidate → List String}
    {candidates : List Candidate} (h : ∀ c ∈ candidates, Spells (names c) (find lookup c)) :
    Spells (candidates.flatMap names) (host.findings find candidates) := by
  have hruns : Spells ((unitRuns candidates).flatMap fun r => r.2.flatMap names)
      ((unitRuns candidates).mapM fun r => r.2.mapM (find (host.lookup r.1))) := by
    refine .mapM fun r hr => ?_
    rw [hlookup]
    refine .mapM fun c hc => h c ?_
    rw [← flatMap_unitRuns candidates]
    exact List.mem_flatMap.2 ⟨r, hr, hc⟩
  have hnames : ((unitRuns candidates).flatMap fun r => r.2.flatMap names) =
      candidates.flatMap names := by
    rw [← List.flatMap_assoc, flatMap_unitRuns]
  rw [hnames] at hruns
  rw [findings_eq]
  exact hruns.bind_pure fun found _ => .pure _

section Findings

variable {α : Type} {host : Host} {find : Lookup → Candidate → Except Breakdown (Finding α)}
  {candidates : List Candidate}

/-- **Every candidate has a finding of its own,** made with a lookup for its unit. -/
theorem Host.forall₂_findings {findings : List (Finding α)}
    (h : host.findings find candidates = .ok findings) :
    List.Forall₂ (fun c finding => ∃ unit : SourceUnit, unit.id = c.unit.id ∧
      find (host.lookup unit) c = .ok finding) candidates findings := by
  rw [findings_eq] at h
  obtain ⟨found, hfound, heq⟩ := bind_eq_ok.1 h
  obtain rfl := Except.ok.inj heq
  have hruns : List.Forall₂ (List.Forall₂ fun c finding => ∃ unit : SourceUnit,
      unit.id = c.unit.id ∧ find (host.lookup unit) c = .ok finding)
        ((unitRuns candidates).map (·.2)) found := by
    rw [List.forall₂_map_left_iff]
    refine ((List.forall₂_and_left _ _).2 ⟨fun r hr => hr, mapM_eq_ok.1 hfound⟩).imp ?_
    rintro run results ⟨hrun, hresults⟩
    refine ((List.forall₂_and_left _ _).2 ⟨fun c hc => hc, mapM_eq_ok.1 hresults⟩).imp ?_
    rintro c finding ⟨hc, hfinding⟩
    exact ⟨run.1, id_of_mem_unitRuns hrun c hc, hfinding⟩
  have hall := List.rel_flatten hruns
  rwa [← List.flatMap_def, flatMap_unitRuns] at hall

theorem Host.exists_error_of_findings {b : Breakdown}
    (h : host.findings find candidates = .error b) :
    ∃ unit, ∃ c ∈ candidates, find (host.lookup unit) c = .error b := by
  rw [findings_eq] at h
  rcases bind_eq_error.1 h with h | ⟨found, -, h⟩
  · obtain ⟨run, hrun, h⟩ := exists_error_of_mapM h
    obtain ⟨c, hc, hfind⟩ := exists_error_of_mapM h
    refine ⟨run.1, c, ?_, hfind⟩
    rw [← flatMap_unitRuns candidates]
    exact List.mem_flatMap.2 ⟨run, hrun, hc⟩
  · cases h

end Findings

/-! ### Endings -/

/-- What becomes of a candidate when items of one key are kept once. -/
inductive Ending (α : Type) where
  | nothing
  | failed (f : Failure)
  /-- It gives an item whose key an earlier one has. -/
  | repeated (a : α)
  /-- It gives an item. -/
  | made (a : α)

namespace Ending

variable {α : Type}

/-- What was found for the candidate. -/
def finding : Ending α → Finding α
  | .nothing => .nothing
  | .failed f => .failure f
  | .repeated a | .made a => .item a

/-- The failure, where there is one. -/
def failure? : Ending α → Option Failure
  | .failed f => some f
  | _ => none

/-- The repeated item, where there is one. -/
def repeated? : Ending α → Option α
  | .repeated a => some a
  | _ => none

/-- The item that is made, where there is one. -/
def made? : Ending α → Option α
  | .made a => some a
  | _ => none

theorem failure?_finding (e : Ending α) : e.finding.failure? = e.failure? := by
  cases e <;> rfl

/-- **Every candidate counts once:** with nothing, a failure, a repeat or an item. -/
theorem length_eq {endings : List (Ending α)} (h : ∀ e ∈ endings, e ≠ .nothing) :
    endings.length = (endings.filterMap made?).length + (endings.filterMap failure?).length +
      (endings.filterMap repeated?).length := by
  induction endings with
  | nil => rfl
  | cons e endings ih =>
    obtain ⟨he, hrest⟩ := List.forall_mem_cons.1 h
    have hlength := ih hrest
    cases e with
    | nothing => exact absurd rfl he
    | failed | repeated | made =>
      simp only [List.filterMap_cons, failure?, repeated?, made?, List.length_cons]
      omega

end Ending

/-- The endings of findings, where items with the keys in `seen` came before. -/
def Finding.endings {α κ : Type} [BEq κ] (key : α → κ) :
    (seen : List κ) → List (Finding α) → List (Ending α)
  | _, [] => []
  | seen, .nothing :: fs => .nothing :: endings key seen fs
  | seen, .failure f :: fs => .failed f :: endings key seen fs
  | seen, .item a :: fs =>
    if seen.contains (key a) then .repeated a :: endings key seen fs
    else .made a :: endings key (key a :: seen) fs

section Endings

variable {α κ : Type} [BEq κ] {key : α → κ}

/-- Every finding has its ending. -/
theorem Finding.map_finding_endings (key : α → κ) (seen : List κ) (fs : List (Finding α)) :
    (endings key seen fs).map Ending.finding = fs := by
  fun_induction endings key seen fs with
  | case1 => rfl
  | case2 seen fs ih | case3 seen f fs ih | case4 seen a fs hseen ih | case5 seen a fs hseen ih =>
    rw [List.map_cons, ih]
    rfl

/-- The items that are collected are those that are made. -/
theorem Finding.filterMap_made?_endings (seen : List κ) (fs : List (Finding α)) :
    (endings key seen fs).filterMap Ending.made? =
      distinctBy key seen (fs.filterMap Finding.item?) := by
  fun_induction endings key seen fs with
  | case1 => rfl
  | case2 seen fs ih | case3 seen f fs ih => exact ih
  | case4 seen a fs hseen ih =>
    simp only [List.filterMap_cons, Ending.made?, item?, distinctBy, if_pos hseen, ih]
  | case5 seen a fs hseen ih =>
    simp only [List.filterMap_cons, Ending.made?, item?, distinctBy, if_neg hseen, ih]

/-- **Collecting findings** keeps the items that are made, and all failures. -/
theorem Resolved.collect_eq (fs : List (Finding α)) :
    Resolved.collect key fs = ⟨(Finding.endings key [] fs).filterMap Ending.made?,
      (Finding.endings key [] fs).filterMap Ending.failure?⟩ := by
  have hfailures : fs.filterMap Finding.failure? =
      (Finding.endings key [] fs).filterMap Ending.failure? := by
    conv_lhs => rw [← Finding.map_finding_endings key [] fs, List.filterMap_map]
    exact List.filterMap_congr fun e _ => e.failure?_finding
  rw [collect, Finding.filterMap_made?_endings, hfailures]

variable [LawfulBEq κ]

/-- An item is made only where its key has not come before. -/
theorem Finding.not_mem_seen_of_made {seen : List κ} {fs : List (Finding α)} {a : α}
    (h : .made a ∈ endings key seen fs) : key a ∉ seen := by
  fun_induction endings key seen fs with
  | case1 => cases h
  | case2 seen fs ih | case3 seen f fs ih | case4 seen b fs hseen ih =>
    rcases List.mem_cons.1 h with h | h
    · cases h
    · exact ih h
  | case5 seen b fs hseen ih =>
    rcases List.mem_cons.1 h with h | h
    · obtain rfl := Ending.made.inj h
      simpa using hseen
    · exact fun hmem => ih h (List.mem_cons_of_mem _ hmem)

/-- The keys of the items that are made differ. -/
theorem Finding.nodup_made (seen : List κ) (fs : List (Finding α)) :
    (((endings key seen fs).filterMap Ending.made?).map key).Nodup := by
  fun_induction endings key seen fs with
  | case1 => exact List.nodup_nil
  | case2 seen fs ih | case3 seen f fs ih | case4 seen a fs hseen ih => exact ih
  | case5 seen a fs hseen ih =>
    refine List.nodup_cons.2 ⟨fun hmem => ?_, ih⟩
    obtain ⟨b, hb, hkey⟩ := List.mem_map.1 hmem
    obtain ⟨e, he, hmade⟩ := List.mem_filterMap.1 hb
    cases e with
    | made c =>
      obtain rfl := Option.some.inj hmade
      exact not_mem_seen_of_made he (hkey ▸ List.mem_cons_self)
    | _ => cases hmade

/-- **What is repeated** was made before. -/
theorem Finding.exists_made_of_repeated {seen : List κ} {fs : List (Finding α)}
    {before after : List (Ending α)} {a : α}
    (h : endings key seen fs = before ++ .repeated a :: after) :
    key a ∈ seen ∨ ∃ b, .made b ∈ before ∧ key b = key a := by
  fun_induction endings key seen fs generalizing before with
  | case1 => simp at h
  | case2 seen fs ih | case3 seen f fs ih =>
    cases before with
    | nil => cases h
    | cons e before =>
      refine (ih (List.cons.inj h).2).imp_right ?_
      rintro ⟨b, hb, hkey⟩
      exact ⟨b, List.mem_cons_of_mem _ hb, hkey⟩
  | case4 seen b fs hseen ih =>
    cases before with
    | nil =>
      obtain rfl := Ending.repeated.inj (List.cons.inj h).1
      exact .inl (by simpa using hseen)
    | cons e before =>
      refine (ih (List.cons.inj h).2).imp_right ?_
      rintro ⟨b, hb, hkey⟩
      exact ⟨b, List.mem_cons_of_mem _ hb, hkey⟩
  | case5 seen b fs hseen ih =>
    cases before with
    | nil => cases h
    | cons e before =>
      obtain ⟨rfl, hrest⟩ := List.cons.inj h
      rcases ih hrest with hmem | ⟨c, hc, hkey⟩
      · rcases List.mem_cons.1 hmem with hkey | hmem
        · exact .inr ⟨b, List.mem_cons_self, hkey.symm⟩
        · exact .inl hmem
      · exact .inr ⟨c, List.mem_cons_of_mem _ hc, hkey⟩

end Endings

/-! ### Items -/

section Items

variable {α κ : Type} [BEq κ] [LawfulBEq κ] {host : Host} {key : α → κ}
  {find : Lookup → Candidate → Except Breakdown (Finding α)} {candidates : List Candidate}
  {findings : List (Finding α)}

/-- Whether a host finds items for candidates so that these end as told: what is repeated was made
before, and the items that are made have different keys. -/
structure Host.Ends (host : Host) (find : Lookup → Candidate → Except Breakdown (Finding α))
    (key : α → κ) (candidates : List Candidate) (endings : List (Ending α)) : Prop where
  found : List.Forall₂ (fun c e => ∃ unit : SourceUnit, unit.id = c.unit.id ∧
    find (host.lookup unit) c = .ok e.finding) candidates endings
  repeated : ∀ before a after, endings = before ++ .repeated a :: after →
    ∃ b, .made b ∈ before ∧ key b = key a
  distinct : ((endings.filterMap Ending.made?).map key).Nodup

/-- **Collecting ends every candidate,** and keeps its item or its failure. -/
theorem Host.exists_ends (key : α → κ) (h : host.findings find candidates = .ok findings) :
    ∃ endings, host.Ends find key candidates endings ∧
      Resolved.collect key findings =
        ⟨endings.filterMap Ending.made?, endings.filterMap Ending.failure?⟩ := by
  refine ⟨Finding.endings key [] findings, ⟨?_, ?_, Finding.nodup_made [] findings⟩,
    Resolved.collect_eq findings⟩
  · have hfound := forall₂_findings h
    rw [← Finding.map_finding_endings key [] findings, List.forall₂_map_right_iff] at hfound
    exact hfound
  · intro before a after heq
    exact (Finding.exists_made_of_repeated heq).resolve_left List.not_mem_nil

/-- Every item is found for a candidate. -/
theorem Host.exists_of_mem_items (h : host.findings find candidates = .ok findings) {a : α}
    (ha : a ∈ (Resolved.collect key findings).items) :
    ∃ unit c, find (host.lookup unit) c = .ok (.item a) := by
  obtain ⟨endings, hends, heq⟩ := exists_ends key h
  rw [heq] at ha
  obtain ⟨e, he, hmade⟩ := List.mem_filterMap.1 ha
  obtain ⟨c, -, unit, -, hfind⟩ := exists_partner hends.found he
  cases e with
  | made b =>
    obtain rfl := Option.some.inj hmade
    exact ⟨unit, c, hfind⟩
  | _ => cases hmade

/-- Of the items of one key the first is kept, unless the key has come before. -/
theorem filter_distinctBy (k : κ) (seen : List κ) (as : List α) :
    (distinctBy key seen as).filter (key · == k) =
      if seen.contains k then [] else (as.filter (key · == k)).head?.toList := by
  induction as generalizing seen with
  | nil => rw [distinctBy, List.filter_nil, List.head?_nil, Option.toList_none, ite_self]
  | cons a as ih =>
    rw [distinctBy]
    by_cases hk : key a = k
    · subst hk
      cases hseen : seen.contains (key a) with
      | true => rw [if_pos rfl, ih, if_pos hseen, if_pos rfl]
      | false =>
        have hnow : (key a :: seen).contains (key a) = true := by simp
        rw [if_neg (by decide), List.filter_cons_of_pos (by simp), ih, if_pos hnow,
          if_neg (by decide), List.filter_cons_of_pos (by simp), List.head?_cons, Option.toList_some]
    · have hdropped : ¬(key a == k) = true := by simpa using hk
      have hrest : (a :: as).filter (key · == k) = as.filter (key · == k) :=
        List.filter_cons_of_neg hdropped
      have hother : (key a :: seen).contains k = seen.contains k := by
        rw [List.contains_cons, beq_false_of_ne (Ne.symm hk), Bool.false_or]
      rw [hrest]
      cases seen.contains (key a) with
      | true => rw [if_pos rfl, ih]
      | false =>
        have hmade : (a :: distinctBy key (key a :: seen) as).filter (key · == k) =
            (distinctBy key (key a :: seen) as).filter (key · == k) :=
          List.filter_cons_of_neg hdropped
        rw [if_neg (by decide), hmade, ih, hother]

/-- **The items of one key** are one at most, if all candidates that give such an item give the same
one. -/
theorem Host.items_of_key (h : host.findings find candidates = .ok findings) {k : κ} {a? : Option α}
    (hfind : ∀ unit, ∀ c ∈ candidates, ∀ a, find (host.lookup unit) c = .ok (.item a) →
      key a = k → a? = some a)
    (hmade : ∀ a, a? = some a → key a = k ∧ ∃ c ∈ candidates, ∀ unit finding,
      find (host.lookup unit) c = .ok finding → finding = .item a) :
    (Resolved.collect key findings).items.filter (key · == k) = a?.toList := by
  have hfound := forall₂_findings h
  have hitems : ∀ b ∈ (findings.filterMap Finding.item?).filter (key · == k), a? = some b := by
    intro b hb
    obtain ⟨hmem, hkey⟩ := List.mem_filter.1 hb
    obtain ⟨finding, hfinding, hitem⟩ := List.mem_filterMap.1 hmem
    obtain ⟨c, hc, unit, -, hc'⟩ := exists_partner hfound hfinding
    cases finding with
    | item a =>
      obtain rfl := Option.some.inj hitem
      exact hfind unit c hc a hc' (eq_of_beq hkey)
    | _ => cases hitem
  rw [Resolved.collect, filter_distinctBy, if_neg (by simp)]
  cases hfilter : (findings.filterMap Finding.item?).filter (key · == k) with
  | cons b rest =>
    rw [hitems b (hfilter ▸ List.mem_cons_self)]
    rfl
  | nil =>
    cases a? with
    | none => rfl
    | some a =>
      obtain ⟨hkey, c, hc, hgives⟩ := hmade a rfl
      obtain ⟨finding, hfinding, unit, -, hc'⟩ := exists_partner hfound.flip hc
      have hmem : a ∈ (findings.filterMap Finding.item?).filter (key · == k) := by
        rw [hgives unit finding hc'] at hfinding
        exact List.mem_filter.2 ⟨List.mem_filterMap.2 ⟨_, hfinding, rfl⟩, beq_iff_eq.2 hkey⟩
      rw [hfilter] at hmem
      cases hmem

end Items

/-! ### Handlers -/

/-- **The handler that members make:** its members are the restricted ones among the fields, and
there is none without them. -/
theorem Handler.ofType?_eq (info : TypeInfo) (members fields eligible : List TypeMember)
    (hfields : fields = members.filter fun m => m.kind = .field && m.stored)
    (heligible : eligible = fields.filter (·.visibility = .restricted)) :
    Handler.ofType? info members =
      if eligible = [] then none
      else some
        { className := info.name
          space := info.space
          typePath := info.path
          members := eligible.map fun m => ⟨m.name, m.typeName⟩
          fillsRemaining := fields.any (·.visibility ≠ .restricted) } := by
  have hremaining : (!(fields.filter (not ∘ fun m => decide (m.visibility = .restricted))).isEmpty) =
      fields.any (·.visibility ≠ .restricted) := by
    rw [Bool.eq_iff_iff]
    simp [List.filter_eq_nil_iff]
  unfold Handler.ofType?
  rw [← hfields]
  dsimp only
  rw [List.partition_eq_filter_filter, ← heligible, hremaining]
  simp only [List.isEmpty_iff]

/-- The handler of a type has its path. -/
theorem Handler.typePath_of_ofType? {info : TypeInfo} {members : List TypeMember} {h : Handler}
    (hh : Handler.ofType? info members = some h) : h.typePath = info.path := by
  rw [Handler.ofType?_eq info members _ _ rfl rfl] at hh
  split_ifs at hh
  exact (congrArg Handler.typePath (Option.some.inj hh)).symm

/-- What is found for a declaration that is known: the handler that its members make, or nothing. -/
theorem Host.findHandler_eq_ok {host : Host} {lookup : Lookup} {c : Candidate} {d : Declaration}
    {info : TypeInfo} (hc : c.node = .declaration d) (hinfo : lookup.declaredType d = some info)
    {finding : Finding Handler} :
    host.findHandler lookup c = .ok finding ↔ ∃ members, host.membersOf info = .ok members ∧
      finding = ((Handler.ofType? info members).map Finding.item).getD .nothing := by
  unfold Host.findHandler
  rw [hc]
  dsimp only
  rw [hinfo]
  dsimp only
  rw [bind_eq_ok]
  refine exists_congr fun members => and_congr_right fun _ => ?_
  cases Handler.ofType? info members with
  | none =>
    constructor
    · exact fun h => (Except.ok.inj h).symm
    · rintro rfl
      rfl
  | some h =>
    constructor
    · exact fun h => (Except.ok.inj h).symm
    · rintro rfl
      rfl

/-! ### Lookups -/

namespace Host

variable {host : Host} {lookup : Lookup} {c : Candidate} {b : Breakdown}

/-- A call is no handler. -/
theorem findHandler_of_not_declaration (h : ¬∃ d, c.node = .declaration d) :
    host.findHandler lookup c = .ok .nothing := by
  unfold findHandler
  cases hnode : c.node with
  | declaration d => exact absurd ⟨d, hnode⟩ h
  | call call => rfl

/-- A declaration is no mapping. -/
theorem findMapping_of_not_call (h : ¬∃ call, c.node = .call call) :
    host.findMapping lookup c = .ok .nothing := by
  unfold findMapping
  cases hnode : c.node with
  | declaration d => rfl
  | call call => exact absurd ⟨call, hnode⟩ h

/-- A handler breaks down only where the members of a type do. -/
theorem exists_error_of_findHandler (h : host.findHandler lookup c = .error b) :
    ∃ info, host.membersOf info = .error b := by
  unfold findHandler at h
  split at h
  · cases h
  · split at h
    · cases h
    · rcases bind_eq_error.1 h with h | ⟨members, -, h⟩
      · exact ⟨_, h⟩
      · split at h <;> cases h

/-- A mapping breaks down only where the members of a type do. -/
theorem exists_error_of_findMapping (h : host.findMapping lookup c = .error b) :
    ∃ info, host.membersOf info = .error b := by
  unfold findMapping at h
  split at h
  · cases h
  · split at h
    · cases h
    · rcases bind_eq_error.1 h with h | ⟨sourceMembers, -, h⟩
      · exact ⟨_, h⟩
      rcases bind_eq_error.1 h with h | ⟨destMembers, -, h⟩
      · exact ⟨_, h⟩
      · cases h

/-- **Lookups never cross units.**  A host that makes a new lookup each time it is asked is asked
once for each run of candidates of one unit, whatever order they stand in, and every candidate is
resolved with the lookup of its run; a candidate of the other kind gives nothing.  Only the members
of a type can keep the candidates from being resolved, and a host whose lookups are always the same
resolves them as it does when nothing is noted. -/
theorem lookups_follow_runs (host : Host) (candidates : List Candidate) :
    ((∀ lookups resolved opened,
        (host.resolveHandlersBy (noteOpened lookups) candidates).run [] = .ok (resolved, opened) →
          FollowsRuns (·.typePath) (∃ d, · = .declaration d) host.findHandler lookups candidates
            resolved opened) ∧
      (∀ lookups b, (host.resolveHandlersBy (noteOpened lookups) candidates).run [] = .error b →
        ∃ info, host.membersOf info = .error b) ∧
      (host.resolveHandlersBy (noteOpened fun _ => host.lookup) candidates).run' [] =
        host.resolveHandlers candidates) ∧
    (∀ lookups resolved opened,
        (host.resolveMappingsBy (noteOpened lookups) candidates).run [] = .ok (resolved, opened) →
          FollowsRuns (fun m => (m.source, m.dest)) (∃ call, · = .call call) host.findMapping lookups
            candidates resolved opened) ∧
      (∀ lookups b, (host.resolveMappingsBy (noteOpened lookups) candidates).run [] = .error b →
        ∃ info, host.membersOf info = .error b) ∧
      (host.resolveMappingsBy (noteOpened fun _ => host.lookup) candidates).run' [] =
        host.resolveMappings candidates := by
  refine ⟨⟨fun lookups resolved opened h => ?_, fun lookups b h => ?_, ?_⟩,
    fun lookups resolved opened h => ?_, fun lookups b h => ?_, ?_⟩
  · exact followsRuns_of_resolveBy (fun lookup c => findHandler_of_not_declaration) h
  · obtain ⟨lookup, c, -, hfind⟩ := exists_error_of_resolveBy h
    exact exists_error_of_findHandler hfind
  · exact run'_resolveBy _ host.findHandler host.lookup candidates
  · exact followsRuns_of_resolveBy (fun lookup c => findMapping_of_not_call) h
  · obtain ⟨lookup, c, -, hfind⟩ := exists_error_of_resolveBy h
    exact exists_error_of_findMapping hfind
  · exact run'_resolveBy _ host.findMapping host.lookup candidates

/-- A host that finds one restricted field in every type. -/
def fieldHost : Host where
  lookup _ :=
    { resolveType := fun _ => none
      declaredType := fun d => some ⟨d.name, d.path, d.space, .struct⟩
      resolvesReceiver := fun _ _ => false }
  membersOf _ := .ok [⟨"size", "u8", .restricted, .field, true⟩]

/-- Candidates of two units by turns, with a call between two declarations of one unit. -/
def turnCandidates : List Candidate :=
  let first : SourceUnit := ⟨0, "first.rs", []⟩
  let second : SourceUnit := ⟨1, "second.rs", []⟩
  let struct (name : String) : CorpusNode := .declaration ⟨name, "crate", .struct, [], true⟩
  [⟨first, struct "Cup"⟩, ⟨second, struct "Jug"⟩, ⟨second, .call ⟨[], "pour", [], "crate"⟩⟩,
    ⟨second, struct "Pot"⟩, ⟨first, struct "Mug"⟩]

theorem lookups_follow_runs_turns : ∃ resolved opened,
    (fieldHost.resolveHandlersBy (noteOpened fun _ => fieldHost.lookup) turnCandidates).run [] =
        .ok (resolved, opened) ∧
      opened.map (·.id) = [0, 1, 0] ∧ resolved.items.length = 4 := by
  have hids : (turnCandidates.map (·.unit.id)).destutter (· ≠ ·) = [0, 1, 0] := by decide
  have hitems : (fieldHost.resolveHandlers turnCandidates).map (·.items.length) = .ok 4 := by
    decide +kernel
  obtain ⟨⟨hfollows, hbreaks, hsame⟩, -⟩ := lookups_follow_runs fieldHost turnCandidates
  cases hrun : (fieldHost.resolveHandlersBy (noteOpened fun _ => fieldHost.lookup)
      turnCandidates).run [] with
  | error b =>
    obtain ⟨info, hinfo⟩ := hbreaks _ b hrun
    cases hinfo
  | ok result =>
    refine ⟨result.1, result.2, rfl, (hfollows _ _ _ hrun).ids.trans hids, ?_⟩
    have hresolved : fieldHost.resolveHandlers turnCandidates = .ok result.1 := by
      rw [← hsame]
      exact congrArg (Except.map (·.1)) hrun
    rw [hresolved] at hitems
    exact Except.ok.inj hitems

end Host

end Scaffold
