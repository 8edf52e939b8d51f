import Scaffold.Proofs.Failure
import Scaffold.Proofs.Naming.Words

/-!
# What is wrong with an entity

`Entity.faults` lists everything that keeps an entity from being generated, each fault on its own and
in the order in which it is looked for: first what concerns the entity as a whole, then the names of
its members, then the fields that are made of them, and last the key.  The checks stop at the first
thing that they find, which is the first of the list (`Entity.reports_plan`).  How a check relates to
a list of faults is told by `Reports`; checks that are made one after the other report the faults of
both (`Reports.bind`), so each check is read by itself.

The list is empty for the entities that can be generated (`Entity.faults_eq_nil_iff`), so these are
exactly the entities that are not refused (`Entity.artifact_refused_iff`).
-/

namespace Scaffold

open Syntax

/-! ### Reports -/

/-- A fault, where it is found. -/
def faultIf {ε : Type} (found : Prop) [Decidable found] (fault : ε) : List ε :=
  if found then [fault] else []

@[simp]
theorem faultIf_eq_nil_iff {ε : Type} {found : Prop} [Decidable found] {fault : ε} :
    faultIf found fault = [] ↔ ¬found := by
  simp [faultIf]

/-- Whether a check reports the first of a list of faults, and nothing where there are none. -/
def Reports {ε α : Type} (x : Except ε α) (faults : List ε) : Prop :=
  ∀ f, x = .error f ↔ faults.head? = some f

namespace Reports

variable {ε α β : Type} {x : Except ε α} {faults more : List ε}

theorem ok (a : α) : Reports (.ok a : Except ε α) [] := fun _ => iff_of_false nofun nofun

theorem error (f : ε) : Reports (.error f : Except ε α) (f :: faults) := fun f' => by
  rw [Except.error.injEq, List.head?_cons, Option.some.injEq]

/-- A check that has come to its end has no faults. -/
theorem eq_nil (h : Reports x faults) {a : α} (hx : x = .ok a) : faults = [] := by
  cases faults with
  | nil => rfl
  | cons f faults =>
    have herror : x = .error f := (h f).2 rfl
    rw [hx] at herror
    cases herror

/-- **Checks one after the other** report the faults of the first, and then those of the second. -/
theorem bind (hx : Reports x faults) {k : α → Except ε β}
    (hk : ∀ a, x = .ok a → Reports (k a) more) : Reports (x >>= k) (faults ++ more) := by
  cases hresult : x with
  | ok a =>
    rw [hx.eq_nil hresult, List.nil_append]
    exact hk a hresult
  | error e =>
    obtain ⟨rest, hrest⟩ := List.head?_eq_some_iff.1 ((hx e).1 hresult)
    rw [hrest, List.cons_append]
    exact error e

/-- What comes after a check that has no faults of its own. -/
theorem bind_ok (hx : Reports x faults) (k : α → β) :
    Reports (x >>= fun a => .ok (k a)) faults := by
  rw [← List.append_nil faults]
  exact hx.bind fun a _ => ok (k a)

/-- A check that stops under a condition, which is that of a fault. -/
theorem stop {c found : Prop} [Decidable c] [Decidable found] (hc : c ↔ found) {f : ε}
    (hx : ¬found → Reports x faults) :
    Reports (if c then .error f else x) (faultIf found f ++ faults) := by
  by_cases hfound : found
  · rw [if_pos (hc.2 hfound), faultIf, if_pos hfound]
    exact error f
  · rw [if_neg (mt hc.1 hfound), faultIf, if_neg hfound]
    exact hx hfound

end Reports

/-! ### Names and types -/

/-- Names in lower case that cannot be made identifiers, not even raw ones. -/
def Naming.unusableNames : List String := ["_", "self", "super", "crate"]

/-- What is wrong with a name that is shaped like an identifier. -/
theorem Naming.reports_ident {name : String} (h : isIdentifier name = true) (hself : name ≠ "Self")
    (context : String) : Reports (ident name context)
      (faultIf (name ∈ unusableNames) (.invalidIdentifier name context)) := by
  have hnever : name ∈ Ident.neverRaw ↔ name ∈ unusableNames := by
    simp [Ident.neverRaw, unusableNames, hself, or_left_comm]
  have hkeyword : ∀ never ∈ Ident.neverRaw, isKeyword never = true := by decide
  rw [ident, h, Bool.not_true, if_neg Bool.false_ne_true, List.contains_eq_mem]
  by_cases hname : name ∈ unusableNames
  · rw [faultIf, if_pos hname, hkeyword name (hnever.2 hname), decide_eq_true (hnever.2 hname)]
    exact .error _
  · rw [faultIf, if_neg hname, decide_eq_false (mt hnever.1 hname), if_neg Bool.false_ne_true]
    split_ifs
    · exact .ok _
    · exact .ok _

theorem reports_namedType (text context : String) : Reports (namedType text context)
    (faultIf ((readType text).isNone) (.invalidType text context)) := by
  unfold namedType
  cases readType text with
  | some type => exact .ok type
  | none => exact .error _

namespace Entity

/-! ### Faults -/

/-- What a check finds in members, each of them seen after those before it. -/
def faultsIn (check : List EntityMember → EntityMember → List Failure) :
    (before : List EntityMember) → List EntityMember → List Failure
  | _, [] => []
  | before, m :: ms => check before m ++ faultsIn check (before ++ [m]) ms

/-- What is wrong with the name of a member. -/
def nameFaults (entity : String) (before : List EntityMember) (m : EntityMember) : List Failure :=
  faultIf (Naming.isIdentifier m.name = false) (.invalidIdentifier m.name entity) ++
    faultIf (m.name ∈ before.map (·.name)) (.duplicateMember entity m.name)

/-- The name of a member's field. -/
def fieldName (m : EntityMember) : String := Naming.snakeCase m.name

/-- What is wrong with the field that is made of a member. -/
def fieldFaults (s : Settings) (entity : String) (before : List EntityMember) (m : EntityMember) :
    List Failure :=
  faultIf (fieldName m ∈ before.map fieldName) (.duplicateMember entity m.name) ++
    (faultIf (fieldName m ∈ Naming.unusableNames) (.invalidIdentifier (fieldName m) entity) ++
      faultIf (readType (s.api.resolveTypeName m.typeName)).isNone
        (.invalidType (s.api.resolveTypeName m.typeName) entity))

/-- What is wrong with an entity whatever is generated from it. -/
def shapeFaults (e : Entity) : List Failure :=
  faultIf (Naming.isIdentifier e.name = false) (.invalidIdentifier e.name "entity name") ++
    (faultIf (e.members = []) (.noMembers e.name) ++
      faultsIn (nameFaults e.name) [] e.members)

/-- **Everything that is wrong with an entity,** in the order in which it is looked for. -/
def faults (s : Settings) (e : Entity) : List Failure :=
  e.shapeFaults ++
    (faultsIn (fieldFaults s e.name) [] e.members ++
      faultIf (∀ m ∈ e.members, m.isKey = false) (.noKeys e.name))

/-- **Whether an entity can be generated.** -/
structure IsGeneratable (s : Settings) (e : Entity) : Prop where
  name : Naming.isIdentifier e.name = true
  nonempty : e.members ≠ []
  names : ∀ m ∈ e.members, Naming.isIdentifier m.name = true
  distinct : (e.members.map (·.name)).Nodup
  /-- The names differ in snake case too. -/
  fieldsDistinct : (e.members.map fun m => Naming.snakeCase m.name).Nodup
  usable : ∀ m ∈ e.members, Naming.snakeCase m.name ∉ ["_", "self", "super", "crate"]
  types : ∀ m ∈ e.members, (readType (s.api.resolveTypeName m.typeName)).isSome = true
  key : ∃ m ∈ e.members, m.isKey = true

variable {s : Settings} {e : Entity} {before ms : List EntityMember}

/-- Members have no faults where each is right by itself and no two have the same name, whichever
name the check goes by. -/
theorem faultsIn_eq_nil_iff {check : List EntityMember → EntityMember → List Failure}
    {P : EntityMember → Prop} {key : EntityMember → String}
    (hcheck : ∀ before m, check before m = [] ↔ P m ∧ key m ∉ before.map key)
    (hbefore : (before.map key).Nodup) :
    faultsIn check before ms = [] ↔ (∀ m ∈ ms, P m) ∧ ((before ++ ms).map key).Nodup := by
  induction ms generalizing before with
  | nil => simpa [faultsIn] using hbefore
  | cons m ms ih =>
    have hconcat : ((before ++ [m]).map key).Nodup ↔ key m ∉ before.map key := by
      rw [List.map_append, List.map_singleton, List.nodup_append_comm, List.singleton_append,
        List.nodup_cons]
      exact and_iff_left hbefore
    have hassoc : before ++ m :: ms = before ++ [m] ++ ms := by
      rw [List.append_assoc, List.singleton_append]
    rw [faultsIn, List.append_eq_nil_iff, hcheck, List.forall_mem_cons, hassoc]
    by_cases hmem : key m ∈ before.map key
    · -- the name stands before already, so there is a fault and the names are not distinct
      refine iff_of_false (fun h => h.1.2 hmem) fun h => ?_
      have hnodup := h.2
      rw [List.map_append] at hnodup
      exact hconcat.1 hnodup.of_append_left hmem
    · rw [ih (hconcat.2 hmem)]
      exact ⟨fun h => ⟨⟨h.1.1, h.2.1⟩, h.2.2⟩, fun h => ⟨⟨h.1.1, hmem⟩, h.1.2, h.2⟩⟩

/-- Members that are all seen have no faults where each is right by itself and no two have the same
name. -/
theorem faultsIn_nil_eq_nil_iff {check : List EntityMember → EntityMember → List Failure}
    {P : EntityMember → Prop} {key : EntityMember → String}
    (hcheck : ∀ before m, check before m = [] ↔ P m ∧ key m ∉ before.map key) :
    faultsIn check [] ms = [] ↔ (∀ m ∈ ms, P m) ∧ (ms.map key).Nodup :=
  faultsIn_eq_nil_iff hcheck List.nodup_nil

theorem nameFaults_eq_nil_iff (entity : String) (before : List EntityMember) (m : EntityMember) :
    nameFaults entity before m = [] ↔
      Naming.isIdentifier m.name = true ∧ m.name ∉ before.map (·.name) := by
  rw [nameFaults, List.append_eq_nil_iff, faultIf_eq_nil_iff, faultIf_eq_nil_iff,
    Bool.not_eq_false]

theorem fieldFaults_eq_nil_iff (s : Settings) (entity : String) (before : List EntityMember)
    (m : EntityMember) :
    fieldFaults s entity before m = [] ↔
      (fieldName m ∉ Naming.unusableNames ∧
        (readType (s.api.resolveTypeName m.typeName)).isSome = true) ∧
      fieldName m ∉ before.map fieldName := by
  rw [fieldFaults, List.append_eq_nil_iff, List.append_eq_nil_iff, faultIf_eq_nil_iff,
    faultIf_eq_nil_iff, faultIf_eq_nil_iff, Bool.not_eq_true, Option.isNone_eq_false_iff]
  exact and_comm

/-- **An entity without faults** is one that can be generated. -/
theorem faults_eq_nil_iff : e.faults s = [] ↔ e.IsGeneratable s := by
  simp only [faults, shapeFaults, List.append_eq_nil_iff, faultIf_eq_nil_iff,
    faultsIn_nil_eq_nil_iff (nameFaults_eq_nil_iff e.name),
    faultsIn_nil_eq_nil_iff (fieldFaults_eq_nil_iff s e.name)]
  constructor
  · rintro ⟨⟨hname, hnonempty, hall, hdistinct⟩, ⟨hfield, hfieldsDistinct⟩, hkey⟩
    exact ⟨by simpa using hname, hnonempty, hall, hdistinct, hfieldsDistinct,
      fun m hm => (hfield m hm).1, fun m hm => (hfield m hm).2, by simpa using hkey⟩
  · intro h
    exact ⟨⟨by simpa using h.name, h.nonempty, h.names, h.distinct⟩,
      ⟨fun m hm => ⟨h.usable m hm, h.types m hm⟩, h.fieldsDistinct⟩, by simpa using h.key⟩

/-! ### Checks -/

/-- One more name has been seen. -/
theorem mem_seen_concat {key : EntityMember → String} {seen : List String}
    (hseen : ∀ name, name ∈ seen ↔ name ∈ before.map key) (m : EntityMember) :
    ∀ name, name ∈ key m :: seen ↔ name ∈ (before ++ [m]).map key := by
  intro name
  rw [List.mem_cons, hseen, List.map_append, List.mem_append, List.map_singleton,
    List.mem_singleton, or_comm]

theorem reports_validateMembers (entity : String) {seen : List String}
    (hseen : ∀ name, name ∈ seen ↔ name ∈ before.map (·.name)) :
    Reports (validateMembers entity seen ms) (faultsIn (nameFaults entity) before ms) := by
  induction ms generalizing seen before with
  | nil => exact .ok _
  | cons m ms ih =>
    rw [validateMembers, faultsIn, nameFaults, List.append_assoc]
    refine .stop (by rw [Bool.not_eq_true']) fun _ => ?_
    refine .stop (by rw [List.contains_iff_mem, hseen]) fun _ => ?_
    exact ih (mem_seen_concat hseen m)

/-- What the check of an entity by itself reports. -/
theorem reports_validate (e : Entity) : Reports e.validate e.shapeFaults := by
  refine .stop (by rw [Bool.not_eq_true']) fun _ => ?_
  refine .stop List.isEmpty_iff fun _ => ?_
  exact reports_validateMembers e.name fun _ => Iff.rfl

/-- A name in snake case is not in upper case. -/
theorem fieldName_ne_self {m : EntityMember} (h : Naming.isIdentifier m.name = true) :
    fieldName m ≠ "Self" := by
  intro hself
  have hlower := Naming.not_isUpper_of_mem_snakeChars none (Naming.isAscii_of_isIdentifier h)
  have hchars : Naming.snakeChars none m.name.toList = "Self".toList := by
    rw [← hself, fieldName, Naming.snakeCase, String.toList_ofList]
  rw [hchars] at hlower
  exact absurd (hlower 'S' List.mem_cons_self) (by decide)

/-- What the making of fields reports. -/
theorem reports_fieldsOf (s : Settings) (entity : String) {seen : List String}
    (hseen : ∀ name, name ∈ seen ↔ name ∈ before.map fieldName)
    (hnames : ∀ m ∈ ms, Naming.isIdentifier m.name = true) :
    Reports (EntityPlan.fieldsOf s entity seen ms)
      (faultsIn (fieldFaults s entity) before ms) := by
  induction ms generalizing seen before with
  | nil => exact .ok _
  | cons m ms ih =>
    obtain ⟨hname, hnames⟩ := List.forall_mem_cons.1 hnames
    have hident := Naming.reports_ident (Naming.isIdentifier_snakeCase hname)
      (fieldName_ne_self hname) entity
    rw [faultsIn, fieldFaults, List.append_assoc, List.append_assoc]
    refine .stop (by rw [List.contains_iff_mem, ← hseen]; rfl) fun _ => ?_
    refine hident.bind fun ident _ => (reports_namedType _ _).bind fun type _ => ?_
    exact (ih (mem_seen_concat hseen m) hnames).bind_ok _

/-- The keys among the fields are those among the members. -/
theorem map_isKey_fieldsOf {entity : String} {seen : List String} {fields : List PlannedField}
    (h : EntityPlan.fieldsOf s entity seen ms = .ok fields) :
    fields.map (·.isKey) = ms.map (·.isKey) := by
  induction ms generalizing seen fields with
  | nil =>
    obtain rfl := Except.ok.inj h
    rfl
  | cons m ms ih =>
    unfold EntityPlan.fieldsOf at h
    dsimp only at h
    split_ifs at h
    obtain ⟨ident, -, h⟩ := bind_eq_ok.1 h
    obtain ⟨type, -, h⟩ := bind_eq_ok.1 h
    obtain ⟨rest, hrest, h⟩ := bind_eq_ok.1 h
    obtain rfl := Except.ok.inj h
    rw [List.map_cons, List.map_cons, ih hrest]

/-- **The plan of an entity** reports the first of its faults. -/
theorem reports_plan (s : Settings) (e : Entity) : Reports (EntityPlan.of s e) (e.faults s) := by
  refine e.reports_validate.bind fun _ hvalid => ?_
  have hnames : ∀ m ∈ e.members, Naming.isIdentifier m.name = true := by
    have hnil := e.reports_validate.eq_nil hvalid
    rw [shapeFaults, List.append_eq_nil_iff, List.append_eq_nil_iff] at hnil
    exact ((faultsIn_nil_eq_nil_iff (nameFaults_eq_nil_iff e.name)).1 hnil.2.2).1
  have hreports : Reports (EntityPlan.fieldsOf s e.name [] e.members)
      (faultsIn (fieldFaults s e.name) [] e.members) :=
    reports_fieldsOf s e.name (fun _ => Iff.rfl) hnames
  refine hreports.bind fun fields hfields => ?_
  have hkeys : fields.any (·.isKey) = e.members.any (·.isKey) := by
    have hmap := map_isKey_fieldsOf hfields
    rw [← Function.id_comp (PlannedField.isKey), ← List.any_map, hmap, List.any_map]
    rfl
  rw [hkeys]
  by_cases hkey : ∀ m ∈ e.members, m.isKey = false
  · have hnone : e.members.any (·.isKey) = false := by simpa using hkey
    rw [hnone, faultIf, if_pos hkey]
    exact .error _
  · have hsome : e.members.any (·.isKey) = true := by simpa using hkey
    rw [hsome, faultIf, if_neg hkey]
    exact .ok _

/-! ### Refused entities -/

/-- An artifact is refused for what is wrong with the entity where its plan is; what comes after the
plan is no fault of the entity. -/
theorem artifact_eq_error_iff {rt : Node} {derives : List Node} (hrt : s.runtime = .ok rt)
    (hderives : s.api.derivePaths = .ok derives) (e : Entity) (f : Failure) :
    (e.artifact s = .error (.failure f) ∧ f.scope = .entity) ↔ EntityPlan.of s e = .error f := by
  have hafter (plan : EntityPlan) : FailsOnly (Stop.Fails fun f => f = .malformed e.artifactId)
      (Stop.ofBreakdown (plan.tokens s rt derives) >>= Artifact.ofTokens e.artifactId) :=
    (FailsOnly.ofBreakdown _).bind fun tokens _ => Artifact.failsOnly_ofTokens _ tokens
  unfold artifact
  rw [hrt, hderives]
  cases hplan : EntityPlan.of s e with
  | ok plan =>
    refine iff_of_false (fun h => ?_) nofun
    obtain rfl : f = .malformed e.artifactId := hafter plan _ h.1
    cases h.2
  | error f' =>
    constructor
    · intro h
      rw [Stop.failure.inj (Except.error.inj h.1)]
    · intro h
      obtain rfl := Except.error.inj h
      exact ⟨rfl, EntityPlan.failsOnly_of s e f' hplan⟩

/-- **The entities that are refused** are exactly those that cannot be generated, and what is
reported of such an entity is the first of its faults. -/
theorem artifact_refused_iff {rt : Node} {derives : List Node} (hrt : s.runtime = .ok rt)
    (hderives : s.api.derivePaths = .ok derives) (e : Entity) :
    ((∃ f, e.artifact s = .error (.failure f) ∧ f.scope = .entity) ↔ ¬e.IsGeneratable s) ∧
    ∀ f, (e.artifact s = .error (.failure f) ∧ f.scope = .entity) ↔
      (e.faults s).head? = some f := by
  have hfirst (f : Failure) : (e.artifact s = .error (.failure f) ∧ f.scope = .entity) ↔
      (e.faults s).head? = some f :=
    (artifact_eq_error_iff hrt hderives e f).trans (reports_plan s e f)
  refine ⟨?_, hfirst⟩
  rw [← faults_eq_nil_iff, ← List.head?_eq_none_iff, ← ne_eq, Option.ne_none_iff_exists']
  exact exists_congr hfirst

/-- An entity with two members whose names differ, but not in snake case, and without a key. -/
def repeatedUser : Entity :=
  ⟨"User", [⟨"UserId", "int", false, .both⟩, ⟨"user_id", "no type", false, .both⟩]⟩

theorem artifact_refused_iff_repeated :
    (∃ rt, Settings.runtime {} = .ok rt) ∧
    (∃ derives, ApiSettings.derivePaths {} = .ok derives) ∧
    repeatedUser.faults {} = [.duplicateMember "User" "user_id", .invalidType "no type" "User",
      .noKeys "User"] ∧
    repeatedUser.artifact {} = .error (.failure (.duplicateMember "User" "user_id")) ∧
    ¬repeatedUser.IsGeneratable {} := by
  have hvalid : Settings.validate {} = .ok () := by decide +kernel
  obtain ⟨⟨rt, hrt⟩, derives, hderives⟩ := Settings.exists_of_validate hvalid
  have hfaults : repeatedUser.faults {} = [.duplicateMember "User" "user_id",
      .invalidType "no type" "User", .noKeys "User"] := by decide +kernel
  obtain ⟨hrefused, hfirst⟩ := artifact_refused_iff hrt hderives repeatedUser
  have hreported := (hfirst (.duplicateMember "User" "user_id")).2 (by rw [hfaults]; rfl)
  exact ⟨⟨rt, hrt⟩, ⟨derives, hderives⟩, hfaults, hreported.1, hrefused.1 ⟨_, hreported⟩⟩

end Entity

end Scaffold
