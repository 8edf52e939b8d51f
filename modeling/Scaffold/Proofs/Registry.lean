import Mathlib.Data.List.Induction
import Scaffold.Proofs.ArtifactId
import Scaffold.Proofs.Earlier

/-!
# Registries over many insertions

What a registry holds is determined by the artifacts that were offered to it: those that are the
first with their identifiers (`Registry.firsts`), and all their identifiers.  One artifact more is
refused exactly if its identifier was offered before (`Registry.Holds.offer_of_mem`), and added
otherwise (`Registry.Holds.offer_of_not_mem`); `Registry.holds_offers` carries this through any
number of insertions, and `Registry.offers_keep_firsts` says what can be seen of it.
-/

namespace Scaffold.Registry

/-! ### The first artifact of each identifier -/

/-- **The artifacts that are the first with their identifiers,** in their order. -/
def firsts (as : List Artifact) : List Artifact :=
  (withEarlier as).filterMap fun (earlier, a) =>
    if a.id ∈ earlier.map (·.id) then none else some a

theorem firsts_concat_of_mem {as : List Artifact} {a : Artifact} (h : a.id ∈ as.map (·.id)) :
    firsts (as ++ [a]) = firsts as := by
  simp only [firsts, withEarlier_concat, List.filterMap_append, List.filterMap_cons,
    List.filterMap_nil, if_pos h, List.append_nil]

theorem firsts_concat_of_not_mem {as : List Artifact} {a : Artifact} (h : a.id ∉ as.map (·.id)) :
    firsts (as ++ [a]) = firsts as ++ [a] := by
  simp only [firsts, withEarlier_concat, List.filterMap_append, List.filterMap_cons,
    List.filterMap_nil, if_neg h]

/-- Every identifier has a first artifact. -/
theorem mem_ids_firsts {as : List Artifact} {id : String} :
    id ∈ (firsts as).map (·.id) ↔ id ∈ as.map (·.id) := by
  induction as using List.reverseRecOn with
  | nil => rfl
  | append_singleton as a ih =>
    by_cases h : a.id ∈ as.map (·.id)
    · -- the identifier of `a` is among those before it, so `a` makes no difference on either side
      rw [firsts_concat_of_mem h, ih, List.map_append, List.mem_append]
      constructor
      · exact .inl
      · rintro (hid | hid)
        · exact hid
        · obtain rfl := List.mem_singleton.1 hid
          exact h
    · rw [firsts_concat_of_not_mem h, List.map_append, List.map_append, List.mem_append,
        List.mem_append, ih]

/-- A search for an identifier ends at its first artifact. -/
theorem find?_firsts (as : List Artifact) (id : String) :
    (firsts as).find? (·.id == id) = as.find? (·.id == id) := by
  induction as using List.reverseRecOn with
  | nil => rfl
  | append_singleton as a ih =>
    by_cases h : a.id ∈ as.map (·.id)
    · rw [firsts_concat_of_mem h, ih, List.find?_append]
      by_cases hid : a.id = id
      · obtain ⟨b, hb, hbid⟩ := List.mem_map.1 h
        have hfound : (as.find? (·.id == id)).isSome := by
          rw [List.find?_isSome]
          exact ⟨b, hb, by simp [hbid, hid]⟩
        obtain ⟨c, hc⟩ := Option.isSome_iff_exists.1 hfound
        rw [hc, Option.some_or]
      · have hother : [a].find? (·.id == id) = none := by simp [hid]
        rw [hother, Option.or_none]
    · rw [firsts_concat_of_not_mem h, List.find?_append, List.find?_append, ih]

/-! ### One insertion -/

theorem run_offer_of_ok {r next : Registry} {a : Artifact} (h : r.insert a = .ok next) :
    (offer a).run r = (.ok (), next) := by
  unfold offer
  simp only [StateT.run, h]

theorem run_offer_of_error {r : Registry} {a : Artifact} {f : Failure}
    (h : r.insert a = .error f) : (offer a).run r = (.error f, r) := by
  unfold offer
  simp only [StateT.run, h]

/-- **Whether a registry holds** what it has to after artifacts were offered to it. -/
structure Holds (offered : List Artifact) (r : Registry) : Prop where
  artifacts : r.artifacts = firsts offered
  mem_taken : ∀ id, id ∈ r.taken ↔ id ∈ offered.map (·.id)

theorem holds_empty : Holds [] empty where
  artifacts := rfl
  mem_taken _ := Iff.rfl

namespace Holds

variable {offered : List Artifact} {r : Registry} (h : r.Holds offered) {a : Artifact}

include h

/-- An identifier that was offered before is refused, and nothing changes. -/
theorem offer_of_mem (ha : a.id ∈ offered.map (·.id)) :
    (offer a).run r = (.error (.duplicateArtifact a.id), r) ∧ r.Holds (offered ++ [a]) := by
  have htaken : a.id ∈ r.taken := (h.mem_taken a.id).2 ha
  constructor
  · apply run_offer_of_error
    rw [insert, dif_pos htaken]
  · constructor
    · rw [h.artifacts, firsts_concat_of_mem ha]
    · intro id
      rw [h.mem_taken, List.map_append, List.mem_append]
      constructor
      · exact .inl
      · rintro (hid | hid)
        · exact hid
        · obtain rfl := List.mem_singleton.1 hid
          exact ha

/-- Any other is added. -/
theorem offer_of_not_mem (ha : a.id ∉ offered.map (·.id)) :
    ∃ next, (offer a).run r = (.ok (), next) ∧ next.Holds (offered ++ [a]) := by
  have hnew : a.id ∉ r.ids := by
    intro hmem
    exact ha ((h.mem_taken a.id).1 ((r.mem_taken a.id).2 hmem))
  obtain ⟨next, hnext, hartifacts⟩ := exists_insert hnew
  refine ⟨next, run_offer_of_ok hnext, ?_, ?_⟩
  · rw [hartifacts, h.artifacts, firsts_concat_of_not_mem ha]
  · intro id
    rw [next.mem_taken, hartifacts, List.map_append, List.map_append, List.mem_append,
      List.mem_append, h.artifacts, mem_ids_firsts]

end Holds

/-! ### Many insertions -/

/-- What insertions answer: an artifact is refused if its identifier was offered before it. -/
def answers (as : List Artifact) : List (Except Failure Unit) :=
  (withEarlier as).map fun (earlier, a) =>
    if a.id ∈ earlier.map (·.id) then .error (.duplicateArtifact a.id) else .ok ()

theorem run_mapM_offer_concat (as : List Artifact) (a : Artifact) (r : Registry) :
    ((as ++ [a]).mapM offer).run r =
      (((as.mapM offer).run r).1 ++ [((offer a).run ((as.mapM offer).run r).2).1],
        ((offer a).run ((as.mapM offer).run r).2).2) := by
  rw [List.mapM_append]
  rfl

/-- **What a registry holds** after any number of insertions, and what they have answered. -/
theorem holds_offers (as : List Artifact) :
    ((as.mapM offer).run empty).1 = answers as ∧ ((as.mapM offer).run empty).2.Holds as := by
  induction as using List.reverseRecOn with
  | nil => exact ⟨rfl, holds_empty⟩
  | append_singleton as a ih =>
    obtain ⟨hanswers, hholds⟩ := ih
    rw [run_mapM_offer_concat, hanswers]
    by_cases ha : a.id ∈ as.map (·.id)
    · obtain ⟨hoffer, hnext⟩ := hholds.offer_of_mem ha
      rw [hoffer]
      refine ⟨?_, hnext⟩
      simp only [answers, withEarlier_concat, List.map_append, List.map_cons, List.map_nil,
        if_pos ha]
    · obtain ⟨next, hoffer, hnext⟩ := hholds.offer_of_not_mem ha
      rw [hoffer]
      refine ⟨?_, hnext⟩
      simp only [answers, withEarlier_concat, List.map_append, List.map_cons, List.map_nil,
        if_neg ha]

/-- **A registry keeps the first artifact of each identifier.**  After any artifacts were offered to
a new registry, it has those that are the first with their identifiers, in the order in which they
came, and the identifiers that are taken are theirs.  One more is refused exactly if its identifier
was offered before, and then nothing changes.  Looking up an identifier finds the first artifact
that was offered with it. -/
theorem offers_keep_firsts (as : List Artifact) :
    let run := (as.mapM offer).run empty
    run.2.artifacts = firsts as ∧
      (∀ id, id ∈ run.2.taken ↔ id ∈ run.2.artifacts.map (·.id)) ∧
      run.1 = answers as ∧
      (∀ a f next, (offer a).run run.2 = (.error f, next) ↔
        a.id ∈ as.map (·.id) ∧ f = .duplicateArtifact a.id ∧ next = run.2) ∧
      ∀ id, run.2.get? id = as.find? (·.id == id) := by
  intro run
  obtain ⟨hanswers, hholds⟩ : run.1 = answers as ∧ run.2.Holds as := holds_offers as
  refine ⟨hholds.artifacts, ?_, hanswers, ?_, ?_⟩
  · intro id
    rw [hholds.mem_taken, hholds.artifacts, mem_ids_firsts]
  · intro a f next
    by_cases ha : a.id ∈ as.map (·.id)
    · rw [(hholds.offer_of_mem ha).1]
      constructor
      · intro hrefused
        obtain ⟨hf, hnext⟩ := Prod.mk.inj hrefused
        exact ⟨ha, (Except.error.inj hf).symm, hnext.symm⟩
      · rintro ⟨-, rfl, rfl⟩
        rfl
    · obtain ⟨added, hoffer, -⟩ := hholds.offer_of_not_mem ha
      rw [hoffer]
      constructor
      · intro hrefused
        cases (Prod.mk.inj hrefused).1
      · rintro ⟨hmem, -⟩
        exact absurd hmem ha
  · intro id
    rw [get?, hholds.artifacts, find?_firsts]

end Scaffold.Registry
