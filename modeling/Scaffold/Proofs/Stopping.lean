import Scaffold.Failure
import Mathlib.Data.List.Forall2

/-!
# Computations that may stop

How a computation in several steps ends, in terms of its steps: a sequence, a list of computations
and a fold.  A fold stops at the first element that stops it (`foldlM_eq_error`).
-/

namespace Scaffold

section Except

variable {ε α β : Type}

theorem ok_bind (a : α) (f : α → Except ε β) : (Except.ok a >>= f) = f a := rfl

theorem bind_eq_ok {x : Except ε α} {f : α → Except ε β} {b : β} :
    (x >>= f) = .ok b ↔ ∃ a, x = .ok a ∧ f a = .ok b := by
  cases x with
  | error e =>
    constructor
    · intro h
      cases h
    · rintro ⟨a, ha, -⟩
      cases ha
  | ok a =>
    constructor
    · intro h
      exact ⟨a, rfl, h⟩
    · rintro ⟨a', ha, hb⟩
      obtain rfl := Except.ok.inj ha
      exact hb

theorem bind_eq_error {x : Except ε α} {f : α → Except ε β} {e : ε} :
    (x >>= f) = .error e ↔ x = .error e ∨ ∃ a, x = .ok a ∧ f a = .error e := by
  cases x with
  | error e' =>
    constructor
    · intro h
      obtain rfl := Except.error.inj h
      exact .inl rfl
    · rintro (h | ⟨a, ha, -⟩)
      · obtain rfl := Except.error.inj h
        rfl
      · cases ha
  | ok a =>
    constructor
    · intro h
      exact .inr ⟨a, rfl, h⟩
    · rintro (h | ⟨a', ha, he⟩)
      · cases h
      · obtain rfl := Except.ok.inj ha
        exact he

theorem map_eq_ok {x : Except ε α} {f : α → β} {b : β} :
    x.map f = .ok b ↔ ∃ a, x = .ok a ∧ f a = b := by
  cases x <;> simp [Except.map]

theorem map_eq_error {x : Except ε α} {f : α → β} {e : ε} :
    x.map f = .error e ↔ x = .error e := by
  cases x <;> simp [Except.map]

/-- A list of computations ends where each of them does. -/
theorem mapM_eq_ok {f : α → Except ε β} {as : List α} {bs : List β} :
    as.mapM f = .ok bs ↔ List.Forall₂ (fun a b => f a = .ok b) as bs := by
  induction as generalizing bs with
  | nil =>
    rw [List.mapM_nil, List.forall₂_nil_left_iff]
    exact ⟨fun h => (Except.ok.inj h).symm, fun h => congrArg Except.ok h.symm⟩
  | cons a as ih =>
    rw [List.mapM_cons, bind_eq_ok, List.forall₂_cons_left_iff]
    refine exists_congr fun b => ?_
    rw [bind_eq_ok, exists_and_left]
    refine and_congr_right fun _ => exists_congr fun bs' => ?_
    rw [ih]
    exact and_congr_right fun _ => ⟨fun h => (Except.ok.inj h).symm, fun h => congrArg _ h.symm⟩

/-- A list of computations fails where one of them does. -/
theorem exists_error_of_mapM {f : α → Except ε β} {as : List α} {e : ε}
    (h : as.mapM f = .error e) : ∃ a ∈ as, f a = .error e := by
  induction as with
  | nil => cases h
  | cons a as ih =>
    rw [List.mapM_cons, bind_eq_error] at h
    rcases h with ha | ⟨b, -, h⟩
    · exact ⟨a, List.mem_cons_self, ha⟩
    · rcases bind_eq_error.1 h with has | ⟨bs, -, h⟩
      · obtain ⟨a', ha', hfail⟩ := ih has
        exact ⟨a', List.mem_cons_of_mem _ ha', hfail⟩
      · cases h

/-- What stands on the right of two lists in step has a partner on the left. -/
theorem exists_partner {R : α → β → Prop} {as : List α} {bs : List β} (h : List.Forall₂ R as bs)
    {b : β} (hb : b ∈ bs) : ∃ a ∈ as, R a b := by
  induction h with
  | nil => cases hb
  | @cons a c as bs ha hrest ih =>
    rcases List.mem_cons.1 hb with rfl | hb
    · exact ⟨a, List.mem_cons_self, ha⟩
    · obtain ⟨a', ha', hR⟩ := ih hb
      exact ⟨a', List.mem_cons_of_mem _ ha', hR⟩

/-- What is in step with one list by way of another. -/
theorem forall₂_trans {γ : Type} {R : α → β → Prop} {S : β → γ → Prop} {T : α → γ → Prop}
    (hT : ∀ {a b c}, R a b → S b c → T a c) {as : List α} {bs : List β} {cs : List γ}
    (hR : List.Forall₂ R as bs) (hS : List.Forall₂ S bs cs) : List.Forall₂ T as cs := by
  induction hR generalizing cs with
  | nil =>
    cases hS
    exact .nil
  | cons ha _ ih =>
    cases hS with
    | cons hb hrest => exact .cons (hT ha hb) (ih hrest)

/-- Every result is the result of an element. -/
theorem exists_of_mem_mapM {f : α → Except ε β} {as : List α} {bs : List β}
    (h : as.mapM f = .ok bs) {b : β} (hb : b ∈ bs) : ∃ a ∈ as, f a = .ok b :=
  exists_partner (mapM_eq_ok.1 h) hb

/-- Every element has a result. -/
theorem exists_ok_of_mapM {f : α → Except ε β} {as : List α} {bs : List β}
    (h : as.mapM f = .ok bs) {a : α} (ha : a ∈ as) : ∃ b, f a = .ok b := by
  obtain ⟨b, -, hb⟩ := exists_partner (mapM_eq_ok.1 h).flip ha
  exact ⟨b, hb⟩

/-- A list of computations that end has results, with what is known of each. -/
theorem exists_mapM_forall₂ {f : α → Except ε β} {P : α → β → Prop} {as : List α}
    (h : ∀ a ∈ as, ∃ b, f a = .ok b ∧ P a b) :
    ∃ bs, as.mapM f = .ok bs ∧ List.Forall₂ P as bs := by
  induction as with
  | nil => exact ⟨[], rfl, .nil⟩
  | cons a as ih =>
    obtain ⟨⟨b, hb, hP⟩, has⟩ := List.forall_mem_cons.1 h
    obtain ⟨bs, hbs, hrest⟩ := ih has
    refine ⟨b :: bs, ?_, .cons hP hrest⟩
    rw [List.mapM_cons, hb, hbs]
    rfl

theorem exists_mapM {f : α → Except ε β} {as : List α} (h : ∀ a ∈ as, ∃ b, f a = .ok b) :
    ∃ bs, as.mapM f = .ok bs := by
  obtain ⟨bs, hbs, -⟩ := exists_mapM_forall₂ (P := fun _ _ => True) fun a ha =>
    (h a ha).imp fun b hb => ⟨hb, trivial⟩
  exact ⟨bs, hbs⟩

/-- **A fold stops** at an element that stops it after those before. -/
theorem foldlM_eq_error {σ : Type} {f : σ → α → Except ε σ} {as : List α} {s : σ} {e : ε} :
    as.foldlM f s = .error e ↔ ∃ before a after s',
      as = before ++ a :: after ∧ before.foldlM f s = .ok s' ∧ f s' a = .error e := by
  constructor
  · intro h
    induction as generalizing s with
    | nil => cases h
    | cons a as ih =>
      rw [List.foldlM_cons, bind_eq_error] at h
      rcases h with ha | ⟨next, hnext, hrest⟩
      · exact ⟨[], a, as, s, rfl, rfl, ha⟩
      · obtain ⟨before, b, after, s', rfl, hbefore, hb⟩ := ih hrest
        refine ⟨a :: before, b, after, s', rfl, ?_, hb⟩
        rw [List.foldlM_cons, hnext]
        exact hbefore
  · rintro ⟨before, a, after, s', rfl, hbefore, ha⟩
    rw [List.foldlM_append, hbefore]
    exact (bind_eq_error (x := f s' a)).2 (.inl ha)

/-- A fold whose every step ends as in another fold ends as that one does. -/
theorem foldlM_eq_ok_of_forall {σ : Type} {f g : σ → α → Except ε σ}
    (hstep : ∀ s a s', f s a = .ok s' → g s a = .ok s') {as : List α} {s s' : σ}
    (h : as.foldlM f s = .ok s') : as.foldlM g s = .ok s' := by
  induction as generalizing s with
  | nil => exact h
  | cons a as ih =>
    rw [List.foldlM_cons, bind_eq_ok] at h ⊢
    obtain ⟨next, hnext, hrest⟩ := h
    exact ⟨next, hstep s a next hnext, ih hrest⟩

/-- What every step of a fold keeps holds at its end. -/
theorem foldlM_keeps {σ : Type} {I : σ → Prop} {f : σ → α → Except ε σ}
    (hstep : ∀ s a s', I s → f s a = .ok s' → I s') {as : List α} {s s' : σ} (hs : I s)
    (h : as.foldlM f s = .ok s') : I s' := by
  induction as generalizing s with
  | nil =>
    obtain rfl := Except.ok.inj h
    exact hs
  | cons a as ih =>
    rw [List.foldlM_cons, bind_eq_ok] at h
    obtain ⟨next, hnext, hrest⟩ := h
    exact ih (hstep s a next hs hnext) hrest

/-- What every step of a fold finds of its element holds of all elements of a fold that ends. -/
theorem forall_mem_of_foldlM {σ : Type} {P : α → Prop} {f : σ → α → Except ε σ}
    (hstep : ∀ s a s', f s a = .ok s' → P a) {as : List α} {s s' : σ}
    (h : as.foldlM f s = .ok s') : ∀ a ∈ as, P a := by
  induction as generalizing s with
  | nil => exact List.forall_mem_nil _
  | cons a as ih =>
    rw [List.foldlM_cons, bind_eq_ok] at h
    obtain ⟨next, hnext, hrest⟩ := h
    exact List.forall_mem_cons.2 ⟨hstep s a next hnext, ih hrest⟩

end Except

/-! ### Failures and breakdowns -/

namespace Stop

variable {α : Type}

theorem ofFailure_eq_failure {x : Except Failure α} {f : Failure} :
    ofFailure x = .error (.failure f) ↔ x = .error f := by
  cases x <;> simp [ofFailure]

theorem ofFailure_eq_ok {x : Except Failure α} {a : α} : ofFailure x = .ok a ↔ x = .ok a := by
  cases x <;> simp [ofFailure]

/-- A failure is no breakdown. -/
theorem ofFailure_ne_breakdown (x : Except Failure α) (b : Breakdown) :
    ofFailure x ≠ .error (.breakdown b) := by
  cases x <;> simp [ofFailure]

theorem ofBreakdown_eq_ok {x : Except Breakdown α} {a : α} :
    ofBreakdown x = .ok a ↔ x = .ok a := by
  cases x <;> simp [ofBreakdown]

theorem ofBreakdown_eq_breakdown {x : Except Breakdown α} {b : Breakdown} :
    ofBreakdown x = .error (.breakdown b) ↔ x = .error b := by
  cases x <;> simp [ofBreakdown]

/-- The breakdown that stopped a computation. -/
def breakdown? : Except Stop α → Option Breakdown
  | .error (.breakdown b) => some b
  | _ => none

theorem eq_of_breakdown?_eq_some {x : Except Stop α} {b : Breakdown} (h : breakdown? x = some b) :
    x = .error (.breakdown b) := by
  unfold breakdown? at h
  split at h
  · rw [Option.some.inj h]
  · cases h

end Stop

end Scaffold
