import Scaffold.Proofs.Syntax.PlainPath
import Scaffold.Proofs.Syntax.Spacing
import Scaffold.Syntax.Printer

/-!
# Parsers and what they read

`Reads p ts follows a` says that the parser `p` reads the tokens `ts` as `a` in front of all tokens
that may follow, however many marks of them are joint.  There is one lemma for each way to build a
parser, so a parser is shown to read what it writes along its own text.

Two things decide what a parser does: how a list of tokens begins (`Shows`), and what follows it.  A
loop is read round by round, where each round takes a token at least, so nothing is said of its fuel
(`Reads.loop_round`); with it sequences are read, whatever separates their elements
(`reads_separated`, `reads_chain`, `reads_steps`).
-/

namespace Scaffold.Syntax

/-! ### Tokens of which more marks are joint -/

namespace Token

theorem Tightened.append_inv {ts ts' vs : List Token} (h : Tightened (ts ++ ts') vs) :
    ∃ us us', vs = us ++ us' ∧ Tightened ts us ∧ Tightened ts' us' := by
  induction ts generalizing vs with
  | nil => exact ⟨[], vs, rfl, .nil, h⟩
  | cons t ts ih =>
    cases h with
    | word h =>
      obtain ⟨us, us', rfl, hus, hus'⟩ := ih h
      exact ⟨_ :: us, us', rfl, .word hus, hus'⟩
    | lifetime h =>
      obtain ⟨us, us', rfl, hus, hus'⟩ := ih h
      exact ⟨_ :: us, us', rfl, .lifetime hus, hus'⟩
    | literal h =>
      obtain ⟨us, us', rfl, hus, hus'⟩ := ih h
      exact ⟨_ :: us, us', rfl, .literal hus, hus'⟩
    | punct hjoint h =>
      obtain ⟨us, us', rfl, hus, hus'⟩ := ih h
      exact ⟨_ :: us, us', rfl, .punct hjoint hus, hus'⟩
    | group hcontent h =>
      obtain ⟨us, us', rfl, hus, hus'⟩ := ih h
      exact ⟨_ :: us, us', rfl, .group hcontent hus, hus'⟩

theorem listSize_append (ts us : List Token) :
    listSize (ts ++ us) = listSize ts + listSize us := by
  induction ts with
  | nil => exact (Nat.zero_add _).symm
  | cons t ts ih => simp only [List.cons_append, listSize, ih, Nat.add_assoc]

theorem Tightened.listSize_eq {ts us : List Token} (h : Tightened ts us) :
    listSize us = listSize ts := by
  induction h with
  | nil => rfl
  | group _ _ ihContent ih => simp only [listSize, size, ihContent, ih]
  | _ => simp only [listSize, size, *]

end Token

namespace Parser

open Token

variable {α β : Type} {p : Parser α} {ts ts' : List Token} {F F' : List Token → Prop} {a : α}
  {b : β} {marks w : String}

/-- **The parser reads the tokens** `ts` as `a` in front of what may follow, however many of their
marks are joint. -/
def Reads (p : Parser α) (ts : List Token) (follows : List Token → Prop) (a : α) : Prop :=
  ∀ ⦃us⦄, Tightened ts us → ∀ ⦃after⦄, follows after → p.run (us ++ after) = some (a, after)

namespace Reads

protected theorem pure (a : α) (F : List Token → Prop) : Reads (pure a) [] F a := by
  rintro us ⟨⟩ after -
  rfl

/-- One parser after the other: what the second takes may follow the first. -/
protected theorem bind {f : α → Parser β} (hp : Reads p ts F a) (hf : Reads (f a) ts' F' b)
    (hlink : ∀ ⦃us⦄, Tightened ts' us → ∀ ⦃after⦄, F' after → F (us ++ after)) :
    Reads (p >>= f) (ts ++ ts') F' b := by
  intro vs hvs after hafter
  obtain ⟨us, us', rfl, hus, hus'⟩ := hvs.append_inv
  rw [List.append_assoc, run_bind (hp hus (hlink hus' hafter))]
  exact hf hus' hafter

/-- The second parser takes nothing. -/
protected theorem bind_nil {f : α → Parser β} (hp : Reads p ts F a) (hf : Reads (f a) [] F' b)
    (hlink : ∀ ⦃after⦄, F' after → F after) : Reads (p >>= f) ts F' b := by
  rw [← List.append_nil ts]
  refine hp.bind hf fun us hus after hafter => ?_
  cases hus
  exact hlink hafter

protected theorem map {f : α → β} (hp : Reads p ts F a) :
    Reads (p >>= fun a => pure (f a)) ts F (f a) := by
  intro us hus after hafter
  rw [run_bind (hp hus hafter)]
  rfl

/-- The last part of a node. -/
theorem last {f : α → β} (hp : Reads p ts F a) :
    Reads (p >>= fun a => pure (f a)) (ts ++ []) F (f a) := by
  rw [List.append_nil]
  exact hp.map

/-- What may follow is less. -/
theorem mono (hp : Reads p ts F a) (h : ∀ ⦃after⦄, F' after → F after) : Reads p ts F' a :=
  fun _ hus _ hafter => hp hus (h hafter)

/-- Another parser that does the same on these tokens. -/
theorem of_run {q : Parser α} (hq : Reads q ts F a)
    (h : ∀ ⦃us⦄, Tightened ts us → ∀ ⦃after⦄, F after → p.run (us ++ after) = q.run (us ++ after)) :
    Reads p ts F a :=
  fun _ hus _ hafter => (h hus hafter).trans (hq hus hafter)

/-- A parser that looks ahead goes the way that these tokens show. -/
theorem look {f : List Token → Parser α} {q : Parser α} (hq : Reads q ts F a)
    (h : ∀ ⦃us⦄, Tightened ts us → ∀ ⦃after⦄, F after → f (us ++ after) = q) :
    Reads (rest >>= f) ts F a :=
  hq.of_run fun us hus after hafter => by rw [run_rest_bind, h hus hafter]

end Reads

/-! ### Single tokens -/

theorem atMarks_of_tightened {marks : List Char} (hmarks : marks ≠ [])
    (h : Tightened (ofOperator marks) ts) (after : List Token) :
    atMarks marks (ts ++ after) = true ∧ (ts ++ after).drop marks.length = after := by
  induction marks generalizing ts with
  | nil => exact absurd rfl hmarks
  | cons c cs ih =>
    cases cs with
    | nil =>
      cases h with
      | punct _ h =>
        cases h
        simp [atMarks]
    | cons d ds =>
      cases h with
      | @punct _ _ joint _ us hjoint h =>
        obtain ⟨hat, hdrop⟩ := ih (by simp) h
        have hcons : atMarks (c :: d :: ds) (.punct c joint :: (us ++ after)) =
          (decide (c = c) && joint && atMarks (d :: ds) (us ++ after)) := rfl
        exact ⟨by rw [List.cons_append, hcons, hat, hjoint rfl]; simp, hdrop⟩

/-- An operator at the head. -/
theorem atOp_of_tightened (hmarks : marks.toList ≠ [])
    (h : Tightened (ofOperator marks.toList ++ ts') ts) (after : List Token) :
    atOp marks (ts ++ after) = true := by
  obtain ⟨us, us', rfl, hus, -⟩ := h.append_inv
  rw [List.append_assoc]
  exact (atMarks_of_tightened hmarks hus _).1

theorem reads_op (hmarks : marks.toList ≠ []) :
    Reads (op marks) (Node.op marks).leaves (fun _ => True) (.op marks) := by
  rintro us hus after -
  obtain ⟨hat, hdrop⟩ := atMarks_of_tightened hmarks hus after
  have hat : atOp marks (us ++ after) = true := hat
  have hdrop : (us ++ after).drop marks.length = after := hdrop
  unfold op
  rw [run_rest_bind, if_pos hat]
  exact congrArg (fun ts => some (Node.op marks, ts)) hdrop

/-- An operator that may be left out. -/
theorem reads_op? (hmarks : marks.toList ≠ []) {n : Node} (hn : n = .op marks ∨ n = .none) :
    Reads (op? marks) n.leaves (fun after => n = .none → atOp marks after = false) n := by
  rcases hn with rfl | rfl
  · refine .look ((reads_op hmarks).mono fun _ _ => trivial) fun us hus after _ => if_pos ?_
    exact (atMarks_of_tightened hmarks hus after).1
  · refine .look (.pure _ _) fun us hus after hafter => if_neg ?_
    cases hus
    rw [List.nil_append, hafter rfl]
    decide

theorem reads_kw : Reads (kw w) (Node.word false w).leaves (fun _ => True) (.word false w) := by
  rintro us (_ | ⟨⟨⟩⟩) after -
  have hword : (Token.word false w).isWord w = true := beq_self_eq_true w
  unfold kw
  rw [List.cons_append, run_rest_bind]
  dsimp only
  rw [if_pos hword]
  rfl

/-- A keyword that may be left out. -/
theorem reads_kw? {n : Node} (hn : n = .word false w ∨ n = .none) :
    Reads (kw? w) n.leaves (fun after => n = .none → atWord w after = false) n := by
  rcases hn with rfl | rfl
  · refine .look (reads_kw.mono fun _ _ => trivial) fun us hus after _ => if_pos ?_
    rcases hus with _ | ⟨⟨⟩⟩
    exact beq_self_eq_true w
  · refine .look (.pure _ _) fun us hus after hafter => if_neg ?_
    cases hus
    rw [List.nil_append, hafter rfl]
    decide

theorem reads_anyWord (raw : Bool) (name : String) :
    Reads anyWord (Node.word raw name).leaves (fun _ => True) (.word raw name) := by
  rintro us (_ | ⟨⟨⟩⟩) after -
  rfl

theorem reads_lifetime (raw : Bool) (name : String) :
    Reads lifetime (Node.lifetime raw name).leaves (fun _ => True) (.lifetime raw name) := by
  rintro us (_ | _ | ⟨⟨⟩⟩) after -
  rfl

/-! ### Looking at what comes first -/

/-- Whether all token lists that begin with `ts`, however many of their marks are joint, have a
property. -/
def Shows (P : List Token → Prop) (ts : List Token) : Prop :=
  ∀ ⦃us⦄, Tightened ts us → ∀ after, P (us ++ after)

theorem Shows.append {P : List Token → Prop} (h : Shows P ts) (ts' : List Token) :
    Shows P (ts ++ ts') := by
  intro vs hvs after
  obtain ⟨us, us', rfl, hus, -⟩ := hvs.append_inv
  rw [List.append_assoc]
  exact h hus _

theorem Shows.mono {P Q : List Token → Prop} (h : Shows P ts) (himp : ∀ us, P us → Q us) :
    Shows Q ts :=
  fun _ hus after => himp _ (h hus after)

/-- A mark comes first. -/
theorem shows_mark {P : List Token → Prop} {c : Char}
    (h : ∀ joint after, P (.punct c joint :: after)) : Shows P [.punct c false] := by
  rintro us (_ | _ | _ | _ | ⟨_, ⟨⟩⟩) after
  exact h _ _

/-! ### Groups -/

/-- A group whose content is read to its end. -/
theorem reads_group {delim : Delimiter} (h : Reads p ts (· = []) a) :
    Reads (group delim p) [.group delim ts] (fun _ => True) a := by
  rintro us (_ | _ | _ | _ | _ | ⟨hcontent, ⟨⟩⟩) after -
  have hrun := h hcontent rfl
  rw [List.append_nil] at hrun
  unfold group
  rw [List.cons_append, run_rest_bind]
  dsimp only
  rw [if_pos rfl, hrun]
  rfl

theorem reads_groupNode {delim : Delimiter} {p : Parser (List Node)} {ns : List Node}
    (h : Reads p (Node.partLeaves ns).flatten (· = []) ns) :
    Reads (groupNode delim p) (Node.group delim ns).leaves (fun _ => True) (.group delim ns) :=
  (reads_group h).map

/-! ### Loops -/

section Loops

variable {σ : Type} {step : σ → Parser (σ ⊕ β)} {s s' : σ}

/-- More fuel does not change what a loop gives. -/
theorem run_loopFor_mono {fuel fuel' : ℕ} (hle : fuel ≤ fuel') {r : β × List Token}
    (h : (loopFor step fuel s).run ts = some r) : (loopFor step fuel' s).run ts = some r := by
  induction fuel generalizing fuel' s ts with
  | zero => cases h
  | succ fuel ih =>
    obtain ⟨fuel', rfl⟩ : ∃ k, fuel' = k + 1 := ⟨fuel' - 1, by omega⟩
    rw [loopFor, StateT.run_bind] at h ⊢
    cases hstep : (step s).run ts with
    | none =>
      rw [hstep] at h
      cases h
    | some found =>
      obtain ⟨next, rest⟩ := found
      rw [hstep] at h
      cases next with
      | inl s' => exact ih (by omega) h
      | inr b => exact h

/-- The last round of a loop. -/
theorem Reads.loop_last (h : Reads (step s) ts F (.inr b)) : Reads (loop step s) ts F b := by
  intro us hus after hafter
  unfold loop
  rw [run_rest_bind, loopFor, run_bind (h hus hafter)]
  rfl

/-- A round of a loop, which takes a token at least, and the rounds after it. -/
theorem Reads.loop_round (h : Reads (step s) ts F (.inl s')) (hne : ts ≠ [])
    (hrest : Reads (loop step s') ts' F' b)
    (hlink : ∀ ⦃us⦄, Tightened ts' us → ∀ ⦃after⦄, F' after → F (us ++ after)) :
    Reads (loop step s) (ts ++ ts') F' b := by
  intro vs hvs after hafter
  obtain ⟨us, us', rfl, hus, hus'⟩ := hvs.append_inv
  have hne : us ≠ [] := by
    rintro rfl
    cases hus
    exact hne rfl
  have hlength := List.length_pos_iff.2 hne
  -- the rounds after the first have less fuel when they come after it than when they stand alone
  have hnext := hrest hus' hafter
  unfold loop at hnext ⊢
  rw [run_rest_bind] at hnext ⊢
  rw [List.append_assoc, loopFor, run_bind (h hus (hlink hus' hafter))]
  refine run_loopFor_mono ?_ hnext
  simp only [List.length_append]
  omega

end Loops

end Parser

/-! ### Sequences -/

/-- The parts of a sequence: its elements with separators between them, and perhaps one after the
last. -/
inductive Separated (sep : String) : (elems parts : List Node) → Prop where
  | nil : Separated sep [] []
  | last (n : Node) : Separated sep [n] [n]
  | cons (n : Node) {elems parts : List Node} : Separated sep elems parts →
    Separated sep (n :: elems) (n :: .op sep :: parts)

theorem leaves_op_ne_nil {sep : String} (hsep : sep.toList ≠ []) : (Node.op sep).leaves ≠ [] := by
  rw [Node.leaves]
  cases h : sep.toList with
  | nil => exact absurd h hsep
  | cons c cs => cases cs <;> simp [Token.ofOperator]

/-- The parts after the first element of a sequence that does not end with a separator. -/
def stepsOf (sep : String) (elems : List Node) : List Node :=
  elems.flatMap fun n => [.op sep, n]

theorem intersperse_cons (sep : String) (n : Node) (ns : List Node) :
    (n :: ns).intersperse (.op sep) = n :: stepsOf sep ns := by
  induction ns generalizing n with
  | nil => rfl
  | cons m ns ih => rw [List.intersperse_cons_cons, ih]; rfl

namespace Parser

open Token

variable {p : Parser Node} {F : List Token → Prop} {stop : List Token → Bool} {sep : String}
  {elems parts : List Node}

section Rounds

variable {round : List Node → Parser (List Node ⊕ Node)} {E G : List Token → Prop}

/-- **A sequence** whose rounds read an element with the separator after it. -/
theorem reads_separated (hsep : sep.toList ≠ []) {kind : Kind}
    (hstop : ∀ acc, Reads (round acc) [] E (.inr (.node kind acc.reverse)))
    (hlast : ∀ n ∈ elems, ∀ acc,
      Reads (round acc) n.leaves E (.inr (.node kind (n :: acc).reverse)))
    (hmore : ∀ n ∈ elems, ∀ acc, Reads (round acc) (n.leaves ++ (Node.op sep).leaves)
      (fun _ => True) (.inl (.op sep :: n :: acc)))
    (hparts : Separated sep elems parts) (acc : List Node) :
    Reads (loop round acc) (Node.partLeaves parts).flatten E
      (.node kind (acc.reverse ++ parts)) := by
  -- along the parts: `acc` holds those that have been read, the last one first
  induction hparts generalizing acc with
  | nil =>
    rw [List.append_nil]
    exact .loop_last (hstop acc)
  | last n =>
    rw [← List.reverse_cons]
    have htokens : (Node.partLeaves [n]).flatten = n.leaves := List.append_nil _
    rw [htokens]
    exact .loop_last (hlast n List.mem_cons_self acc)
  | @cons n elems parts _ ih =>
    obtain ⟨-, hlast⟩ := List.forall_mem_cons.1 hlast
    obtain ⟨hround, hmore⟩ := List.forall_mem_cons.1 hmore
    have hrest := ih hlast hmore (.op sep :: n :: acc)
    have htokens : (Node.partLeaves (n :: .op sep :: parts)).flatten =
        (n.leaves ++ (Node.op sep).leaves) ++ (Node.partLeaves parts).flatten := by
      rw [List.append_assoc]
      rfl
    rw [List.reverse_cons, List.reverse_cons, List.append_assoc, List.append_assoc] at hrest
    rw [htokens]
    exact .loop_round (hround acc) (by simp [leaves_op_ne_nil hsep]) hrest fun _ _ _ _ => trivial

/-- A sequence that does not end with a separator, whose rounds read an element with the separator
after it. -/
theorem reads_chain (hsep : sep.toList ≠ []) (finish : List Node → Node) {n : Node}
    {ns : List Node}
    (hlast : ∀ m ∈ n :: ns, ∀ acc, Reads (round acc) m.leaves E (.inr (finish (m :: acc))))
    (hmore : ns ≠ [] → ∀ m ∈ n :: ns, ∀ acc,
      Reads (round acc) (m.leaves ++ (Node.op sep).leaves) G (.inl (.op sep :: m :: acc)))
    (hbegin : ∀ m ∈ ns, Shows G m.leaves) (acc : List Node) :
    Reads (loop round acc) (Node.partLeaves (n :: stepsOf sep ns)).flatten E
      (finish ((n :: stepsOf sep ns).reverse ++ acc)) := by
  induction ns generalizing n acc with
  | nil =>
    have htokens : (Node.partLeaves (n :: stepsOf sep [])).flatten = n.leaves := List.append_nil _
    rw [htokens]
    exact .loop_last (hlast n List.mem_cons_self acc)
  | cons m ns ih =>
    obtain ⟨-, hlast⟩ := List.forall_mem_cons.1 hlast
    obtain ⟨hround, hmore⟩ := List.forall_mem_cons.1 (hmore (List.cons_ne_nil m ns))
    obtain ⟨hm, hbegin⟩ := List.forall_mem_cons.1 hbegin
    have hrest := ih hlast (fun _ => hmore) hbegin (.op sep :: n :: acc)
    have htokens : (Node.partLeaves (n :: stepsOf sep (m :: ns))).flatten =
        (n.leaves ++ (Node.op sep).leaves) ++ (Node.partLeaves (m :: stepsOf sep ns)).flatten := by
      rw [List.append_assoc]
      rfl
    have hresult : (n :: stepsOf sep (m :: ns)).reverse ++ acc =
        (m :: stepsOf sep ns).reverse ++ .op sep :: n :: acc := by
      simp [stepsOf]
    rw [htokens, hresult]
    refine .loop_round (hround acc) (by simp [leaves_op_ne_nil hsep]) hrest fun us hus after _ => ?_
    exact (hm.append _) hus after

/-- The steps after the first element of a sequence. -/
theorem reads_steps {round : List Node → Parser (List Node ⊕ List Node)} (hsep : sep.toList ≠ [])
    (hdone : ∀ acc, Reads (round acc) [] E (.inr acc))
    (hmore : ∀ n ∈ elems, ∀ acc, Reads (round acc) ((Node.op sep).leaves ++ n.leaves) G
      (.inl (n :: .op sep :: acc)))
    (hlink : ∀ ns ⊆ elems, ∀ ⦃us⦄, Tightened (Node.partLeaves (stepsOf sep ns)).flatten us →
      ∀ ⦃after⦄, E after → G (us ++ after)) (acc : List Node) :
    Reads (loop round acc) (Node.partLeaves (stepsOf sep elems)).flatten E
      ((stepsOf sep elems).reverse ++ acc) := by
  induction elems generalizing acc with
  | nil => exact .loop_last (hdone acc)
  | cons n elems ih =>
    obtain ⟨hround, hmore⟩ := List.forall_mem_cons.1 hmore
    have hrest := ih hmore (fun ns hns => hlink ns (List.subset_cons_of_subset n hns))
      (n :: .op sep :: acc)
    have htokens : (Node.partLeaves (stepsOf sep (n :: elems))).flatten =
        ((Node.op sep).leaves ++ n.leaves) ++ (Node.partLeaves (stepsOf sep elems)).flatten := by
      rw [List.append_assoc]
      rfl
    have hresult : (stepsOf sep (n :: elems)).reverse ++ acc =
        (stepsOf sep elems).reverse ++ n :: .op sep :: acc := by
      simp [stepsOf]
    rw [htokens, hresult]
    exact .loop_round (hround acc) (by simp [leaves_op_ne_nil hsep]) hrest
      (hlink elems (List.subset_cons_self n elems))

end Rounds

/-- A round of `sepUntil`. -/
def sepUntilRound (stop : List Token → Bool) (sep : String) (p : Parser Node) (kind : Kind)
    (acc : List Node) : Parser (List Node ⊕ Node) := do
  if stop (← rest) then pure (.inr (.node kind acc.reverse))
  else
    let n ← p
    if stop (← rest) then pure (.inr (.node kind (n :: acc).reverse))
    else pure (.inl ((← op sep) :: n :: acc))

/-- **A sequence** up to where `stop` holds. -/
theorem reads_sepUntil (hsep : sep.toList ≠ []) (hparts : Separated sep elems parts) {kind : Kind}
    (helems : ∀ n ∈ elems, Reads p n.leaves F n)
    (hbegin : ∀ n ∈ elems, Shows (stop · = false) n.leaves)
    (hend : Shows (fun ts => F ts ∧ stop ts = false) (Node.op sep).leaves) :
    Reads (sepUntil stop sep p kind) (Node.partLeaves parts).flatten
      (fun after => F after ∧ stop after = true) (.node kind parts) := by
  have hrounds : sepUntil stop sep p kind = loop (sepUntilRound stop sep p kind) [] := rfl
  rw [hrounds]
  refine reads_separated hsep (fun acc => ?_) (fun n hn acc => ?_) (fun n hn acc => ?_) hparts []
  · refine .look (.pure _ _) fun us hus after hafter => if_pos ?_
    cases hus
    exact hafter.2
  · refine .look (.bind_nil (helems n hn) (.look (.pure _ _) fun us hus after hafter => if_pos ?_)
      fun _ hafter => hafter.1) fun us hus after _ => if_neg ?_
    · cases hus
      exact hafter.2
    · rw [hbegin n hn hus after]
      decide
  · refine .look (.bind (helems n hn) (.look ?_ fun us hus after _ => if_neg ?_)
      fun us hus after _ => (hend hus after).1) fun us hus after _ => if_neg ?_
    · exact (reads_op hsep).map
    · rw [(hend hus after).2]
      decide
    · rw [(hbegin n hn).append _ hus after]
      decide

/-- A round of `sepWhile`. -/
def sepWhileRound (stop : List Token → Bool) (sep : String) (p : Parser Node)
    (acc : List Node) : Parser (List Node ⊕ Node) := do
  if stop (← rest) then pure (.inr (.node .separated acc.reverse))
  else
    let n ← p
    if atOp sep (← rest) then pure (.inl ((← op sep) :: n :: acc))
    else pure (.inr (.node .separated (n :: acc).reverse))

/-- **A sequence** up to where `stop` holds, and no separator follows. -/
theorem reads_sepWhile (hsep : sep.toList ≠ []) (hparts : Separated sep elems parts)
    (helems : ∀ n ∈ elems, Reads p n.leaves F n)
    (hbegin : ∀ n ∈ elems, Shows (stop · = false) n.leaves)
    (hend : Shows F (Node.op sep).leaves) :
    Reads (sepWhile stop sep p) (Node.partLeaves parts).flatten
      (fun after => F after ∧ stop after = true ∧ atOp sep after = false)
      (.node .separated parts) := by
  have hrounds : sepWhile stop sep p = loop (sepWhileRound stop sep p) [] := rfl
  rw [hrounds]
  refine reads_separated hsep (fun acc => ?_) (fun n hn acc => ?_) (fun n hn acc => ?_) hparts []
  · refine .look (.pure _ _) fun us hus after hafter => if_pos ?_
    cases hus
    exact hafter.2.1
  · refine .look (.bind_nil (helems n hn) (.look (.pure _ _) fun us hus after hafter => if_neg ?_)
      fun _ hafter => hafter.1) fun us hus after _ => if_neg ?_
    · cases hus
      rw [List.nil_append, hafter.2.2]
      decide
    · rw [hbegin n hn hus after]
      decide
  · refine .look (.bind (helems n hn) (.look ?_ fun us hus after _ => if_pos ?_)
      fun us hus after _ => hend hus after) fun us hus after _ => if_neg ?_
    · exact (reads_op hsep).map
    · exact (atMarks_of_tightened hsep hus after).1
    · rw [(hbegin n hn).append _ hus after]
      decide

end Parser

end Scaffold.Syntax
