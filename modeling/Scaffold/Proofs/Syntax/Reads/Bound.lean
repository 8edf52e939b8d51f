import Scaffold.Proofs.Syntax.Reads.Path

/-!
# Reading bounds back

A trait as a bound is a path with perhaps lifetimes or a question mark before it
(`reads_traitBound`); bounds stand one after the other with `+` between them (`reads_bounds`).
-/

namespace Scaffold.Syntax

namespace Parser

open Token

variable {g : Grammar} {ts : List Token}

/-! ### Lifetimes that are bound -/

theorem reads_outerAttributes :
    Reads (outerAttributes g) [] (fun after => atOp "#" after = false) (.list []) := by
  have hloop : Reads (manyWhile (atOp "#") (outerAttribute g)) []
      (fun after => atOp "#" after = false) [] := by
    refine .loop_last (.look (.pure _ _) fun us hus after hafter => if_neg ?_)
    cases hus
    rw [List.nil_append, hafter]
    decide
  exact hloop.map

theorem reads_lifetimeParam {n : Node} (hn : n.IsLifetimeParam) :
    Reads (genericParam g false) n.leaves EndsArgument n := by
  obtain @⟨raw, name, hname⟩ := hn
  have hparam : Reads (lifetimeParam (.list [])) (Node.lifetime raw name).leaves EndsArgument
      (.node .lifetimeParam [.list [], .lifetime raw name, .none]) := by
    refine .bind_nil (reads_lifetime raw name)
      (.look (.pure _ _) fun us hus after hafter => if_neg ?_) fun _ _ => trivial
    cases hus
    rw [List.nil_append, hafter.colon]
    decide
  refine .bind reads_outerAttributes (.look hparam fun us hus after _ => if_pos ?_)
    fun us hus after _ => ?_
  · obtain _ | _ | ⟨⟨⟩⟩ := hus
    rfl
  · obtain _ | _ | ⟨⟨⟩⟩ := hus
    rfl

/-- The lifetimes that `for` binds. -/
theorem reads_binder {n : Node} (hn : n.IsBinder) :
    Reads (binder? g) n.leaves (fun after => n = .none → atWord "for" after = false) n := by
  cases hn with
  | none =>
    refine .look (.pure _ _) fun us hus after hafter => if_neg ?_
    cases hus
    rw [List.nil_append, hafter rfl]
    decide
  | @lifetimes params parts hparams hparts =>
    have hlist : Reads (sepUntil (atOp ">") "," (genericParam g false) .separated)
        (Node.partLeaves parts).flatten (fun after => EndsArgument after ∧ atOp ">" after = true)
        (.node .separated parts) := by
      refine reads_sepUntil (by decide) hparts (fun n hn => reads_lifetimeParam (hparams n hn))
        (fun n hn us hus after => ?_) ?_
      · obtain ⟨hname⟩ := hparams n hn
        obtain _ | _ | ⟨⟨⟩⟩ := hus
        rfl
      · exact shows_mark fun joint after => ⟨endsArgument_mark (.inl rfl) joint after, rfl⟩
    refine .look ?_ fun us hus after _ => if_pos ?_
    · refine .bind reads_kw (.bind (reads_op (by decide)) (.bind hlist
        ((reads_op (by decide)).last.mono fun _ _ => trivial) fun us hus after _ => ?_)
        fun _ _ _ _ => trivial) fun _ _ _ _ => trivial
      obtain _ | _ | _ | _ | ⟨-, hus⟩ := hus
      exact ⟨endsArgument_mark (.inr rfl) _ _, rfl⟩
    · obtain _ | hus := hus
      rfl

/-! ### Bounds -/

/-- What paths begin with. -/
theorem apart_of_beginsPath (h : beginsPath ts = true) :
    atOp "?" ts = false ∧ (∀ delim, atGroup delim ts = false) ∧ atLifetime ts = false ∧
      ∀ w, isKeyword w = true → pathWords.contains w = false → atWord w ts = false := by
  unfold beginsPath at h
  split at h
  · exact ⟨rfl, fun _ => rfl, rfl, fun w hw hnot => atWord_of_apart h hw hnot _⟩
  · exact ⟨rfl, fun _ => rfl, rfl, fun _ _ _ => rfl⟩
  · cases h

/-- What traits begin with, as bounds. -/
theorem apart_of_beginsTrait (h : beginsTrait ts = true) :
    atLifetime ts = false ∧ atGroup .paren ts = false ∧ atWord "use" ts = false := by
  rw [beginsTrait, Bool.or_eq_true, Bool.or_eq_true] at h
  rcases h with (h | h) | h
  · obtain ⟨-, hgroup, hlifetime, hword⟩ := apart_of_beginsPath h
    exact ⟨hlifetime, hgroup _, hword "use" (by decide) (by decide)⟩
  · cases ts with
    | nil => cases h
    | cons t ts =>
      cases t with
      | word raw name =>
        cases raw with
        | true => cases h
        | false =>
          obtain rfl : name = "for" := eq_of_beq h
          exact ⟨rfl, rfl, rfl⟩
      | _ => cases h
  · cases ts with
    | nil => cases h
    | cons t ts =>
      cases t with
      | punct => exact ⟨rfl, rfl, rfl⟩
      | _ => cases h

/-- A bound from its path on. -/
def traitPath (g : Grammar) (binder maybe : Node) : Parser (Node × Bool) := do
  let path ← path g false
  let path ← withParenArguments g path
  if binder.isSome && maybe.isSome then failure
  else pure (.node .traitBound [binder, maybe, path], false)

/-- A bound after its lifetimes. -/
def afterBinder (g : Grammar) (binder : Node) : Parser (Node × Bool) := do
  let maybe ← op? "?"
  let binder ← if binder.isNone && maybe.isSome then binder? g else pure binder
  traitPath g binder maybe

section TraitBound

variable {binder maybe path : Node} (hbegin : beginsPath path.leaves = true)
  (hpath : Reads (Parser.path g false >>= withParenArguments g) path.leaves (EndsType false) path)

include hpath in
theorem reads_traitPath (h : (binder.isSome && maybe.isSome) = false) :
    Reads (traitPath g binder maybe) path.leaves (EndsType false)
      (.node .traitBound [binder, maybe, path], false) := by
  unfold traitPath
  rw [← bind_assoc]
  have hsome : ¬(binder.isSome && maybe.isSome) = true := by rw [h]; decide
  refine hpath.bind_nil ?_ fun _ h => h
  rw [if_neg hsome]
  exact .pure _ _

include hbegin hpath

theorem reads_afterBinder (hmaybe : maybe = .op "?" ∧ binder = .none ∨ maybe = .none) :
    Reads (afterBinder g binder) (maybe.leaves ++ path.leaves) (EndsType false)
      (.node .traitBound [binder, maybe, path], false) := by
  have hmark : maybe = .op "?" ∨ maybe = .none := hmaybe.imp_left And.left
  refine .bind (reads_op? (by decide) hmark) ?_ fun us hus after _ _ =>
    (apart_of_beginsPath (shows_beginsPath hbegin hus after)).1
  rcases hmaybe with ⟨rfl, rfl⟩ | rfl
  · -- no lifetimes are bound after the question mark
    have hnone : path.leaves = Node.none.leaves ++ path.leaves := rfl
    rw [hnone]
    refine .bind (reads_binder .none) (reads_traitPath hpath rfl) fun us hus after _ _ => ?_
    exact (apart_of_beginsPath (shows_beginsPath hbegin hus after)).2.2.2 _ (by decide) (by decide)
  · have hsome : (binder.isNone && Node.none.isSome) = false := Bool.and_false _
    rw [hsome]
    exact reads_traitPath hpath (Bool.and_false _)

/-- **A trait as a bound.** -/
theorem reads_traitBound (hbinder : binder.IsBinder) (allowConst : Bool)
    (hmaybe : maybe = .op "?" ∧ binder = .none ∨ maybe = .none) :
    Reads (traitBound g allowConst) (Node.node .traitBound [binder, maybe, path]).leaves
      (EndsType false) (.node .traitBound [binder, maybe, path], false) := by
  have htokens : (Node.node .traitBound [binder, maybe, path]).leaves =
      binder.leaves ++ (maybe.leaves ++ path.leaves) := by
    rw [← List.append_nil path.leaves]
    rfl
  -- neither a question mark nor a path is taken for lifetimes or a modifier
  have hhead : ∀ ⦃us⦄, Tightened (maybe.leaves ++ path.leaves) us → ∀ after,
      atWord "for" (us ++ after) = false ∧ atGroup .bracket (us ++ after) = false ∧
        atWord "const" (us ++ after) = false := by
    intro us hus after
    rcases hmaybe with ⟨rfl, -⟩ | rfl
    · obtain _ | _ | _ | _ | ⟨-, hus⟩ := hus
      exact ⟨rfl, rfl, rfl⟩
    · obtain ⟨-, hgroup, -, hword⟩ := apart_of_beginsPath (shows_beginsPath hbegin hus after)
      exact ⟨hword _ (by decide) (by decide), hgroup _, hword _ (by decide) (by decide)⟩
  rw [htokens]
  refine .bind (reads_binder hbinder) ((reads_afterBinder hbegin hpath hmaybe).of_run
    fun us hus after _ => ?_) fun us hus after _ _ => (hhead hus after).1
  obtain ⟨-, hgroup, hconst⟩ := hhead hus after
  rw [run_rest_bind, run_rest_bind]
  dsimp only
  rw [hgroup, hconst]
  rfl

end TraitBound

/-- A lifetime as a bound. -/
theorem reads_lifetimeBound {n : Node} (hn : n.IsLifetime) (allowCapture allowConst : Bool) :
    Reads (singleBound g allowCapture allowConst) n.leaves (fun _ => True) n := by
  obtain ⟨hn⟩ := hn
  refine .look (reads_lifetime _ _) fun us hus after _ => if_pos ?_
  obtain _ | _ | ⟨⟨⟩⟩ := hus
  rfl

/-- A trait as a bound that stands alone. -/
theorem reads_singleBound {n : Node} {allowCapture allowConst : Bool}
    (hbegin : beginsTrait n.leaves = true)
    (hn : Reads (traitBound g allowConst) n.leaves (EndsType false) (n, false)) :
    Reads (singleBound g allowCapture allowConst) n.leaves (EndsType false) n := by
  intro us hus after hafter
  obtain ⟨hlifetime, hgroup, huse⟩ := apart_of_beginsTrait (shows_beginsTrait hbegin hus after)
  unfold singleBound
  rw [run_rest_bind]
  dsimp only
  rw [hlifetime, hgroup, huse, if_neg Bool.false_ne_true,
    if_neg Bool.false_ne_true, if_neg Bool.false_ne_true, run_bind (hn hus hafter)]
  rfl

/-- A trait in parentheses as a bound. -/
theorem reads_parenBound {n : Node} {allowCapture allowConst : Bool}
    (hn : Reads (traitBound g allowConst) n.leaves (EndsType false) (n, false)) :
    Reads (singleBound g allowCapture allowConst)
      (Node.node .parenBound [.group .paren [n]]).leaves (fun _ => True)
      (.node .parenBound [.group .paren [n]]) := by
  have hcontent : Reads (traitBound g allowConst) (n.leaves ++ []) (· = []) (n, false) := by
    rw [List.append_nil]
    exact hn.mono fun after hafter => hafter ▸ endsType_nil false
  have hgroup : Reads (group .paren (traitBound g allowConst))
      (Node.node .parenBound [.group .paren [n]]).leaves (fun _ => True) (n, false) :=
    reads_group hcontent
  intro us hus after _
  have hrun : (group .paren (traitBound g allowConst)).run (us ++ after) =
      some ((n, false), after) := hgroup hus trivial
  obtain _ | _ | _ | _ | _ | @⟨_, _, content, _, _, -, ⟨⟩⟩ := hus
  have hlifetime : atLifetime ([.group .paren content] ++ after) = false := rfl
  have huse : atWord "use" ([.group .paren content] ++ after) = false := rfl
  have hparen : atGroup .paren ([.group .paren content] ++ after) = true := rfl
  unfold singleBound
  rw [run_rest_bind, hlifetime, huse, hparen, if_neg Bool.false_ne_true, if_neg Bool.false_ne_true,
    if_pos rfl, run_bind hrun]
  rfl

/-! ### Lists of bounds -/

/-- A round of `bounds`. -/
def boundsRound (g : Grammar) (allowPlus allowCapture allowConst : Bool) (acc : List Node) :
    Parser (List Node ⊕ Node) := do
  let acc := (← g.bound allowCapture allowConst) :: acc
  if allowPlus && atOp "+" (← rest) then
    let plus ← op "+"
    if atBound allowConst (← rest) || (allowConst && atWord "const" (← rest)) then
      pure (.inl (plus :: acc))
    else pure (.inr (.node .separated (plus :: acc).reverse))
  else pure (.inr (.node .separated acc.reverse))

theorem atAnyWord_of_atWord {w : String} (h : atWord w ts = true) : atAnyWord ts = true := by
  cases ts with
  | nil => cases h
  | cons t ts =>
    cases t with
    | word => rfl
    | _ => cases h

/-- What begins bounds is taken for one after `+`. -/
theorem atBound_of_beginsBound (h : beginsBound ts = true) (allowConst : Bool) :
    atBound allowConst ts = true := by
  unfold atBound
  rcases beginsBound_iff.1 h with h | h | h | h | h
  · unfold beginsPath at h
    split at h
    · rfl
    · simp [atOp, atMarks]
    · cases h
  · rw [atAnyWord_of_atWord h]
    rfl
  · simp [h]
  · simp [h]
  · simp [h]

/-- **Bounds** with `+` between them. -/
theorem reads_bounds {allowPlus allowCapture allowConst : Bool} {first : Node} {rest : List Node}
    (hplus : allowPlus = false → rest = [])
    (hbounds : ∀ n ∈ first :: rest,
      Reads (g.bound allowCapture allowConst) n.leaves (EndsType false) n)
    (hbegin : ∀ n ∈ first :: rest, beginsBound n.leaves = true) :
    Reads (bounds g allowPlus allowCapture allowConst)
      (Node.partLeaves ((first :: rest).intersperse (.op "+"))).flatten (EndsType allowPlus)
      (.node .separated ((first :: rest).intersperse (.op "+"))) := by
  obtain ⟨-, hrest⟩ := List.forall_mem_cons.1 hbegin
  have hchain : Reads (loop (boundsRound g allowPlus allowCapture allowConst) [])
      (Node.partLeaves (first :: stepsOf "+" rest)).flatten (EndsType allowPlus)
      (.node .separated ((first :: stepsOf "+" rest).reverse ++ []).reverse) := by
    refine reads_chain (by decide) (fun acc => .node .separated acc.reverse) (fun n hn acc => ?_)
      (fun hne n hn acc => ?_) (fun n hn => shows_beginsBound (hrest n hn)) []
    · refine .bind_nil (hbounds n hn) (.look (.pure _ _) fun us hus after hafter => if_neg ?_)
        fun _ hafter => hafter.single
      cases hus
      cases hallow : allowPlus with
      | false => exact Bool.false_ne_true
      | true =>
        rw [List.nil_append, hafter.plus hallow]
        decide
    · obtain rfl : allowPlus = true := by
        cases allowPlus with
        | false => exact absurd (hplus rfl) hne
        | true => rfl
      refine .bind (hbounds n hn) (.look ?_ fun us hus after _ => if_pos ?_)
        fun us hus after _ => ?_
      · refine (reads_op (by decide)).bind_nil
          ((Reads.pure _ _).of_run fun us hus after hafter => ?_) fun _ _ => trivial
        cases hus
        rw [run_rest_bind, run_rest_bind, if_pos]
        rw [List.nil_append, atBound_of_beginsBound hafter, Bool.true_or]
      · exact atOp_of_tightened (by decide) hus after
      · obtain _ | _ | _ | _ | ⟨-, hus⟩ := hus
        exact endsType_plus _ _
  rw [List.append_nil, List.reverse_reverse] at hchain
  rw [intersperse_cons]
  exact hchain

end Parser

end Scaffold.Syntax
