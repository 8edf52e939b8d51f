import Scaffold.Proofs.Syntax.PlainType

/-!
# Reading paths back

A path is read segment by segment (`reads_path`, and `reads_qualifiedPath` for one that begins with
a type); arguments in angle brackets belong to a segment (`reads_angleSegment`), and those in
parentheses are read after the path and become those of its last segment (`reads_withParens`).

What is read depends on what follows: `EndsSegment`, `EndsPath`, `EndsType` and `EndsArgument` say
that nothing follows which would belong to what has been read.
-/

namespace Scaffold.Syntax

/-! ### Looking at the first token -/

/-- The mark that comes first. -/
def markAhead : List Token → Option Char
  | .punct c _ :: _ => some c
  | _ => none

namespace Parser

open Token

variable {ts : List Token} {marks w : String}

theorem atOp_of_markAhead {c : Char} {cs : List Char} (hmarks : marks.toList = c :: cs)
    (h : markAhead ts ≠ some c) : atOp marks ts = false := by
  unfold atOp
  rw [hmarks]
  cases ts with
  | nil => cases cs <;> rfl
  | cons t ts =>
    cases t with
    | punct d joint =>
      have hne : c ≠ d := fun heq => h (heq ▸ rfl)
      cases cs <;> simp [atMarks, hne]
    | _ => cases cs <;> rfl

theorem atOp_of_beginsType {c : Char} {cs : List Char} (h : beginsType ts = true)
    (hmarks : marks.toList = c :: cs) (hc : [':', '<', '&', '*', '!'].contains c = false) :
    atOp marks ts = false := by
  refine atOp_of_markAhead hmarks fun hahead => ?_
  unfold markAhead at hahead
  split at hahead
  · obtain rfl := Option.some.inj hahead
    rw [beginsType, hc] at h
    cases h
  · cases hahead

/-- The marks that begin bounds. -/
theorem mark_of_beginsBound {c : Char} {joint : Bool}
    (h : beginsBound (.punct c joint :: ts) = true) : c = ':' ∨ c = '?' := by
  rcases beginsBound_iff.1 h with h | h | h | h | h
  · unfold beginsPath at h
    split at h
    · rename_i heq
      cases heq
    · rename_i heq
      cases heq
      exact .inl rfl
    · cases h
  · cases h
  · exact .inr (of_decide_eq_true h).symm
  · cases h
  · cases h

theorem atOp_of_beginsBound {c : Char} {cs : List Char} (h : beginsBound ts = true)
    (hmarks : marks.toList = c :: cs) (hcolon : c ≠ ':') (hmaybe : c ≠ '?') :
    atOp marks ts = false := by
  refine atOp_of_markAhead hmarks fun hahead => ?_
  unfold markAhead at hahead
  split at hahead
  · obtain rfl := Option.some.inj hahead
    exact (mark_of_beginsBound h).elim hcolon hmaybe
  · cases hahead

/-- A keyword is no identifier, nor one of the words `also`. -/
theorem atWord_of_apart {raw : Bool} {name : String} {also : List String}
    (h : (raw || !isKeyword name || also.contains name) = true) (hw : isKeyword w = true)
    (hnot : also.contains w = false) (ts : List Token) :
    atWord w (.word raw name :: ts) = false := by
  cases raw with
  | true => rfl
  | false =>
    rw [atWord_word, beq_eq_false_iff_ne]
    rintro rfl
    rw [hw, hnot] at h
    cases h

/-- A keyword that begins no type. -/
theorem atWord_of_beginsType (h : beginsType ts = true) (hw : isKeyword w = true)
    (hnot : typeKeywords.contains w = false) : atWord w ts = false := by
  cases ts with
  | nil => rfl
  | cons t ts =>
    cases t with
    | word raw name => exact atWord_of_apart h hw hnot ts
    | _ => rfl

/-- Types begin with none of these. -/
theorem apart_of_beginsType (h : beginsType ts = true) :
    atLiteral ts = false ∧ atLifetime ts = false ∧ atGroup .brace ts = false ∧
      ts.isEmpty = false := by
  cases ts with
  | nil => cases h
  | cons t ts =>
    cases t with
    | word raw name =>
      refine ⟨?_, rfl, rfl, rfl⟩
      cases raw with
      | true => rfl
      | false =>
        have htrue := atWord_of_beginsType h (w := "true") (by decide) (by decide)
        have hfalse := atWord_of_beginsType h (w := "false") (by decide) (by decide)
        rw [atWord_word] at htrue hfalse
        simp [atLiteral, htrue, hfalse]
    | punct c joint =>
      refine ⟨?_, rfl, rfl, rfl⟩
      have hc : c ≠ '-' := by
        rintro rfl
        cases h
      unfold atLiteral
      split <;> simp_all
    | group delim content =>
      refine ⟨rfl, rfl, ?_, rfl⟩
      simpa [beginsType, atGroup] using h
    | lifetime => cases h
    | literal => cases h

/-! ### What may follow -/

/-- A segment without arguments ends here. -/
structure EndsSegment (ts : List Token) : Prop where
  angle : atOp "<" ts = false
  turbofish : atOp "::" ts = true → atOp "<" (after2 ts) = false

/-- A type ends here; the flag tells whether a `+` would belong to it. -/
structure EndsType (allowPlus : Bool) (ts : List Token) : Prop where
  angle : atOp "<" ts = false
  path : atOp "::" ts = false
  paren : atGroup .paren ts = false
  arrow : atOp "->" ts = false
  bang : atOp "!" ts = false
  hash : atOp "#" ts = false
  plus : allowPlus = true → atOp "+" ts = false

/-- A generic argument ends here. -/
structure EndsArgument (ts : List Token) : Prop extends EndsType true ts where
  equals : atOp "=" ts = false
  colon : atOp ":" ts = false
  mark : (atOp "," ts || atOp ">" ts) = true

/-- Where a `+` may not belong to a type, less is asked. -/
theorem EndsType.single {allowPlus : Bool} (h : EndsType allowPlus ts) : EndsType false ts :=
  { h with plus := fun h => absurd h Bool.false_ne_true }

theorem endsType_nil (allowPlus : Bool) : EndsType allowPlus [] :=
  ⟨rfl, rfl, rfl, rfl, rfl, rfl, fun _ => rfl⟩

/-- The marks that end types. -/
theorem endsType_mark {c : Char} (h : c ∉ ['<', ':', '-', '!', '#', '+']) (joint : Bool)
    (ts : List Token) : EndsType true (.punct c joint :: ts) := by
  have hnot (marks : String) (d : Char) (cs : List Char) (hmarks : marks.toList = d :: cs)
      (hd : d ∈ ['<', ':', '-', '!', '#', '+']) : atOp marks (.punct c joint :: ts) = false :=
    atOp_of_markAhead hmarks fun heq => h (Option.some.inj heq ▸ hd)
  exact ⟨hnot "<" _ _ rfl (by decide), hnot "::" _ _ rfl (by decide), rfl,
    hnot "->" _ _ rfl (by decide), hnot "!" _ _ rfl (by decide), hnot "#" _ _ rfl (by decide),
    fun _ => hnot "+" _ _ rfl (by decide)⟩

/-- A `+` ends a type that it may not belong to. -/
theorem endsType_plus (joint : Bool) (ts : List Token) : EndsType false (.punct '+' joint :: ts) :=
  ⟨rfl, rfl, rfl, rfl, rfl, rfl, fun h => absurd h Bool.false_ne_true⟩

/-- The marks that follow types in angle brackets. -/
theorem endsArgument_mark {c : Char} (h : c = ',' ∨ c = '>') (joint : Bool) (ts : List Token) :
    EndsArgument (.punct c joint :: ts) := by
  rcases h with rfl | rfl <;> exact ⟨endsType_mark (by decide) joint ts, rfl, rfl, rfl⟩

/-- A single colon ends a type. -/
theorem endsType_colon (h : atOp ":" ts = false) (joint : Bool) :
    EndsType true (.punct ':' joint :: ts) := by
  have hpath : (decide (':' = ':') && joint && atOp ":" ts) = false := by rw [h, Bool.and_false]
  exact ⟨rfl, hpath, rfl, rfl, rfl, rfl, fun _ => rfl⟩

/-- No colon comes first, however many marks are joint. -/
theorem atOp_colon_of_tightened (hts : beginsWithColon ts = false) {us after : List Token}
    (hus : Tightened ts us) (hafter : atOp ":" after = false) : atOp ":" (us ++ after) = false := by
  cases hus with
  | nil => exact hafter
  | punct =>
    refine atOp_of_markAhead rfl fun hahead => ?_
    obtain rfl := Option.some.inj hahead
    cases hts
  | _ => rfl

/-! ### Segments -/

section Segments

variable {g : Grammar} {style : Bool}

/-- A word that is an identifier, or one of the words `also`. -/
theorem reads_identOr {also : List String} {raw : Bool} {name : String}
    (h : (raw || !isKeyword name || also.contains name) = true) :
    Reads (identOr also) (Node.word raw name).leaves (fun _ => True) (.word raw name) := by
  rintro us (_ | ⟨⟨⟩⟩) after -
  have hlook (ts : List Token) : (identOr also).run ts =
      (if also.any (atWord · ts) then anyWord else ident).run ts := rfl
  have hident : (raw || !isKeyword name) = true →
      ident.run (.word raw name :: ([] ++ after)) = some (.word raw name, [] ++ after) := by
    intro hident
    unfold ident
    rw [run_rest_bind]
    dsimp only
    rw [if_pos hident]
    rfl
  rw [List.cons_append, hlook]
  split_ifs with hany
  · rfl
  · refine hident ?_
    cases raw with
    | true => rfl
    | false =>
      rw [Bool.or_eq_true] at h
      refine h.resolve_right fun hmem => hany ?_
      exact List.any_eq_true.2 ⟨name, List.contains_iff_mem.1 hmem, beq_self_eq_true name⟩

theorem reads_keywordSegment {name : String} (h : pathKeywords.contains name = true) :
    Reads (pathSegment g style) (bareSegment (.word false name)).leaves (fun _ => True)
      (bareSegment (.word false name)) := by
  refine .look (q := do pure (bareSegment (← anyWord))) ?_ fun us hus after _ => if_pos ?_
  · exact (reads_anyWord false name).map
  · obtain _ | ⟨⟨⟩⟩ := hus
    have hmem := List.contains_iff_mem.1 h
    have hsub : pathKeywords ⊆ ["super", "self", "crate", "try"] := by decide
    exact List.any_eq_true.2 ⟨name, hsub hmem, beq_self_eq_true name⟩

/-- No keyword that is a segment by itself. -/
theorem any_atWord_of_takesArguments {raw : Bool} {name : String}
    (h : Ident.takesArguments raw name = true) (ts : List Token) :
    ["super", "self", "crate", "try"].any (atWord · (.word raw name :: ts)) = false := by
  have hkeywords : ∀ w ∈ ["super", "self", "crate", "try"],
      isKeyword w = true ∧ ["Self"].contains w = false := by decide
  rw [List.any_eq_false]
  intro w hw
  obtain ⟨hkeyword, hself⟩ := hkeywords w hw
  rw [atWord_of_apart (Bool.and_eq_true_iff.1 h).2 hkeyword hself]
  decide

/-- A segment without arguments. -/
theorem reads_bareSegment {raw : Bool} {name : String} (h : Ident.takesArguments raw name = true) :
    Reads (pathSegment g style) (bareSegment (.word raw name)).leaves EndsSegment
      (bareSegment (.word raw name)) := by
  have hword := reads_identOr (Bool.and_eq_true_iff.1 h).2
  refine .look ?_ fun us hus after _ => if_neg ?_
  · refine hword.bind_nil (.look (.pure _ _) fun us hus after hafter => if_neg ?_)
      fun _ _ => trivial
    cases hus
    have hturbofish : (atOp "::" after && atOp "<" (after2 after)) = false := by
      rw [Bool.and_eq_false_imp]
      exact hafter.turbofish
    simp [hafter.angle, hturbofish]
  · obtain _ | ⟨⟨⟩⟩ := hus
    rw [List.cons_append, any_atWord_of_takesArguments h]
    decide

/-- A segment with arguments in angle brackets. -/
theorem reads_segment {raw : Bool} {name : String} {args : Node} {F : List Token → Prop}
    (h : Ident.takesArguments raw name = true) (hargs : Reads (angleArguments g) args.leaves F args)
    (hbegin : Shows (fun ts => ((!style && atOp "<" ts && !atOp "<=" ts) ||
      (atOp "::" ts && atOp "<" (after2 ts))) = true) args.leaves) :
    Reads (pathSegment g style) (Node.node .segment [.word raw name, args]).leaves F
      (.node .segment [.word raw name, args]) := by
  have hword := reads_identOr (Bool.and_eq_true_iff.1 h).2
  refine .look ?_ fun us hus after _ => if_neg ?_
  · refine hword.bind (.look ?_ fun us hus after _ => if_pos ?_) fun _ _ _ _ => trivial
    · exact hargs.last
    · exact (hbegin.append []) hus after
  · obtain _ | hus := hus
    rw [List.cons_append, any_atWord_of_takesArguments h]
    decide

/-! ### Paths -/

theorem atOp_of_atAnyWord {c : Char} {cs : List Char} (h : atAnyWord ts = true)
    (hmarks : marks.toList = c :: cs) : atOp marks ts = false := by
  refine atOp_of_markAhead hmarks ?_
  unfold atAnyWord at h
  split at h
  · exact nofun
  · cases h

/-- A path ends here: no segment and no arguments follow. -/
structure EndsPath (ts : List Token) : Prop where
  angle : atOp "<" ts = false
  path : atOp "::" ts = false

theorem EndsPath.endsSegment (h : EndsPath ts) : EndsSegment ts :=
  ⟨h.angle, fun hpath => by rw [h.path] at hpath; cases hpath⟩

/-- The colons before a segment, as a loop over segments sees them. -/
theorem exists_of_colons {n : Node} (hword : Shows (atAnyWord · = true) n.leaves) {us : List Token}
    (hus : Tightened ((Node.op "::").leaves ++ n.leaves) us) (after : List Token) :
    ∃ joint vs, us ++ after = .punct ':' true :: .punct ':' joint :: vs ∧ atAnyWord vs = true := by
  obtain ⟨colons, vs, rfl, hcolons, hvs⟩ := hus.append_inv
  obtain _ | _ | _ | _ | ⟨hjoint, hcolons⟩ := hcolons
  obtain _ | _ | _ | _ | ⟨-, hcolons⟩ := hcolons
  cases hcolons
  rw [hjoint rfl]
  exact ⟨_, vs ++ after, rfl, hword hvs after⟩

/-- What follows a segment: colons and another one, or the end of the path. -/
theorem endsSegment_of_steps {segments : List Node}
    (hwords : ∀ n ∈ segments, Shows (atAnyWord · = true) n.leaves) {us : List Token}
    (hus : Tightened (Node.partLeaves (stepsOf "::" segments)).flatten us) {after : List Token}
    (hafter : EndsSegment after) : EndsSegment (us ++ after) := by
  cases segments with
  | nil =>
    cases hus
    exact hafter
  | cons n segments =>
    have htokens : (Node.partLeaves (stepsOf "::" (n :: segments))).flatten =
        (Node.op "::").leaves ++ n.leaves ++ (Node.partLeaves (stepsOf "::" segments)).flatten := by
      rw [List.append_assoc]
      rfl
    rw [htokens] at hus
    obtain ⟨us, us', rfl, hus, -⟩ := hus.append_inv
    have hword := hwords n List.mem_cons_self
    obtain ⟨joint, vs, heq, hvs⟩ := exists_of_colons hword hus (us' ++ after)
    rw [List.append_assoc, heq]
    exact ⟨rfl, fun _ => atOp_of_atAnyWord hvs rfl⟩

/-- Colons and the segment after them. -/
def nextSegment (g : Grammar) (style : Bool) (acc : List Node) :
    Parser (List Node ⊕ List Node) := do
  let colons ← op "::"
  pure (.inl ((← pathSegment g style) :: colons :: acc))

/-- A loop over the segments after the first: it stops where a path ends, and goes on after colons
and a word. -/
theorem reads_segments {round : List Node → Parser (List Node ⊕ List Node)}
    (hdone : ∀ acc, Reads (round acc) [] EndsPath (.inr acc))
    (hround : ∀ acc joint ts, atAnyWord ts = true →
      (round acc).run (.punct ':' true :: .punct ':' joint :: ts) =
        (nextSegment g style acc).run (.punct ':' true :: .punct ':' joint :: ts))
    {segments : List Node}
    (hsegments : ∀ n ∈ segments, Reads (pathSegment g style) n.leaves EndsSegment n)
    (hwords : ∀ n ∈ segments, Shows (atAnyWord · = true) n.leaves) (acc : List Node) :
    Reads (loop round acc) (Node.partLeaves (stepsOf "::" segments)).flatten EndsPath
      ((stepsOf "::" segments).reverse ++ acc) := by
  have hlink : ∀ ns ⊆ segments, ∀ ⦃us⦄,
      Tightened (Node.partLeaves (stepsOf "::" ns)).flatten us →
      ∀ ⦃after⦄, EndsPath after → EndsSegment (us ++ after) := fun ns hns us hus after hafter =>
    endsSegment_of_steps (fun n hn => hwords n (hns hn)) hus hafter.endsSegment
  have hnext : ∀ n ∈ segments, ∀ acc, Reads (nextSegment g style acc)
      ((Node.op "::").leaves ++ n.leaves) EndsSegment (.inl (n :: .op "::" :: acc)) := by
    intro n hn acc
    refine .bind (reads_op (by decide)) ?_ fun _ _ _ _ => trivial
    exact (hsegments n hn).map
  refine reads_steps (by decide) hdone (fun n hn acc => (hnext n hn acc).of_run ?_) hlink acc
  · intro us hus after _
    obtain ⟨joint, vs, heq, hvs⟩ := exists_of_colons (hwords n hn) hus after
    rw [heq]
    exact hround acc joint vs hvs

/-- A group in parentheses is no word. -/
theorem atGroup_of_atAnyWord (h : atAnyWord ts = true) (delim : Delimiter) :
    atGroup delim ts = false := by
  unfold atAnyWord at h
  split at h
  · rfl
  · cases h

/-- **A path** is read segment by segment. -/
theorem reads_path {lead first : Node} {rest : List Node} (hlead : lead = .op "::" ∨ lead = .none)
    (hsegments : ∀ n ∈ first :: rest, Reads (pathSegment g style) n.leaves EndsSegment n)
    (hwords : ∀ n ∈ first :: rest, Shows (atAnyWord · = true) n.leaves) :
    Reads (path g style)
      (Node.node .path [lead, .node .separated ((first :: rest).intersperse (.op "::"))]).leaves
      EndsPath
      (.node .path [lead, .node .separated ((first :: rest).intersperse (.op "::"))]) := by
  obtain ⟨hfirst, hrest⟩ := List.forall_mem_cons.1 hsegments
  obtain ⟨hword, hwords⟩ := List.forall_mem_cons.1 hwords
  have hsteps : Reads (pathRest g style [first]) (Node.partLeaves (stepsOf "::" rest)).flatten
      EndsPath ((stepsOf "::" rest).reverse ++ [first]) := by
    refine reads_segments (fun acc => ?_) (fun acc joint ts hts => ?_) hrest hwords [first]
    · refine .look (.pure _ _) fun us hus after hafter => if_neg ?_
      cases hus
      rw [List.nil_append, hafter.path, Bool.false_and]
      decide
    · have hgroup : atGroup .paren ts = false := atGroup_of_atAnyWord hts .paren
      have hat : (atOp "::" (.punct ':' true :: .punct ':' joint :: ts) &&
          !atGroup .paren (after2 (.punct ':' true :: .punct ':' joint :: ts))) =
        !atGroup .paren ts := rfl
      rw [run_rest_bind, if_pos]
      · rfl
      · rw [hat, hgroup]
        rfl
  have htokens : (Node.node .path [lead, .node .separated (first :: stepsOf "::" rest)]).leaves =
      lead.leaves ++ (first.leaves ++ (Node.partLeaves (stepsOf "::" rest)).flatten) := by
    rw [← List.append_nil (first.leaves ++ _)]
    rfl
  have hresult : ((stepsOf "::" rest).reverse ++ [first]).reverse = first :: stepsOf "::" rest := by
    simp
  rw [intersperse_cons, htokens, ← hresult]
  refine .bind (reads_op? (by decide) hlead) (.bind hfirst hsteps.map ?_) ?_
  · exact fun us hus after hafter => endsSegment_of_steps hwords hus hafter.endsSegment
  · exact fun us hus after _ _ => atOp_of_atAnyWord ((hword.append _) hus after) rfl

/-! ### Qualified paths -/

/-- A path with a type in angle brackets, after the trait in them. -/
def afterTrait (g : Grammar) (style : Bool) (opening type trait : Node) : Parser Node := do
  let closing ← op ">"
  let colons ← op "::"
  let first ← pathSegment g style
  let segments ← loop (fun (acc : List Node) => do
    if atOp "::" (← rest) then
      let colons ← op "::"
      pure (.inl ((← pathSegment g style) :: colons :: acc))
    else pure (.inr acc)) [first]
  pure (.node .qualifiedPath
    [opening, type, trait, closing, colons, .node .separated segments.reverse])

theorem reads_afterTrait (opening type trait : Node) {first : Node} {rest : List Node}
    (hsegments : ∀ n ∈ first :: rest, Reads (pathSegment g style) n.leaves EndsSegment n)
    (hwords : ∀ n ∈ first :: rest, Shows (atAnyWord · = true) n.leaves) :
    Reads (afterTrait g style opening type trait)
      (Node.partLeaves [.op ">", .op "::",
        .node .separated ((first :: rest).intersperse (.op "::"))]).flatten EndsPath
      (.node .qualifiedPath [opening, type, trait, .op ">", .op "::",
        .node .separated ((first :: rest).intersperse (.op "::"))]) := by
  obtain ⟨hfirst, hrest⟩ := List.forall_mem_cons.1 hsegments
  obtain ⟨-, hwords⟩ := List.forall_mem_cons.1 hwords
  have htokens : (Node.partLeaves [.op ">", .op "::",
      .node .separated (first :: stepsOf "::" rest)]).flatten =
      (Node.op ">").leaves ++ ((Node.op "::").leaves ++
        (first.leaves ++ (Node.partLeaves (stepsOf "::" rest)).flatten)) := by
    rw [← List.append_nil (first.leaves ++ _)]
    rfl
  have hresult : ((stepsOf "::" rest).reverse ++ [first]).reverse = first :: stepsOf "::" rest := by
    simp
  rw [intersperse_cons, htokens, ← hresult]
  refine .bind (reads_op (by decide)) (.bind (reads_op (by decide)) (.bind hfirst
    (.map (reads_segments (fun acc => ?_) (fun acc joint ts hts => ?_) hrest hwords [first])) ?_)
    fun _ _ _ _ => trivial) fun _ _ _ _ => trivial
  · refine .look (.pure _ _) fun us hus after hafter => if_neg ?_
    cases hus
    rw [List.nil_append, hafter.path]
    decide
  · rfl
  · exact fun us hus after hafter => endsSegment_of_steps hwords hus hafter.endsSegment

/-- The type that a path begins with ends before its trait, and before its bracket. -/
theorem endsType_as (ts : List Token) : EndsType true (.word false "as" :: ts) :=
  ⟨rfl, rfl, rfl, rfl, rfl, rfl, fun _ => rfl⟩

/-- **A path that begins with a type.** -/
theorem reads_qualifiedPath {n trait first : Node} {rest : List Node}
    (hn : Reads (g.type true) n.leaves (EndsType true) n)
    (htrait : trait = .none ∨ ∃ p, trait = .node .asClause [.word false "as", p] ∧
      Reads (path g false) p.leaves EndsPath p)
    (hsegments : ∀ n ∈ first :: rest, Reads (pathSegment g style) n.leaves EndsSegment n)
    (hwords : ∀ n ∈ first :: rest, Shows (atAnyWord · = true) n.leaves) :
    Reads (qualifiedPath g style)
      (Node.node .qualifiedPath [.op "<", n, trait, .op ">", .op "::",
        .node .separated ((first :: rest).intersperse (.op "::"))]).leaves EndsPath
      (.node .qualifiedPath [.op "<", n, trait, .op ">", .op "::",
        .node .separated ((first :: rest).intersperse (.op "::"))]) := by
  have hrest := reads_afterTrait (.op "<") n trait hsegments hwords
  refine .look (.bind (reads_op (by decide)) (.bind hn ?_ ?_) fun _ _ _ _ => trivial)
    fun us hus after _ => if_pos ?_
  · rcases htrait with rfl | ⟨p, rfl, hp⟩
    · refine .look hrest fun us hus after _ => if_neg ?_
      obtain _ | _ | _ | _ | ⟨-, hus⟩ := hus
      exact Bool.false_ne_true
    · refine .look ?_ fun us hus after _ => if_pos ?_
      · have htokens (ts : List Token) :
            (Node.node .asClause [.word false "as", p]).leaves ++ ts =
              (Node.word false "as").leaves ++ (p.leaves ++ ts) := by
          simp [Node.leaves, Node.partLeaves]
        rw [Node.partLeaves, List.flatten_cons, htokens]
        refine .bind reads_kw (.bind hp hrest fun us hus after _ => ?_) fun _ _ _ _ => trivial
        obtain _ | _ | _ | _ | ⟨-, hus⟩ := hus
        exact ⟨rfl, rfl⟩
      · obtain _ | hus := hus
        rfl
  · intro us hus after _
    rcases htrait with rfl | ⟨p, rfl, -⟩
    · obtain _ | _ | _ | _ | ⟨-, hus⟩ := hus
      exact (endsArgument_mark (.inr rfl) _ _).toEndsType
    · obtain _ | hus := hus
      exact endsType_as _
  · obtain _ | _ | _ | _ | ⟨-, hus⟩ := hus
    rfl

/-! ### Arguments in parentheses -/

/-- The type of a result, or none. -/
theorem reads_output {n : Node} (hn : n = .none ∨ ∃ m, n = .node .returnType [.op "->", m] ∧
    Reads (g.type false) m.leaves (EndsType false) m) :
    Reads (returnType? g false) n.leaves (EndsType false) n := by
  rcases hn with rfl | ⟨m, rfl, hm⟩
  · refine .look (.pure _ _) fun us hus after hafter => if_neg ?_
    cases hus
    rw [List.nil_append, hafter.arrow]
    decide
  · refine .look ?_ fun us hus after _ => if_pos (atOp_of_tightened (by decide) hus after)
    exact .bind (reads_op (by decide)) hm.last fun _ _ _ _ => trivial

/-- Types separated by commas. -/
theorem reads_types {elems parts : List Node} (hparts : Separated "," elems parts)
    (helems : ∀ n ∈ elems, Reads (g.type true) n.leaves (EndsType true) n)
    (hbegin : ∀ n ∈ elems, beginsType n.leaves = true) :
    Reads (terminated "," (g.type true)) (Node.partLeaves parts).flatten (· = [])
      (.node .separated parts) := by
  refine (reads_sepUntil (by decide) hparts helems (fun n hn => ?_) ?_).mono fun after hafter => ?_
  · exact (shows_beginsType (hbegin n hn)).mono fun us hus => (apart_of_beginsType hus).2.2.2
  · exact shows_mark fun joint after => ⟨(endsArgument_mark (.inl rfl) joint after).toEndsType, rfl⟩
  · rw [hafter]
    exact ⟨endsType_nil true, rfl⟩

/-- Arguments in parentheses, and the type of the result. -/
theorem reads_parenArguments {inputs parts : List Node} {output : Node}
    (hparts : Separated "," inputs parts)
    (hinputs : ∀ n ∈ inputs, Reads (g.type true) n.leaves (EndsType true) n)
    (hbegin : ∀ n ∈ inputs, beginsType n.leaves = true)
    (houtput : Reads (returnType? g false) output.leaves (EndsType false) output) :
    Reads (parenArguments g)
      (Node.node .parenArgs [.group .paren [.node .separated parts], output]).leaves
      (EndsType false)
      (.node .parenArgs [.group .paren [.node .separated parts], output]) :=
  .bind (reads_groupNode (reads_types hparts hinputs hbegin).last) houtput.last
    fun _ _ _ _ => trivial

/-- A path that no arguments in parentheses follow. -/
theorem reads_withoutParens (path : Node) (allowPlus : Bool) :
    Reads (withParenArguments g path) [] (EndsType allowPlus) path := by
  refine .look (.pure _ _) fun us hus after hafter => if_neg ?_
  cases hus
  rw [List.nil_append, hafter.paren, hafter.path, Bool.false_and]
  decide

theorem intersperse_concat (sep n : Node) (ns : List Node) :
    (ns ++ [n]).intersperse sep = (ns.flatMap fun m => [m, sep]) ++ [n] := by
  induction ns with
  | nil => rfl
  | cons m ns ih =>
    have hne : ns ++ [n] ≠ [] := by simp
    obtain ⟨first, rest, heq⟩ := List.exists_cons_of_ne_nil hne
    rw [List.cons_append, heq, List.intersperse_cons_cons, ← heq, ih]
    rfl

theorem atOp_of_atGroup {delim : Delimiter} {c : Char} {cs : List Char}
    (h : atGroup delim ts = true) (hmarks : marks.toList = c :: cs) : atOp marks ts = false := by
  refine atOp_of_markAhead hmarks ?_
  unfold atGroup at h
  split at h
  · exact nofun
  · cases h

theorem withLastArguments_concat (args word old : Node) (before : List Node) :
    withLastArguments args (before ++ [.node .segment [word, old]]) =
      before ++ [.node .segment [word, args]] := by
  simp [withLastArguments]

/-- **The arguments in parentheses** that follow a path become those of its last segment. -/
theorem reads_withParens {lead word args : Node} {front : List Node}
    (hargs : Reads (parenArguments g) args.leaves (EndsType false) args)
    (hbegin : Shows (atGroup .paren · = true) args.leaves) :
    Reads (withParenArguments g (.node .path [lead, .node .separated
        ((front ++ [Node.node .segment [word, .none]]).intersperse (.op "::"))])) args.leaves
      (EndsType false)
      (.node .path [lead, .node .separated
        ((front ++ [Node.node .segment [word, args]]).intersperse (.op "::"))]) := by
  have hbare : (((front.flatMap fun m => [m, Node.op "::"]) ++
      [Node.node .segment [word, .none]]).getLast?.any hasNoArguments) = true := by
    rw [List.getLast?_concat]
    rfl
  have hcolons : Reads (op? "::") Node.none.leaves
      (fun after => Node.none = .none → atOp "::" after = false) .none :=
    reads_op? (by decide) (.inr rfl)
  rw [intersperse_concat, intersperse_concat, ← withLastArguments_concat args word .none]
  refine .look ?_ fun us hus after _ => if_pos ?_
  · dsimp only
    rw [if_pos hbare]
    have htokens : args.leaves = Node.none.leaves ++ args.leaves := rfl
    rw [htokens]
    exact .bind hcolons hargs.map fun us hus after _ _ => atOp_of_atGroup (hbegin hus after) rfl
  · rw [hbegin hus after, Bool.true_or]

/-! ### Arguments in angle brackets -/

/-- A whole number as a constant. -/
def numberArgument (text : String) : Node :=
  .node .constArg [.node .exprLit [noAttributes, .literal text]]

theorem reads_literal (text : String) :
    Reads literal (Node.literal text).leaves (fun _ => True) (.literal text) := by
  rintro us (_ | _ | _ | ⟨⟨⟩⟩) after -
  rfl

theorem reads_numberArgument (text : String) :
    Reads (constArgument g) (numberArgument text).leaves (fun _ => True) (numberArgument text) := by
  refine .look ?_ fun us hus after _ => if_pos ?_
  · exact (reads_literal text).map
  · obtain _ | _ | _ | ⟨⟨⟩⟩ := hus
    rfl

/-- A lifetime as an argument. -/
theorem reads_lifetimeArgument {n : Node} (hn : n.IsLifetime) :
    Reads (genericArgument g) n.leaves EndsArgument n := by
  obtain ⟨hn⟩ := hn
  refine .look ((reads_lifetime _ _).mono fun _ _ => trivial) fun us hus after hafter => if_pos ?_
  obtain _ | _ | ⟨⟨⟩⟩ := hus
  have hplus : (!atOp "+" after) = true := by rw [hafter.plus rfl]; rfl
  exact hplus

theorem reads_constArgument (text : String) :
    Reads (genericArgument g) (numberArgument text).leaves EndsArgument (numberArgument text) := by
  have hnumber := reads_numberArgument (g := g) text
  refine .look (hnumber.mono fun _ _ => trivial) fun us hus after _ => ?_
  obtain _ | _ | _ | ⟨⟨⟩⟩ := hus
  rfl

/-- What an argument that begins as a type becomes, after the type. -/
def afterType (g : Grammar) (type : Node) : Parser Node :=
  match singleSegment? type with
  | none => pure type
  | some (segment, args) => do
    let ts ← rest
    if atOp "=" ts then
      let eq ← op "="
      let ts ← rest
      if atLiteral ts || atGroup .brace ts then
        pure (.node .assocConst [segment, args, eq, ← constArgument g])
      else pure (.node .assocType [segment, args, eq, ← g.type true])
    else if atOp ":" ts then
      let colon ← op ":"
      let bounds ← sepWhile (fun ts => atOp "," ts || atOp ">" ts) "+" (g.bound false true)
      pure (.node .constraint [segment, args, colon, bounds])
    else pure type

/-- An argument that begins as a type. -/
theorem reads_genericArgument {type n : Node} {ts : List Token} {E F : List Token → Prop}
    (hbegin : beginsType type.leaves = true) (htype : Reads (g.type true) type.leaves F type)
    (hn : Reads (afterType g type) ts E n)
    (hlink : ∀ ⦃us⦄, Tightened ts us → ∀ ⦃after⦄, E after → F (us ++ after)) :
    Reads (genericArgument g) (type.leaves ++ ts) E n := by
  refine .look (.bind htype hn hlink) fun us hus after _ => ?_
  have hhead := ((shows_beginsType hbegin).append ts) hus after
  obtain ⟨hliteral, hlifetime, hbrace, -⟩ := apart_of_beginsType hhead
  rw [hliteral, hlifetime, hbrace, Bool.false_and, Bool.or_false, if_neg Bool.false_ne_true,
    if_neg Bool.false_ne_true]
  rfl

/-- A type as an argument. -/
theorem reads_typeArgument {n : Node} (hbegin : beginsType n.leaves = true)
    (hn : Reads (g.type true) n.leaves (EndsType true) n) :
    Reads (genericArgument g) n.leaves EndsArgument n := by
  rw [← List.append_nil n.leaves]
  refine reads_genericArgument hbegin hn ?_ fun us hus after hafter => ?_
  · unfold afterType
    cases singleSegment? n with
    | none => exact .pure _ _
    | some found =>
      refine .look (.pure _ _) fun us hus after hafter => ?_
      cases hus
      rw [List.nil_append, hafter.equals, hafter.colon]
      rfl
  · cases hus
    exact hafter.toEndsType

/-- The type that is a segment alone. -/
def segmentType (segment args : Node) : Node :=
  .node .typePath [.node .path [.none, .node .separated [.node .segment [segment, args]]]]

theorem leaves_segmentType (segment args : Node) :
    (segmentType segment args).leaves = segment.leaves ++ args.leaves := by
  simp [segmentType, Node.leaves, Node.partLeaves, Node.none]

section Bindings

variable {segment args : Node} (hbegin : beginsType (segmentType segment args).leaves = true)
  (hargs : args.isKind .parenArgs = false)
  (htype : Reads (g.type true) (segmentType segment args).leaves (EndsType true)
    (segmentType segment args))

include hargs in
theorem singleSegment?_segmentType :
    singleSegment? (segmentType segment args) = some (segment, args) := by
  have hfound : singleSegment? (segmentType segment args) =
      if Node.none.isNone && !args.isKind .parenArgs then some (segment, args) else none := rfl
  rw [hfound, hargs]
  rfl

include hbegin hargs htype

/-- An associated type that is given. -/
theorem reads_assocType {n : Node} (hbegins : beginsType n.leaves = true)
    (hn : Reads (g.type true) n.leaves (EndsType true) n) :
    Reads (genericArgument g) (Node.node .assocType [segment, args, .op "=", n]).leaves EndsArgument
      (.node .assocType [segment, args, .op "=", n]) := by
  have htokens : (Node.node .assocType [segment, args, .op "=", n]).leaves =
      (segmentType segment args).leaves ++ ((Node.op "=").leaves ++ n.leaves) := by
    simp [leaves_segmentType, Node.leaves, Node.partLeaves]
  rw [htokens]
  refine reads_genericArgument hbegin htype ?_ fun us hus after _ => ?_
  · unfold afterType
    rw [singleSegment?_segmentType hargs]
    refine .look ?_ fun us hus after _ => if_pos (atOp_of_tightened (by decide) hus after)
    refine .bind (reads_op (by decide)) (.look ?_ fun us hus after _ => if_neg ?_)
      fun _ _ _ _ => trivial
    · exact hn.map.mono fun _ h => h.toEndsType
    · obtain ⟨hliteral, -, hbrace, -⟩ := apart_of_beginsType (shows_beginsType hbegins hus after)
      rw [hliteral, hbrace]
      decide
  · obtain _ | _ | _ | _ | ⟨-, hus⟩ := hus
    exact endsType_mark (by decide) _ _

/-- An associated constant that is given as a number. -/
theorem reads_assocConst (text : String) :
    Reads (genericArgument g)
      (Node.node .assocConst [segment, args, .op "=", numberArgument text]).leaves EndsArgument
      (.node .assocConst [segment, args, .op "=", numberArgument text]) := by
  have htokens : (Node.node .assocConst [segment, args, .op "=", numberArgument text]).leaves =
      (segmentType segment args).leaves ++
        ((Node.op "=").leaves ++ (numberArgument text).leaves) := by
    simp [leaves_segmentType, Node.leaves, Node.partLeaves]
  rw [htokens]
  refine reads_genericArgument hbegin htype ?_ fun us hus after _ => ?_
  · unfold afterType
    rw [singleSegment?_segmentType hargs]
    refine .look ?_ fun us hus after _ => if_pos (atOp_of_tightened (by decide) hus after)
    refine .bind (reads_op (by decide)) (.look ?_ fun us hus after _ => if_pos ?_)
      fun _ _ _ _ => trivial
    · exact (reads_numberArgument text).map.mono fun _ _ => trivial
    · obtain _ | _ | _ | ⟨⟨⟩⟩ := hus
      rfl
  · obtain _ | _ | _ | _ | ⟨-, hus⟩ := hus
    exact endsType_mark (by decide) _ _

/-- An associated type with bounds: no colon may follow the one before them. -/
theorem reads_constraint {bounds parts : List Node} (hparts : Separated "+" bounds parts)
    (hbegins : ∀ n ∈ bounds, beginsBound n.leaves = true)
    (hbounds : ∀ n ∈ bounds, Reads (g.bound false true) n.leaves (EndsType false) n)
    (hcolon : beginsWithColon (Node.partLeaves parts).flatten = false) :
    Reads (genericArgument g)
      (Node.node .constraint [segment, args, .op ":", .node .separated parts]).leaves EndsArgument
      (.node .constraint [segment, args, .op ":", .node .separated parts]) := by
  have htokens : (Node.node .constraint [segment, args, .op ":", .node .separated parts]).leaves =
      (segmentType segment args).leaves ++
        ((Node.op ":").leaves ++ (Node.partLeaves parts).flatten) := by
    simp [leaves_segmentType, Node.leaves, Node.partLeaves]
  have hlist : Reads (sepWhile (fun ts => atOp "," ts || atOp ">" ts) "+" (g.bound false true))
      (Node.partLeaves parts).flatten EndsArgument (.node .separated parts) := by
    refine (reads_sepWhile (by decide) hparts hbounds (fun n hn => ?_) ?_).mono fun after h => ?_
    · refine (shows_beginsBound (hbegins n hn)).mono fun us hus => ?_
      rw [atOp_of_beginsBound hus rfl (by decide) (by decide),
        atOp_of_beginsBound hus rfl (by decide) (by decide), Bool.or_self]
    · exact shows_mark endsType_plus
    · exact ⟨h.toEndsType.single, h.mark, h.plus rfl⟩
  rw [htokens]
  refine reads_genericArgument hbegin htype ?_ fun us hus after hafter => ?_
  · unfold afterType
    rw [singleSegment?_segmentType hargs]
    refine .look ?_ fun us hus after _ => (if_neg ?_).trans
      (if_pos (atOp_of_tightened (by decide) hus after))
    · exact .bind (reads_op (by decide)) hlist.map fun _ _ _ _ => trivial
    · obtain _ | _ | _ | _ | ⟨-, hus⟩ := hus
      exact Bool.false_ne_true
  · obtain _ | _ | _ | _ | ⟨-, hus⟩ := hus
    exact endsType_colon (atOp_colon_of_tightened hcolon hus hafter.colon) _

end Bindings

/-- How a list of arguments, with the bracket after it, begins. -/
theorem shows_of_separated {P : List Token → Prop} {sep : String} {elems parts : List Node}
    (hparts : Separated sep elems parts) (helems : ∀ n ∈ elems, Shows P n.leaves) {ts : List Token}
    (hts : Shows P ts) : Shows P ((Node.partLeaves parts).flatten ++ ts) := by
  cases hparts with
  | nil => exact hts
  | last n => exact ((helems n List.mem_cons_self).append _).append ts
  | cons n => exact ((helems n List.mem_cons_self).append _).append ts

/-- **Arguments in angle brackets.** -/
theorem reads_angleArguments {colons : Node} {elems parts : List Node}
    (hcolons : colons = .op "::" ∨ colons = .none) (hparts : Separated "," elems parts)
    (hleaves : (Node.node .genericList parts).leaves = (Node.partLeaves parts).flatten)
    (helems : ∀ n ∈ elems, Reads (genericArgument g) n.leaves EndsArgument n)
    (hbegin : ∀ n ∈ elems, Shows (atOp ">" · = false) n.leaves) (F : List Token → Prop) :
    Reads (angleArguments g)
      (Node.node .angleArgs [colons, .op "<", .node .genericList parts, .op ">"]).leaves F
      (.node .angleArgs [colons, .op "<", .node .genericList parts, .op ">"]) := by
  have hlist : Reads (sepUntil (atOp ">") "," (genericArgument g) .genericList)
      (Node.node .genericList parts).leaves
      (fun after => EndsArgument after ∧ atOp ">" after = true)
      (.node .genericList parts) := by
    rw [hleaves]
    refine reads_sepUntil (by decide) hparts helems hbegin ?_
    exact shows_mark fun joint after => ⟨endsArgument_mark (.inl rfl) joint after, rfl⟩
  refine .bind (reads_op? (by decide) hcolons) (.bind (reads_op (by decide)) (.bind hlist
    ((reads_op (by decide)).last.mono fun _ _ => trivial) ?_) fun _ _ _ _ => trivial) ?_
  · intro us hus after _
    obtain _ | _ | _ | _ | ⟨-, hus⟩ := hus
    exact ⟨endsArgument_mark (.inr rfl) _ _, rfl⟩
  · intro us hus after _ _
    obtain _ | _ | _ | _ | ⟨-, hus⟩ := hus
    rfl

/-- A segment with arguments in angle brackets. -/
theorem reads_angleSegment {raw : Bool} {name : String} {colons : Node} {elems parts : List Node}
    (h : Ident.takesArguments raw name = true)
    (hcolons : colons = .op "::" ∨ colons = .none ∧ style = false)
    (hparts : Separated "," elems parts)
    (hleaves : (Node.node .genericList parts).leaves = (Node.partLeaves parts).flatten)
    (hargs : Reads (angleArguments g)
      (Node.node .angleArgs [colons, .op "<", .node .genericList parts, .op ">"]).leaves
      (fun _ => True) (.node .angleArgs [colons, .op "<", .node .genericList parts, .op ">"]))
    (hbegin : ∀ n ∈ elems, Shows (atOp "=" · = false) n.leaves) :
    Reads (pathSegment g style) (Node.node .segment [.word raw name,
      .node .angleArgs [colons, .op "<", .node .genericList parts, .op ">"]]).leaves (fun _ => True)
      (.node .segment [.word raw name,
        .node .angleArgs [colons, .op "<", .node .genericList parts, .op ">"]]) := by
  refine reads_segment h hargs fun us hus after => ?_
  -- no `<=` stands at the head, since no argument begins with `=`
  have hlist : Shows (atOp "=" · = false)
      ((Node.partLeaves parts).flatten ++ ((Node.op ">").leaves ++ [])) :=
    shows_of_separated hparts hbegin (shows_mark fun _ _ => rfl)
  rcases hcolons with rfl | ⟨rfl, rfl⟩
  · obtain _ | _ | _ | _ | ⟨hjoint, hus⟩ := hus
    obtain _ | _ | _ | _ | ⟨-, hus⟩ := hus
    obtain _ | _ | _ | _ | ⟨-, hus⟩ := hus
    rw [hjoint rfl]
    exact Bool.or_true _
  · replace hus : Tightened (.punct '<' false ::
        ((Node.node .genericList parts).leaves ++ ((Node.op ">").leaves ++ []))) us := hus
    rw [hleaves] at hus
    obtain _ | _ | _ | _ | @⟨_, _, joint, _, us, -, hus⟩ := hus
    have hle : atOp "<=" (.punct '<' joint :: (us ++ after)) =
      (joint && atOp "=" (us ++ after)) := rfl
    rw [hlist hus after, Bool.and_false] at hle
    rw [List.cons_append]
    dsimp only
    rw [hle]
    rfl

end Segments

end Parser

end Scaffold.Syntax
