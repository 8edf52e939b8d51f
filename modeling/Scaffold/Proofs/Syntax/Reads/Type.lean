import Scaffold.Proofs.Syntax.Reads.Bound

/-!
# Reading types back

There is one lemma for each form of a type.  The parser of types decides by the first token, so a
form is read where its parts are and what it begins with tells it from the forms before it.
-/

namespace Scaffold.Syntax

namespace Parser

open Token

variable {g : Grammar} {ts : List Token}

/-! ### Types that begin with a path -/

/-- A single colon stands at the head. -/
def atColon (ts : List Token) : Bool := atOp ":" ts && !atOp "::" ts

/-- Neither a number sign nor a single colon follows a word where a path goes on. -/
theorem apart_of_continuesPath {us after : List Token} (h : continuesPath ts = true)
    (hus : Tightened ts us) (hhash : atOp "#" after = false) :
    atOp "#" (us ++ after) = false ∧ (atOp ":" after = false → atColon (us ++ after) = false) := by
  unfold continuesPath at h
  split at h
  · cases hus
    refine ⟨hhash, fun hcolon => ?_⟩
    rw [atColon, List.nil_append, hcolon, Bool.false_and]
  · cases hus
    exact ⟨rfl, fun _ => rfl⟩
  · obtain _ | _ | _ | _ | ⟨hjoint, hus⟩ := hus
    obtain _ | _ | _ | _ | ⟨-, hus⟩ := hus
    rw [hjoint rfl]
    exact ⟨rfl, fun _ => rfl⟩
  · cases hus
    exact ⟨rfl, fun _ => rfl⟩
  · cases h

/-- Where a path begins, no type in angle brackets comes first. -/
theorem run_qualifiedPath {style : Bool} (h : beginsPath ts = true) :
    (qualifiedPath g style).run ts = (path g style).run ts := by
  have hangle : atOp "<" ts = false :=
    atOp_of_beginsBound (beginsBound_of_beginsTrait (beginsTrait_of_beginsPath h)) rfl
      (by decide) (by decide)
  unfold qualifiedPath
  rw [run_rest_bind, hangle, if_neg Bool.false_ne_true]

/-- Where a path is read, a path that may begin with a type is read as well. -/
theorem reads_qualified_of_path {n : Node} {allowPlus : Bool} (hbegin : beginsPath n.leaves = true)
    (hn : Reads (path g false >>= withParenArguments g) n.leaves (EndsType allowPlus) n) :
    Reads (qualifiedPath g false >>= withParenArguments g) n.leaves (EndsType allowPlus) n := by
  refine hn.of_run fun us hus after _ => ?_
  rw [StateT.run_bind, StateT.run_bind, run_qualifiedPath (shows_beginsPath hbegin hus after)]

/-- **A path as a type.** -/
theorem reads_pathType {n : Node} {allowPlus : Bool}
    (hn : Reads (qualifiedPath g false >>= withParenArguments g) n.leaves (EndsType allowPlus) n) :
    Reads (pathType g allowPlus .none) (Node.node .typePath [n]).leaves (EndsType allowPlus)
      (.node .typePath [n]) := by
  have htokens : (Node.node .typePath [n]).leaves = n.leaves := List.append_nil _
  rw [htokens]
  unfold pathType
  rw [← bind_assoc]
  refine hn.bind_nil ?_ fun _ h => h
  by_cases hkind : n.isKind .qualifiedPath = true
  · rw [if_pos hkind]
    exact .pure _ _
  · rw [if_neg hkind]
    refine .look (.pure _ _) fun us hus after hafter => ?_
    cases hus
    rw [List.nil_append, hafter.bang]
    cases allowPlus with
    | false => rfl
    | true =>
      rw [hafter.plus rfl]
      rfl

/-- A word that begins a path. -/
theorem atPathHead {raw : Bool} {name : String}
    (h : (raw || !isKeyword name || pathWords.contains name) = true) (ts : List Token) :
    (atIdent (.word raw name :: ts) || atPathWord (.word raw name :: ts)) = true := by
  cases raw with
  | true => rfl
  | false =>
    rw [Bool.or_eq_true] at h ⊢
    refine h.imp id fun hmem => ?_
    exact List.any_eq_true.2 ⟨name, List.contains_iff_mem.1 hmem, beq_self_eq_true name⟩

/-- Where a path begins, a type is one. -/
theorem run_type_of_beginsPath {allowPlus : Bool} (h : beginsPath ts = true)
    (hhash : ∀ raw name ts', ts = .word raw name :: ts' → atOp "#" ts' = false) :
    (type g allowPlus).run ts = (pathType g allowPlus .none).run ts := by
  unfold beginsPath at h
  split at h
  · rename_i raw name ts
    have hword (w : String) (hw : isKeyword w = true) (hnot : pathWords.contains w = false) :
        atWord w (.word raw name :: ts) = false := atWord_of_apart h hw hnot ts
    have hbinder : (binder? g).run (.word raw name :: ts) = some (.none, .word raw name :: ts) := by
      unfold binder? forLifetimes?
      rw [run_rest_bind, hword "for" (by decide) (by decide), if_neg Bool.false_ne_true]
      rfl
    have hnone : Node.none.isSome = false := rfl
    have hgroup : atGroup .paren (.word raw name :: ts) = false := rfl
    have hafter : atOp "#" (after1 (.word raw name :: ts)) = false := hhash raw name ts rfl
    have hpath := atPathHead h ts
    unfold type
    rw [run_rest_bind, run_bind hbinder, run_rest_bind]
    simp only [hnone, hgroup, hafter, hpath, hword "fn" (by decide) (by decide),
      hword "unsafe" (by decide) (by decide), hword "extern" (by decide) (by decide),
      Bool.false_and, Bool.and_false, Bool.or_self, Bool.true_or, Bool.false_eq_true, if_false,
      if_true]
  · rfl
  · cases h

/-- What follows the word that a path begins with. -/
theorem apart_after_word {us after : List Token} (hbegin : beginsPath ts = true)
    (hnext : ∀ raw name ts', ts = .word raw name :: ts' → continuesPath ts' = true)
    (hus : Tightened ts us) (hhash : atOp "#" after = false) (raw : Bool) (name : String)
    (ts' : List Token) (heq : us ++ after = .word raw name :: ts') :
    atOp "#" ts' = false ∧ (atOp ":" after = false → atColon ts' = false) := by
  cases hus with
  | nil => cases hbegin
  | word hus =>
    cases heq
    exact apart_of_continuesPath (hnext _ _ _ rfl) hus hhash
  | _ => cases heq

/-- **A type that is a path.** -/
theorem reads_typePath {n : Node} {allowPlus : Bool} (hbegin : beginsPath n.leaves = true)
    (hnext : ∀ raw name ts, n.leaves = .word raw name :: ts → continuesPath ts = true)
    (hn : Reads (path g false >>= withParenArguments g) n.leaves (EndsType allowPlus) n) :
    Reads (type g allowPlus) (Node.node .typePath [n]).leaves (EndsType allowPlus)
      (.node .typePath [n]) := by
  refine (reads_pathType (reads_qualified_of_path hbegin hn)).of_run fun us hus after hafter => ?_
  have htokens : (Node.node .typePath [n]).leaves = n.leaves := List.append_nil _
  rw [htokens] at hus
  exact run_type_of_beginsPath (shows_beginsPath hbegin hus after) fun raw name ts' heq =>
    (apart_after_word hbegin hnext hus hafter.hash raw name ts' heq).1

/-- **A type that is a path with a type in it.** -/
theorem reads_typeQualified {type trait segments : Node} {allowPlus : Bool}
    (hn : Reads (qualifiedPath g false)
      (Node.node .qualifiedPath [.op "<", type, trait, .op ">", .op "::", segments]).leaves EndsPath
      (.node .qualifiedPath [.op "<", type, trait, .op ">", .op "::", segments])) :
    Reads (Parser.type g allowPlus) (Node.node .typePath [.node .qualifiedPath
        [.op "<", type, trait, .op ">", .op "::", segments]]).leaves (EndsType allowPlus)
      (.node .typePath [.node .qualifiedPath
        [.op "<", type, trait, .op ">", .op "::", segments]]) := by
  refine (reads_pathType (hn.bind_nil (reads_withoutParens _ _) ?_)).of_run fun us hus _ _ => ?_
  · exact fun _ h => ⟨h.angle, h.path⟩
  obtain _ | _ | _ | _ | ⟨-, hus⟩ := hus
  rfl

/-! ### Types that begin with a mark -/

theorem reads_lifetime? {n : Node} (hn : n.IsLifetime ∨ n = .none) :
    Reads lifetime? n.leaves (fun after => n = .none → atLifetime after = false) n := by
  rcases hn with ⟨⟨⟩⟩ | rfl
  · refine .look ((reads_lifetime _ _).mono fun _ _ => trivial) fun us hus after _ => if_pos ?_
    obtain _ | _ | ⟨⟨⟩⟩ := hus
    rfl
  · refine .look (.pure _ _) fun us hus after hafter => if_neg ?_
    cases hus
    rw [List.nil_append, hafter rfl]
    decide

/-- A reference. -/
def referenceType (g : Grammar) : Parser Node := do
  let amp ← op "&"
  let name ← lifetime?
  let mutable ← kw? "mut"
  pure (.node .typeRef [amp, name, mutable, ← g.type false])

theorem reads_reference {lifetime mutable n : Node} {allowPlus : Bool}
    (hlifetime : lifetime.IsLifetime ∨ lifetime = .none)
    (hmutable : mutable = .word false "mut" ∨ mutable = .none)
    (hbegin : beginsType n.leaves = true) (hn : Reads (g.type false) n.leaves (EndsType false) n) :
    Reads (type g allowPlus) (Node.node .typeRef [.op "&", lifetime, mutable, n]).leaves
      (EndsType allowPlus) (.node .typeRef [.op "&", lifetime, mutable, n]) := by
  have hparts : Reads (referenceType g)
      (Node.node .typeRef [.op "&", lifetime, mutable, n]).leaves (EndsType false)
      (.node .typeRef [.op "&", lifetime, mutable, n]) := by
    have hhead := (shows_beginsType hbegin).append []
    refine .bind (reads_op (by decide)) (.bind (reads_lifetime? hlifetime)
      (.bind (reads_kw? hmutable) hn.last ?_) ?_) fun _ _ _ _ => trivial
    · intro us hus after _ _
      exact atWord_of_beginsType (hhead hus after) (by decide) (by decide)
    · intro us hus after _ _
      rcases hmutable with rfl | rfl
      · obtain _ | hus := hus
        rfl
      · exact (apart_of_beginsType (hhead hus after)).2.1
  refine (hparts.mono fun _ h => h.single).of_run fun us hus after _ => ?_
  obtain _ | _ | _ | _ | ⟨-, hus⟩ := hus
  rfl

/-- A raw pointer. -/
def pointerType (g : Grammar) : Parser Node := do
  let star ← op "*"
  let qualifier ← if atWord "const" (← rest) then kw "const" else kw "mut"
  pure (.node .typePtr [star, qualifier, ← g.type false])

theorem reads_pointer {qualifier : String} {n : Node} {allowPlus : Bool}
    (hqualifier : qualifier = "const" ∨ qualifier = "mut")
    (hn : Reads (g.type false) n.leaves (EndsType false) n) :
    Reads (type g allowPlus) (Node.node .typePtr [.op "*", .word false qualifier, n]).leaves
      (EndsType allowPlus) (.node .typePtr [.op "*", .word false qualifier, n]) := by
  have hparts : Reads (pointerType g)
      (Node.node .typePtr [.op "*", .word false qualifier, n]).leaves (EndsType false)
      (.node .typePtr [.op "*", .word false qualifier, n]) := by
    refine .bind (reads_op (by decide)) ?_ fun _ _ _ _ => trivial
    rcases hqualifier with rfl | rfl
    · refine .look (.bind reads_kw hn.last fun _ _ _ _ => trivial) fun us hus after _ => if_pos ?_
      obtain _ | hus := hus
      rfl
    · refine .look (.bind reads_kw hn.last fun _ _ _ _ => trivial) fun us hus after _ => if_neg ?_
      obtain _ | hus := hus
      exact Bool.false_ne_true
  refine (hparts.mono fun _ h => h.single).of_run fun us hus after _ => ?_
  obtain _ | _ | _ | _ | ⟨-, hus⟩ := hus
  rfl

theorem reads_never {allowPlus : Bool} :
    Reads (type g allowPlus) (Node.node .typeNever [.op "!"]).leaves (EndsType allowPlus)
      (.node .typeNever [.op "!"]) := by
  have hmark : Reads (op "!") (Node.op "!").leaves (fun _ => True) (.op "!") := reads_op (by decide)
  have hnode := hmark.last (f := fun mark => Node.node .typeNever [mark])
  refine (hnode.mono fun _ _ => trivial).of_run fun us hus after _ => ?_
  obtain _ | _ | _ | _ | ⟨-, hus⟩ := hus
  rfl

theorem reads_infer {allowPlus : Bool} :
    Reads (type g allowPlus) (Node.node .typeInfer [.word false "_"]).leaves (EndsType allowPlus)
      (.node .typeInfer [.word false "_"]) := by
  have hword := (reads_anyWord false "_").last (f := fun word => Node.node .typeInfer [word])
  refine (hword.mono fun _ _ => trivial).of_run fun us hus after _ => ?_
  obtain _ | ⟨⟨⟩⟩ := hus
  rfl

/-! ### Types in parentheses -/

/-- What follows the first type in parentheses. -/
def afterFirst (g : Grammar) (first : Node) : Parser (Node ⊕ Node) := do
  if atOp "," (← rest) then
    let comma ← op ","
    let more ← terminated "," (g.type true)
    pure (.inl (.node .typeTuple
      [.group .paren [.node .separated (first :: comma :: more.children)]]))
  else pure (.inl (.node .typeParen [.group .paren [first]]))

/-- What stands in the parentheses of a type. -/
def parenContent (g : Grammar) : Parser (Node ⊕ Node) := do
  let ts ← rest
  if ts.isEmpty then pure (.inl (.node .typeTuple [.group .paren [.node .separated []]]))
  else if atLifetime ts then
    let list ← bounds g true false false
    if namesTrait list then
      pure (.inl (.node .typeParen [.group .paren [.node .typeDyn [.none, list]]]))
    else failure
  else if atOp "?" ts then
    let (bound, isConst) ← traitBound g false
    if isConst then failure else pure (.inr (.node .parenBound [.group .paren [bound]]))
  else afterFirst g (← g.type true)

/-- What a type in parentheses is, by what stands in them: where no `+` follows, nothing else is
read. -/
theorem reads_parens {n : Node} {content : List Token} {allowPlus : Bool}
    (h : Reads (parenContent g) content (· = []) (.inl n)) :
    Reads (type g allowPlus) [.group .paren content] (EndsType allowPlus) n := by
  intro us hus after hafter
  have hrun : (group .paren (parenContent g)).run (us ++ after) = some (.inl n, after) :=
    reads_group h hus trivial
  have htype : (type g allowPlus).run (us ++ after) =
      (parenType g allowPlus).run (us ++ after) := by
    obtain _ | _ | _ | _ | _ | ⟨-, ⟨⟩⟩ := hus
    rfl
  have hplus : (allowPlus && atOp "+" after) = false := by
    rw [Bool.and_eq_false_imp]
    exact hafter.plus
  rw [htype]
  -- what is in the parentheses has been read; only a `+` after them would make bounds of it
  change (group .paren (parenContent g) >>= _).run (us ++ after) = _
  rw [run_bind hrun]
  dsimp only
  rw [run_rest_bind, hplus]
  rfl

theorem reads_unit {allowPlus : Bool} :
    Reads (type g allowPlus) (Node.node .typeTuple [.group .paren [.node .separated []]]).leaves
      (EndsType allowPlus) (.node .typeTuple [.group .paren [.node .separated []]]) := by
  refine reads_parens (.look (.pure _ _) fun us hus after hafter => if_pos ?_)
  cases hus
  rw [hafter]
  rfl

/-- Parentheses in which a type comes first. -/
theorem reads_parenContent {a : Node ⊕ Node} {n : Node} (hbegin : beginsType n.leaves = true)
    (hn : Reads (g.type true) n.leaves (EndsType true) n)
    (hmore : Reads (afterFirst g n) ts (· = []) a)
    (hlink : ∀ ⦃us⦄, Tightened ts us → EndsType true us) :
    Reads (parenContent g) (n.leaves ++ ts) (· = []) a := by
  refine .look (hn.bind hmore fun us hus after hafter => ?_) fun us hus after _ => ?_
  · rw [hafter, List.append_nil]
    exact hlink hus
  · have hhead := (shows_beginsType hbegin).append ts hus after
    obtain ⟨-, hlifetime, -, hempty⟩ := apart_of_beginsType hhead
    rw [hempty, hlifetime, atOp_of_beginsType hhead rfl (by decide), if_neg Bool.false_ne_true,
      if_neg Bool.false_ne_true, if_neg Bool.false_ne_true]

theorem reads_parenType {n : Node} {allowPlus : Bool} (hbegin : beginsType n.leaves = true)
    (hn : Reads (g.type true) n.leaves (EndsType true) n) :
    Reads (type g allowPlus) (Node.node .typeParen [.group .paren [n]]).leaves (EndsType allowPlus)
      (.node .typeParen [.group .paren [n]]) := by
  refine reads_parens (reads_parenContent hbegin hn (.look (.pure _ _) fun us hus after hafter =>
    if_neg ?_) fun us hus => ?_)
  · cases hus
    rw [hafter]
    exact Bool.false_ne_true
  · cases hus
    exact endsType_nil true

theorem reads_tuple {first : Node} {rest parts : List Node} {allowPlus : Bool}
    (hparts : Separated "," rest parts)
    (htypes : ∀ n ∈ first :: rest, Reads (g.type true) n.leaves (EndsType true) n)
    (hbegin : ∀ n ∈ first :: rest, beginsType n.leaves = true) :
    Reads (type g allowPlus)
      (Node.node .typeTuple [.group .paren [.node .separated (first :: .op "," :: parts)]]).leaves
      (EndsType allowPlus)
      (.node .typeTuple [.group .paren [.node .separated (first :: .op "," :: parts)]]) := by
  obtain ⟨hfirst, htypes⟩ := List.forall_mem_cons.1 htypes
  obtain ⟨hhead, hbegin⟩ := List.forall_mem_cons.1 hbegin
  have hmore : Reads (afterFirst g first) ((Node.op ",").leaves ++ (Node.partLeaves parts).flatten)
      (· = []) (.inl (.node .typeTuple
        [.group .paren [.node .separated (first :: .op "," :: parts)]])) := by
    refine .look (.bind (reads_op (by decide)) (reads_types hparts htypes hbegin).map
      fun _ _ _ _ => trivial) fun us hus after _ => if_pos ?_
    exact atOp_of_tightened (by decide) hus after
  have hcontent := reads_parenContent hhead hfirst hmore fun us hus => by
    obtain _ | _ | _ | _ | ⟨-, hus⟩ := hus
    exact (endsArgument_mark (.inl rfl) _ _).toEndsType
  have htokens : (Node.node .typeTuple
      [.group .paren [.node .separated (first :: .op "," :: parts)]]).leaves =
      [.group .paren
        (first.leaves ++ ((Node.op ",").leaves ++ (Node.partLeaves parts).flatten))] := by
    simp [Node.leaves, Node.partLeaves]
  rw [htokens]
  exact reads_parens hcontent

/-! ### Types in brackets -/

/-- What stands in the brackets of a type. -/
def bracketContent (g : Grammar) : Parser (List Node) := do
  let elem ← g.type true
  if atOp ";" (← rest) then pure [elem, ← op ";", ← g.expr true] else pure [elem]

/-- What a type in brackets is, by what stands in them. -/
theorem reads_brackets {parts : List Node} {allowPlus : Bool}
    (h : Reads (bracketContent g) (Node.partLeaves parts).flatten (· = []) parts) :
    Reads (type g allowPlus) (Node.group .bracket parts).leaves (EndsType allowPlus)
      (.node (if parts.length = 1 then .typeSlice else .typeArray) [.group .bracket parts]) := by
  have hgroup : Reads (group .bracket (bracketContent g)) (Node.group .bracket parts).leaves
      (fun _ => True) parts := reads_group h
  have hnode := hgroup.map (f := fun parts =>
    Node.node (if parts.length = 1 then .typeSlice else .typeArray) [.group .bracket parts])
  refine (hnode.mono fun _ _ => trivial).of_run fun us hus after _ => ?_
  obtain _ | _ | _ | _ | _ | ⟨-, ⟨⟩⟩ := hus
  rfl

theorem reads_slice {n : Node} {allowPlus : Bool}
    (hn : Reads (g.type true) n.leaves (EndsType true) n) :
    Reads (type g allowPlus) (Node.node .typeSlice [.group .bracket [n]]).leaves
      (EndsType allowPlus) (.node .typeSlice [.group .bracket [n]]) := by
  have hcontent : Reads (bracketContent g) (n.leaves ++ []) (· = []) [n] := by
    refine hn.bind (.look (.pure _ _) fun us hus after hafter => if_neg ?_)
      fun us hus after hafter => ?_
    · cases hus
      rw [hafter]
      exact Bool.false_ne_true
    · cases hus
      rw [hafter]
      exact endsType_nil true
  exact reads_brackets hcontent

/-- A type and a length in brackets. -/
theorem reads_array {n length : Node} {allowPlus : Bool}
    (hn : Reads (g.type true) n.leaves (EndsType true) n)
    (hlength : Reads (g.expr true) length.leaves (· = []) length) :
    Reads (type g allowPlus) (Node.node .typeArray [.group .bracket [n, .op ";", length]]).leaves
      (EndsType allowPlus) (.node .typeArray [.group .bracket [n, .op ";", length]]) := by
  have hcontent : Reads (bracketContent g)
      (Node.partLeaves [n, .op ";", length]).flatten (· = []) [n, .op ";", length] := by
    refine hn.bind (.look ?_ fun us hus after _ => if_pos ?_) fun us hus after _ => ?_
    · exact .bind (reads_op (by decide)) hlength.last fun _ _ _ _ => trivial
    · exact atOp_of_tightened (by decide) hus after
    · obtain _ | _ | _ | _ | ⟨-, hus⟩ := hus
      exact endsType_mark (by decide) _ _
  exact reads_brackets hcontent

/-! ### Lengths of arrays -/

theorem reads_number (text : String) :
    Reads (expr g true) (Node.node .exprLit [.list [], .literal text]).leaves (· = [])
      (.node .exprLit [.list [], .literal text]) := by
  intro us hus after hafter
  obtain _ | _ | _ | ⟨⟨⟩⟩ := hus
  rw [hafter]
  rfl

/-- Where a path begins, an expression does not begin with anything else. -/
theorem run_atom_of_beginsPath (h : beginsPath ts = true)
    (hhash : ∀ raw name ts', ts = .word raw name :: ts' → atOp "#" ts' = false) :
    (atom g true).run ts = (pathHeaded g true).run ts := by
  unfold beginsPath at h
  split at h
  · rename_i raw name ts
    have hword (w : String) (hw : isKeyword w = true) (hnot : pathWords.contains w = false) :
        atWord w (.word raw name :: ts) = false := atWord_of_apart h hw hnot ts
    have hhead : beginsPath (.word raw name :: ts) = true := h
    obtain ⟨hliteral, -⟩ := apart_of_beginsType (beginsType_of_beginsPath hhead)
    have hbar : atOp "|" (.word raw name :: ts) = false := rfl
    have hafter : atOp "#" (after1 (.word raw name :: ts)) = false := hhash raw name ts rfl
    have hpath (b : Bool) : (atIdent (.word raw name :: ts) || atOp "::" (.word raw name :: ts) ||
        atOp "<" (.word raw name :: ts) || atPathWord (.word raw name :: ts) || b) = true := by
      rcases Bool.or_eq_true_iff.1 (atPathHead h ts) with hident | hword
      · simp only [hident, Bool.true_or]
      · simp only [hword, Bool.or_true, Bool.true_or]
    unfold atom
    rw [run_rest_bind]
    simp only [hliteral, hbar, hafter, hpath, hword "async" (by decide) (by decide),
      hword "try" (by decide) (by decide), hword "move" (by decide) (by decide),
      hword "for" (by decide) (by decide), hword "const" (by decide) (by decide),
      hword "static" (by decide) (by decide), Bool.false_and, Bool.and_false, Bool.or_self,
      Bool.false_eq_true, if_false, if_true]
  · rfl
  · cases h

/-- The marks that an expression which is a path begins with. -/
theorem reads_constant {n : Node} (hn : Reads (qualifiedPath g true) n.leaves EndsPath n)
    (hmark : ∀ ⦃us⦄, Tightened n.leaves us → ∀ c ∈ ['#', '&', '*', '!', '-'], markAhead us ≠ some c)
    (hatom : ∀ ⦃us⦄, Tightened n.leaves us → (atom g true).run us = (pathHeaded g true).run us) :
    Reads (expr g true) (Node.node .exprPath [.list [], n]).leaves (· = [])
      (.node .exprPath [.list [], n]) := by
  have htokens : (Node.node .exprPath [.list [], n]).leaves = n.leaves := List.append_nil _
  rw [htokens]
  rintro us hus _ rfl
  rw [List.append_nil]
  have hmark (marks : String) (c : Char) (hmarks : marks.toList = [c])
      (hc : c ∈ ['#', '&', '*', '!', '-']) : atOp marks us = false :=
    atOp_of_markAhead hmarks (hmark hus c hc)
  have hattrs : (outerAttributes g).run us = some (.list [], us) :=
    reads_outerAttributes .nil (hmark "#" '#' rfl (by decide))
  have hpath : (qualifiedPath g true).run us = some (n, []) := by
    rw [← List.append_nil us]
    exact hn hus ⟨rfl, rfl⟩
  have hheaded : (pathHeaded g true).run us = some (pathExpr n, []) := by
    unfold pathHeaded
    rw [run_bind hpath, run_rest_bind]
    have hbang : (n.isKind .path && atOp "!" [] && !atOp "!=" [] && isModPath n) = false := by
      have hnil : atOp "!" [] = false := rfl
      rw [hnil, Bool.and_false, Bool.false_and, Bool.false_and]
    rw [hbang]
    rfl
  have hunary : (unary g true).run us = some (pathExpr n, []) := by
    unfold unary
    rw [run_rest_bind, run_bind hattrs, run_rest_bind]
    rw [hmark "&" '&' rfl (by decide), hmark "*" '*' rfl (by decide), hmark "!" '!' rfl (by decide),
      hmark "-" '-' rfl (by decide), if_neg Bool.false_ne_true, Bool.or_self, Bool.or_self,
      if_neg Bool.false_ne_true, run_bind ((hatom hus).trans hheaded)]
    rfl
  unfold expr
  rw [run_bind hunary]
  rfl

/-- A path as an expression. -/
theorem reads_constantPath {n : Node} (hbegin : beginsPath n.leaves = true)
    (hnext : ∀ raw name ts, n.leaves = .word raw name :: ts → continuesPath ts = true)
    (hn : Reads (path g true) n.leaves EndsPath n) :
    Reads (expr g true) (Node.node .exprPath [.list [], n]).leaves (· = [])
      (.node .exprPath [.list [], n]) := by
  have hhead : ∀ ⦃us⦄, Tightened n.leaves us → beginsPath us = true := by
    intro us hus
    rw [← List.append_nil us]
    exact shows_beginsPath hbegin hus []
  refine reads_constant (hn.of_run fun us hus after _ => ?_) (fun us hus c hc hahead => ?_)
    fun us hus => ?_
  · exact run_qualifiedPath (shows_beginsPath hbegin hus after)
  · cases us with
    | nil => cases hahead
    | cons t ts =>
      cases t with
      | punct d joint =>
        obtain rfl := Option.some.inj hahead
        have hbound := beginsBound_of_beginsTrait (beginsTrait_of_beginsPath (hhead hus))
        obtain rfl | rfl := mark_of_beginsBound hbound <;> revert hc <;> decide
      | _ => cases hahead
  · refine run_atom_of_beginsPath (hhead hus) fun raw name ts' heq => ?_
    rw [← List.append_nil us] at heq
    exact (apart_after_word hbegin hnext hus rfl raw name ts' heq).1

/-- A path with a type in it as an expression. -/
theorem reads_constantQualified {type trait segments : Node}
    (hn : Reads (qualifiedPath g true)
      (Node.node .qualifiedPath [.op "<", type, trait, .op ">", .op "::", segments]).leaves EndsPath
      (.node .qualifiedPath [.op "<", type, trait, .op ">", .op "::", segments])) :
    Reads (expr g true) (Node.node .exprPath [.list [], .node .qualifiedPath
        [.op "<", type, trait, .op ">", .op "::", segments]]).leaves (· = [])
      (.node .exprPath [.list [], .node .qualifiedPath
        [.op "<", type, trait, .op ">", .op "::", segments]]) := by
  refine reads_constant hn (fun us hus c hc hahead => ?_) fun us hus => ?_
  · obtain _ | _ | _ | _ | ⟨-, hus⟩ := hus
    obtain rfl := Option.some.inj hahead
    revert hc
    decide
  · obtain _ | _ | _ | _ | ⟨-, hus⟩ := hus
    rfl

/-! ### Types that are bounds -/

theorem reads_object {list : Node} {allowPlus : Bool} (hbegin : beginsBound list.leaves = true)
    (hnames : namesTrait list = true)
    (hlist : Reads (bounds g allowPlus false false) list.leaves (EndsType allowPlus) list) :
    Reads (type g allowPlus) (Node.node .typeDyn [.word false "dyn", list]).leaves
      (EndsType allowPlus) (.node .typeDyn [.word false "dyn", list]) := by
  have htokens : (Node.node .typeDyn [.word false "dyn", list]).leaves =
      .word false "dyn" :: list.leaves := by
    simp [Node.leaves, Node.partLeaves]
  rw [htokens]
  intro us hus after hafter
  obtain _ | @⟨_, _, _, us, hus⟩ := hus
  have hkeyword : (kw "dyn").run (.word false "dyn" :: (us ++ after)) =
      some (.word false "dyn", us ++ after) := rfl
  have hstar : (op? "*").run (us ++ after) = some (.none, us ++ after) := by
    have hnone : Reads (op? "*") Node.none.leaves
        (fun after => Node.none = .none → atOp "*" after = false) .none :=
      reads_op? (by decide) (.inr rfl)
    exact hnone .nil fun _ =>
      atOp_of_beginsBound (shows_beginsBound hbegin hus after) rfl (by decide) (by decide)
  have hdyn : (type g allowPlus).run (.word false "dyn" :: (us ++ after)) =
      (dynType g allowPlus).run (.word false "dyn" :: (us ++ after)) := rfl
  rw [List.cons_append, hdyn]
  unfold dynType
  rw [run_rest_bind, run_bind hkeyword, run_bind hstar, run_bind (hlist hus hafter), hnames]
  rfl

/-- A type of which bounds are known. -/
def implType (g : Grammar) (allowPlus : Bool) : Parser Node := do
  let keyword ← kw "impl"
  let list ← bounds g allowPlus true true
  if namesTrait list then pure (.node .typeImpl [keyword, list]) else failure

theorem reads_existential {list : Node} {allowPlus : Bool} (hnames : namesTrait list = true)
    (hlist : Reads (bounds g allowPlus true true) list.leaves (EndsType allowPlus) list) :
    Reads (type g allowPlus) (Node.node .typeImpl [.word false "impl", list]).leaves
      (EndsType allowPlus) (.node .typeImpl [.word false "impl", list]) := by
  have htokens : (Node.node .typeImpl [.word false "impl", list]).leaves =
      (Node.word false "impl").leaves ++ list.leaves := by
    simp [Node.leaves, Node.partLeaves]
  have hparts : Reads (implType g allowPlus) ((Node.word false "impl").leaves ++ list.leaves)
      (EndsType allowPlus) (.node .typeImpl [.word false "impl", list]) := by
    refine .bind reads_kw (hlist.bind_nil ?_ fun _ h => h) fun _ _ _ _ => trivial
    rw [if_pos hnames]
    exact .pure _ _
  rw [htokens]
  refine hparts.of_run fun us hus after _ => ?_
  obtain _ | hus := hus
  rfl

/-! ### Function pointers -/

/-- An argument of a function pointer ends here. -/
structure EndsInput (ts : List Token) : Prop extends EndsType true ts where
  colon : atOp ":" ts = false

/-- Whether a word with a colon after it comes first, as before a type that is named. -/
def atName (ts : List Token) : Bool :=
  (atIdent ts || atWord "_" ts || atWord "self" ts) && atColon (after1 ts)

/-- An argument without a name. -/
theorem run_fnPointerArg {n : Node} {ts' : List Token} (first : Bool) (attrs : Node)
    (hmut : atWord "mut" ts = false) (hname : atName ts = false)
    (hn : (g.type true).run ts = some (n, ts')) (hsome : n.isNone = false) :
    (fnPointerArg g first attrs).run ts = some (.node .typeArg [attrs, .none, n], ts') := by
  have hself : (first && atWord "self" ts && atOp ":" (after1 ts) &&
      !atOp "::" (after1 ts)) = false := by
    simp only [atName, atColon] at hname
    grind
  have hident : ((atIdent ts || atWord "_" ts) && atOp ":" (after1 ts) &&
      !atOp "::" (after1 ts)) = false := by
    simp only [atName, atColon] at hname
    grind
  -- no receiver and no name is seen, so the type is read at once
  unfold fnPointerArg
  rw [run_rest_bind]
  simp only [hmut, Bool.and_false, Bool.false_and]
  rw [if_neg Bool.false_ne_true, run_rest_bind, hself, hident, Bool.or_self,
    if_neg Bool.false_ne_true, pure_bind, run_rest_bind, hmut, Bool.and_false, Bool.false_and,
    Bool.and_false, if_neg Bool.false_ne_true, if_neg Bool.false_ne_true, run_bind hn, hsome]
  rfl

/-- An argument with a name. -/
theorem run_fnPointerArg_named {raw joint : Bool} {name : String} {n : Node} {ts' : List Token}
    (first : Bool) (attrs : Node) (hname : Ident.namesArgument raw name = true)
    (hmut : atWord "mut" ts = false) (hcolon : atOp ":" ts = false)
    (hn : (g.type true).run ts = some (n, ts')) (hsome : n.isNone = false) :
    (fnPointerArg g first attrs).run (.word raw name :: .punct ':' joint :: ts) =
      some (.node .typeArg [attrs, .node .argName [.word raw name, .op ":"], n], ts') := by
  have hspell := (Bool.and_eq_true_iff.1 hname).2
  have hword (w : String) (hw : isKeyword w = true) (hnot : ["_"].contains w = false) :
      atWord w (.word raw name :: .punct ':' joint :: ts) = false :=
    atWord_of_apart hspell hw hnot _
  have hnamed : (atIdent (.word raw name :: .punct ':' joint :: ts) ||
      atWord "_" (.word raw name :: .punct ':' joint :: ts)) = true := by
    cases raw with
    | true => rfl
    | false =>
      rw [Bool.or_eq_true] at hspell ⊢
      refine hspell.imp id fun hmem => ?_
      rw [List.mem_singleton.1 (List.contains_iff_mem.1 hmem)]
      rfl
  have hone : atOp ":" (after1 (.word raw name :: .punct ':' joint :: ts)) = true := rfl
  have htwo : atOp "::" (after1 (.word raw name :: .punct ':' joint :: ts)) = false := by
    have hjoint : atOp "::" (after1 (.word raw name :: .punct ':' joint :: ts)) =
      (joint && atOp ":" ts) := rfl
    rw [hjoint, hcolon, Bool.and_false]
  have hwordRun : anyWord.run (.word raw name :: .punct ':' joint :: ts) =
      some (.word raw name, .punct ':' joint :: ts) := rfl
  have hcolonRun : (op ":").run (.punct ':' joint :: ts) = some (.op ":", ts) := rfl
  unfold fnPointerArg
  rw [run_rest_bind]
  simp only [hword "mut" (by decide) (by decide), Bool.and_false, Bool.false_and]
  rw [if_neg Bool.false_ne_true, run_rest_bind, hword "self" (by decide) (by decide), hnamed, hone,
    htwo, if_pos (by simp), run_bind hwordRun, run_bind hcolonRun, pure_bind, run_rest_bind, hmut,
    Bool.and_false, if_neg (by simp), if_neg Bool.false_ne_true, run_bind hn, hsome]
  rfl

/-- A round of `fnPointerArgs`. -/
def fnPointerRound (g : Grammar) (acc : List Node) : Parser (List Node ⊕ Node) := do
  if (← rest).isEmpty then pure (.inr (.node .separated acc.reverse))
  else
    let attrs ← outerAttributes g
    let ts ← rest
    let namedDots := (atIdent ts || atWord "_" ts) && atOp ":" (after1 ts) &&
      atOp "..." (after2 ts)
    if atOp "..." ts || namedDots then
      let name ←
        if namedDots then do pure (.node .argName [← anyWord, ← op ":"]) else pure .none
      let dots ← op "..."
      let comma ← op? ","
      let tail := if comma.isNone then [] else [comma]
      pure (.inr (.node .separated
        (acc.reverse ++ .node .variadic [attrs, name, dots] :: tail)))
    else
      let arg ← fnPointerArg g acc.isEmpty attrs
      if (← rest).isEmpty then pure (.inr (.node .separated (arg :: acc).reverse))
      else pure (.inl ((← op ",") :: arg :: acc))

theorem fnPointerArgs_eq (g : Grammar) : fnPointerArgs g = loop (fnPointerRound g) [] := rfl

/-- What follows an argument in a round of `fnPointerArgs`. -/
def afterInput (acc : List Node) : Parser (List Node ⊕ Node) := do
  if (← rest).isEmpty then pure (.inr (.node .separated acc.reverse))
  else pure (.inl ((← op ",") :: acc))

/-- An argument of a function pointer begins here. -/
structure BeginsInput (ts : List Token) : Prop where
  nonempty : ts.isEmpty = false
  hash : atOp "#" ts = false
  dots : atOp "..." ts = false
  namedDots : ((atIdent ts || atWord "_" ts) && atOp ":" (after1 ts) &&
    atOp "..." (after2 ts)) = false

/-- A round of `fnPointerArgs` reads an argument. -/
theorem run_fnPointerRound {n : Node} {ts' : List Token} (acc : List Node) (hbegin : BeginsInput ts)
    (hn : ∀ first, (fnPointerArg g first (.list [])).run ts = some (n, ts')) :
    (fnPointerRound g acc).run ts = (afterInput (n :: acc)).run ts' := by
  have hattrs : (outerAttributes g).run ts = some (.list [], ts) :=
    reads_outerAttributes .nil hbegin.hash
  unfold fnPointerRound
  rw [run_rest_bind, hbegin.nonempty, if_neg Bool.false_ne_true, run_bind hattrs, run_rest_bind]
  dsimp only
  rw [hbegin.dots, hbegin.namedDots, Bool.or_self, if_neg Bool.false_ne_true, run_bind (hn _)]
  rfl

/-- No dots follow two colons. -/
theorem not_atDots_of_atColons (h : atOp "::" ts = true) : atOp "..." (after1 ts) = false := by
  cases ts with
  | nil => cases h
  | cons t ts =>
    cases t with
    | punct c joint =>
      refine atOp_of_markAhead rfl fun hahead => ?_
      have hsecond : atMarks [':'] ts = true := (Bool.and_eq_true_iff.1 h).2
      cases ts with
      | nil => cases hsecond
      | cons t ts =>
        cases t with
        | punct d joint =>
          obtain rfl := Option.some.inj hahead
          cases hsecond
        | _ => cases hsecond
    | _ => cases h

/-- A type without a name begins an argument. -/
theorem BeginsInput.type (hbegin : beginsType ts = true) (hname : atName ts = false) :
    BeginsInput ts := by
  obtain ⟨-, -, -, hempty⟩ := apart_of_beginsType hbegin
  refine ⟨hempty, atOp_of_beginsType hbegin rfl (by decide),
    atOp_of_beginsType hbegin rfl (by decide), ?_⟩
  have hdots : atOp "::" (after1 ts) = true → atOp "..." (after2 ts) = false := fun h => by
    have hafter : after2 ts = after1 (after1 ts) := by
      rw [after1, after1, List.drop_drop]
      rfl
    rw [hafter]
    exact not_atDots_of_atColons h
  simp only [atName, atColon] at hname
  grind

/-- A name begins an argument. -/
theorem BeginsInput.named {raw joint : Bool} {name : String} (hbegin : beginsType ts = true) :
    BeginsInput (.word raw name :: .punct ':' joint :: ts) := by
  have hdots : atOp "..." (after2 (.word raw name :: .punct ':' joint :: ts)) = false :=
    atOp_of_beginsType hbegin rfl (by decide)
  refine ⟨rfl, rfl, rfl, ?_⟩
  rw [hdots, Bool.and_false]

/-- An argument as the rounds of `fnPointerArgs` read it. -/
def ReadsInput (g : Grammar) (n : Node) : Prop :=
  ∀ ⦃us⦄, Tightened n.leaves us → ∀ ⦃after⦄, EndsInput after → BeginsInput (us ++ after) ∧
    ∀ first, (fnPointerArg g first (.list [])).run (us ++ after) = some (n, after)

/-- A type as an argument. -/
theorem readsInput_type {n : Node} (hbegin : beginsType n.leaves = true) (hsome : n.isNone = false)
    (hn : Reads (g.type true) n.leaves (EndsType true) n)
    (hname : ∀ ⦃us⦄, Tightened n.leaves us → ∀ ⦃after⦄, EndsInput after →
      atName (us ++ after) = false) :
    ReadsInput g (.node .typeArg [.list [], .none, n]) := by
  intro us hus after hafter
  have htokens : (Node.node .typeArg [.list [], .none, n]).leaves = n.leaves := List.append_nil _
  rw [htokens] at hus
  have hhead := shows_beginsType hbegin hus after
  have hname := hname hus hafter
  exact ⟨.type hhead hname, fun first => run_fnPointerArg first _
    (atWord_of_beginsType hhead (by decide) (by decide)) hname (hn hus hafter.toEndsType) hsome⟩

/-- A type with a name as an argument: no colon may follow the one after the name. -/
theorem readsInput_named {raw : Bool} {name : String} {n : Node}
    (hname : Ident.namesArgument raw name = true) (hbegin : beginsType n.leaves = true)
    (hcolon : beginsWithColon n.leaves = false) (hsome : n.isNone = false)
    (hn : Reads (g.type true) n.leaves (EndsType true) n) :
    ReadsInput g (.node .typeArg [.list [], .node .argName [.word raw name, .op ":"], n]) := by
  intro us hus after hafter
  have htokens : (Node.node .typeArg
      [.list [], .node .argName [.word raw name, .op ":"], n]).leaves =
      .word raw name :: .punct ':' false :: n.leaves := by
    simp [Node.leaves, Node.partLeaves, Token.ofOperator, Node.list]
  rw [htokens] at hus
  obtain _ | hus := hus
  obtain _ | _ | _ | _ | ⟨-, hus⟩ := hus
  have hhead := shows_beginsType hbegin hus after
  exact ⟨.named hhead, fun first => run_fnPointerArg_named first _ hname
    (atWord_of_beginsType hhead (by decide) (by decide))
    (atOp_colon_of_tightened hcolon hus hafter.colon) (hn hus hafter.toEndsType) hsome⟩

/-- **The arguments of a function pointer.** -/
theorem reads_fnPointerArgs {elems parts : List Node} (hparts : Separated "," elems parts)
    (helems : ∀ n ∈ elems, ReadsInput g n) :
    Reads (fnPointerArgs g) (Node.partLeaves parts).flatten (· = []) (.node .separated parts) := by
  rw [fnPointerArgs_eq]
  refine reads_separated (by decide) (fun acc => ?_) (fun n hn acc => ?_) (fun n hn acc => ?_)
    hparts []
  · refine .look (.pure _ _) fun us hus after hafter => if_pos ?_
    cases hus
    rw [hafter]
    rfl
  · intro us hus after hafter
    have hends : EndsInput after := hafter ▸ ⟨endsType_nil true, rfl⟩
    obtain ⟨hbegin, hrun⟩ := helems n hn hus hends
    rw [run_fnPointerRound acc hbegin hrun, hafter]
    rfl
  · intro vs hvs after _
    obtain ⟨us, us', rfl, hus, hus'⟩ := hvs.append_inv
    have hends : EndsInput (us' ++ after) := by
      obtain _ | _ | _ | _ | ⟨-, ⟨⟩⟩ := hus'
      exact ⟨(endsArgument_mark (.inl rfl) _ _).toEndsType, rfl⟩
    obtain ⟨hbegin, hrun⟩ := helems n hn hus hends
    rw [List.append_assoc, run_fnPointerRound acc hbegin hrun]
    obtain _ | _ | _ | _ | ⟨-, ⟨⟩⟩ := hus'
    rfl

/-- The foreign interface of a function pointer, before its keyword. -/
theorem reads_abi {n : Node} (hn : n = .node .abi [.word false "extern", .none] ∨ n = .none) :
    Reads abi? n.leaves (atWord "fn" · = true) n := by
  rcases hn with rfl | rfl
  · intro us hus after hafter
    obtain _ | ⟨⟨⟩⟩ := hus
    cases after with
    | nil => cases hafter
    | cons t after =>
      cases t with
      | word => rfl
      | _ => cases hafter
  · refine .look (.pure _ _) fun us hus after hafter => if_neg ?_
    cases hus
    cases after with
    | nil => cases hafter
    | cons t after =>
      cases t with
      | word raw name =>
        cases raw with
        | true => cases hafter
        | false =>
          obtain rfl : name = "fn" := eq_of_beq hafter
          exact Bool.false_ne_true
      | _ => cases hafter

section Function

variable {unsafety abi output : Node} {elems parts : List Node}
  (hsafety : unsafety = .word false "unsafe" ∨ unsafety = .none)
  (habi : abi = .node .abi [.word false "extern", .none] ∨ abi = .none)

/-- The tokens of a function pointer after its lifetimes. -/
def functionLeaves (unsafety abi output : Node) (parts : List Node) : List Token :=
  (Node.partLeaves
    [unsafety, abi, .word false "fn", .group .paren [.node .separated parts], output]).flatten

include hsafety habi

/-- The words that function pointers begin with. -/
theorem shows_functionLeaves :
    Shows (fun ts => (atWord "fn" ts || atWord "unsafe" ts || atWord "extern" ts) = true ∧
      atGroup .paren ts = false ∧ atWord "for" ts = false)
      (functionLeaves unsafety abi output parts) := by
  intro us hus after
  rcases hsafety with rfl | rfl
  · obtain _ | hus := hus
    exact ⟨rfl, rfl, rfl⟩
  · rcases habi with rfl | rfl
    · obtain _ | hus := hus
      exact ⟨rfl, rfl, rfl⟩
    · obtain _ | hus := hus
      exact ⟨rfl, rfl, rfl⟩

theorem reads_fnPointer (binder : Node) (hparts : Separated "," elems parts)
    (helems : ∀ n ∈ elems, ReadsInput g n)
    (houtput : Reads (returnType? g false) output.leaves (EndsType false) output) :
    Reads (fnPointer g binder) (functionLeaves unsafety abi output parts) (EndsType false)
      (.node .typeFn [binder, unsafety, abi, .word false "fn",
        .group .paren [.node .separated parts], output]) := by
  have hargs : Reads (groupNode .paren (do pure [← fnPointerArgs g]))
      (Node.group .paren [.node .separated parts]).leaves (fun _ => True)
      (.group .paren [.node .separated parts]) :=
    reads_groupNode (reads_fnPointerArgs hparts helems).last
  refine .bind (reads_kw? hsafety) (.bind (reads_abi habi) (.bind reads_kw
    (.bind hargs houtput.last fun _ _ _ _ => trivial) fun _ _ _ _ => trivial)
    fun us hus after _ => ?_) fun us hus after _ _ => ?_
  · obtain _ | hus := hus
    rfl
  · rcases habi with rfl | rfl
    · obtain _ | hus := hus
      rfl
    · obtain _ | hus := hus
      rfl

/-- **A function pointer.** -/
theorem reads_function {binder : Node} {allowPlus : Bool} (hbinder : binder.IsBinder)
    (hparts : Separated "," elems parts) (helems : ∀ n ∈ elems, ReadsInput g n)
    (houtput : Reads (returnType? g false) output.leaves (EndsType false) output) :
    Reads (type g allowPlus) (Node.node .typeFn [binder, unsafety, abi, .word false "fn",
        .group .paren [.node .separated parts], output]).leaves (EndsType allowPlus)
      (.node .typeFn [binder, unsafety, abi, .word false "fn",
        .group .paren [.node .separated parts], output]) := by
  have htokens : (Node.node .typeFn [binder, unsafety, abi, .word false "fn",
      .group .paren [.node .separated parts], output]).leaves =
      binder.leaves ++ functionLeaves unsafety abi output parts := rfl
  rw [htokens]
  intro vs hvs after hafter
  obtain ⟨us, us', rfl, hus, hus'⟩ := hvs.append_inv
  obtain ⟨hhead, hgroup, hfor⟩ := shows_functionLeaves hsafety habi hus' after
  have hlifetimes : (binder? g).run (us ++ (us' ++ after)) = some (binder, us' ++ after) :=
    reads_binder hbinder hus fun _ => hfor
  -- one of the three words behind the lifetimes tells a function pointer from other types
  have hfunction := reads_fnPointer hsafety habi binder hparts helems houtput hus' hafter.single
  unfold type
  rw [List.append_assoc, run_rest_bind, run_bind hlifetimes, run_rest_bind]
  dsimp only
  rw [hhead, hgroup, Bool.or_true, Bool.true_or, Bool.not_true, Bool.and_false,
    if_neg Bool.false_ne_true, if_neg Bool.false_ne_true, if_pos rfl, hfunction]

end Function

end Parser

end Scaffold.Syntax
