import Scaffold.Proofs.Syntax.Formed.Pattern

/-!
# Expressions are well formed

The parsers come in the order of `Grammar.Expr`.
-/

namespace Scaffold.Syntax.Parser

variable {R : LeafRule}

/-! ### Parts of expressions -/

/-- Attributes may be added to any tree but a few that have no place for them. -/
theorem addAttributes_local {attrs : List Node} {n : Node} (hattrs : ∀ a ∈ attrs, R.Local a)
    (h : R.Local n) : R.Local (addAttributes (.list attrs) n) := by
  have exchange {kind : Kind} {own parts : List Node}
      (h : R.Local (.node kind (.node .list own :: parts))) :
      R.Local (.node kind (.list (attrs ++ own) :: parts)) := by
    cases h with
    | node hshape hparts =>
      obtain ⟨hown, hparts⟩ := List.forall_mem_cons.1 hparts
      have hlist := LeafRule.local_list (List.forall_mem_append.2 ⟨hattrs, hown.children rfl⟩)
      exact .node (hshape.exchange _) (List.forall_mem_cons.2 ⟨hlist, hparts⟩)
    | block hparts =>
      obtain ⟨hown, hparts⟩ := List.forall_mem_cons.1 hparts
      have hlist : R.Formed (.list (attrs ++ own)) :=
        .node trivial (List.forall_mem_append.2 ⟨fun a ha => (hattrs a ha).formed, hown.children⟩)
      exact .block (List.forall_mem_cons.2 ⟨hlist, hparts⟩)
  unfold addAttributes
  split
  · exact h
  · exact h
  · exact .node trivial (List.forall_mem_singleton.2 (exchange (h.part rfl 0)))
  · exact exchange h
  · exact h

section Grammar

variable {g : Grammar} (hg : g.Sound R)

include hg

theorem rangeEnd_yields (allowStruct : Bool) (limits : Node) :
    R.Yields (rangeEnd g allowStruct limits) R.Local :=
  .bind .rest fun _ _ => .ite (fun _ => .pure LeafRule.local_none) fun _ => hg.operand _ _

/-! ### Binary operators -/

theorem binary_yields (allowStruct : Bool) (base : Precedence) {lhs : Node} (hlhs : R.Local lhs) :
    R.Yields (binary g allowStruct base lhs) R.Local := by
  refine .loop R.Local hlhs fun lhs hlhs => .bind .rest fun ts _ => ?_
  have keep : R.Yields (pure (.inr lhs) : Parser (Node ⊕ Node)) (Sum.elim R.Local R.Local) :=
    .pure hlhs
  refine .ite (fun _ => keep) fun _ => ?_
  split
  · refine .ite (fun _ => keep) fun _ => .ite (fun _ => .failure) fun _ => ?_
    refine .bind (op_yields _) fun sign hsign => .bind (hg.operand _ _) fun rhs hrhs => ?_
    exact .pure (.node trivial (by simp [noAttributes_local, hlhs, hsign, hrhs]))
  refine .ite (fun _ => ?_) fun _ => .ite (fun _ => ?_) fun _ => .ite (fun _ => ?_) fun _ => keep
  · refine .bind (op_yields _) fun eq heq => .bind (hg.operand _ _) fun rhs hrhs => ?_
    exact .pure (.node trivial (by simp [noAttributes_local, hlhs, heq, hrhs]))
  · refine .bind (rangeLimits_yields _) fun limits hlimits => ?_
    refine .bind (rangeEnd_yields hg _ _) fun stop hstop => .pure (.node trivial ?_)
    simp [noAttributes_local, hlhs, hlimits, hstop]
  · refine .bind (kw_yields _) fun keyword hkeyword => .bind (hg.type _) fun type htype => ?_
    refine .bind .rest fun ts _ => .ite (fun _ => .failure) fun _ => .pure (.node trivial ?_)
    simp [noAttributes_local, hlhs, hkeyword, htype]

theorem operand_yields (allowStruct : Bool) (prec : Precedence) :
    R.Yields (operand g allowStruct prec) R.Local := by
  refine .bind (hg.unary _) fun first hfirst => .loop R.Local hfirst fun rhs hrhs => ?_
  refine .bind .rest fun before _ => .ite (fun _ => ?_) fun _ => .pure hrhs
  refine .bind (binary_yields hg _ _ hrhs) fun rhs hrhs => .bind .rest fun ts _ => ?_
  exact .ite (fun _ => .pure hrhs) fun _ => .pure hrhs

/-! ### Trailers -/

theorem callArgs_yields : R.Yields (callArgs g) R.Local :=
  groupNode_yields _ (.bind (terminated_yields (hg.expr _) _) fun list hlist =>
    .pure (by simpa using hlist))

omit hg in
/-- What a partial function makes of a list comes from the elements of the list. -/
theorem mem_of_mapM_eq_some {α β : Type} {f : α → Option β} {as : List α} {bs : List β}
    (h : as.mapM f = some bs) {b : β} (hb : b ∈ bs) : ∃ a ∈ as, f a = some b := by
  induction as generalizing bs with
  | nil => simp_all
  | cons a as ih =>
    rw [List.mapM_cons] at h
    obtain ⟨c, hc, h⟩ := Option.bind_eq_some_iff.1 h
    obtain ⟨cs, hcs, h⟩ := Option.bind_eq_some_iff.1 h
    obtain rfl := Option.some.inj h
    rcases List.mem_cons.1 hb with rfl | hb
    · exact ⟨a, by simp, hc⟩
    · obtain ⟨a', hmem, ha'⟩ := ih hcs hb
      exact ⟨a', by simp [hmem], ha'⟩

omit hg in
/-- Fields of fields. -/
theorem foldl_field_local {e dot : Node} {indices : List Node} (he : R.Local e)
    (hdot : R.Local dot) (h : ∀ index ∈ indices, R.Local index) :
    R.Local (indices.foldl (fun e index => .node .exprField [noAttributes, e, dot, index]) e) := by
  induction indices generalizing e with
  | nil => exact he
  | cons index indices ih =>
    obtain ⟨hindex, hindices⟩ := List.forall_mem_cons.1 h
    exact ih (.node trivial (by simp [noAttributes_local, he, hdot, hindex])) hindices

omit hg in
theorem floatFields_local {e dot n : Node} {text : String} {trailing : Bool} (he : R.Local e)
    (hdot : R.Local dot) (h : floatFields e dot text = some (n, trailing)) : R.Local n := by
  unfold floatFields at h
  extract_lets pieces trailing' kept at h
  obtain ⟨indices, hindices, h⟩ := Option.bind_eq_some_iff.1 h
  obtain ⟨rfl, -⟩ := Prod.mk.inj (Option.some.inj h)
  refine foldl_field_local he hdot fun index hmem => ?_
  obtain ⟨piece, -, hpiece⟩ := mem_of_mapM_eq_some hindices hmem
  exact fieldIndex?_local hpiece

theorem afterDot_yields {e dot : Node} (he : R.Local e) (hdot : R.Local dot) :
    R.Yields (afterDot g e dot) R.Local := by
  unfold afterDot
  refine .bind .rest fun ts _ => .ite (fun _ => ?_) fun _ => ?_
  · refine .bind (kw_yields _) fun keyword hkeyword => .pure (.node trivial ?_)
    simp [noAttributes_local, he, hdot, hkeyword]
  refine .bind member_yields fun name hname => .bind .rest fun ts _ => ?_
  extract_lets next
  have hnext (turbofish : Node) (hturbofish : R.Local turbofish) :
      R.Yields (next turbofish) R.Local := by
    refine .bind .rest fun ts _ => .ite (fun _ => ?_) fun _ => .ite (fun _ => .failure) fun _ => ?_
    · refine .bind (callArgs_yields hg) fun args hargs => .pure (.node trivial ?_)
      simp [noAttributes_local, he, hdot, hname, hturbofish, hargs]
    · exact .pure (.node trivial (by simp [noAttributes_local, he, hdot, hname]))
  exact .ite (fun _ => .bind (angleArguments_yields hg) hnext) fun _ =>
    .pure_bind (hnext _ LeafRule.local_none)

theorem trailers_yields {e : Node} (he : R.Local e) : R.Yields (trailers g e) R.Local := by
  refine .loop R.Local he fun e he => .bind .rest fun ts _ => ?_
  refine .ite (fun _ => ?_) fun _ => .ite (fun _ => ?_) fun _ => ?_
  · refine .bind (callArgs_yields hg) fun args hargs => .pure (.node trivial ?_)
    simp [noAttributes_local, he, hargs]
  · refine .bind (op_yields _) fun dot hdot => .rest_bind fun ts hts => ?_
    have member : R.Yields (do pure (.inl (← afterDot g e dot))) (Sum.elim R.Local R.Local) :=
      .bind (afterDot_yields hg he hdot) fun _ h => .pure h
    split
    · refine .ite (fun _ => ?_) fun _ => member _ hts
      split
      · rename_i hfields
        refine LeafRule.Yields.bind (.set (R.tokens_tail hts)) (fun _ _ => ?_) _ hts
        have he := floatFields_local he hdot hfields
        refine .ite (fun _ => ?_) fun _ => .pure he
        exact .bind (afterDot_yields hg he hdot) fun _ h => .pure h
      · exact .failure
    · exact member _ hts
  refine .ite (fun _ => ?_) fun _ => .ite (fun _ => ?_) fun _ => .pure he
  · refine .bind (groupNode_yields _ (.bind (hg.expr _) fun index hindex =>
      .pure (by simpa using hindex))) fun index hindex => .pure (.node trivial ?_)
    simp [noAttributes_local, he, hindex]
  · refine .bind (op_yields _) fun mark hmark => .pure (.node trivial ?_)
    simp [noAttributes_local, he, hmark]

/-! ### Control flow -/

omit hg in
theorem label?_yields : R.Yields label? R.Local := by
  refine .bind .rest fun ts _ => .ite (fun _ => ?_) fun _ => .pure LeafRule.local_none
  refine .bind lifetime_yields fun name hname => .bind (op_yields _) fun colon hcolon => ?_
  exact .pure (.node trivial (by simp [hname, hcolon]))

theorem ifExpr_yields : R.Yields (ifExpr g) R.Local := by
  refine .loop (fun close => ∀ n, R.Local n → R.Local (close n)) (fun _ h => h)
    fun close hclose => ?_
  refine .bind (kw_yields _) fun keyword hkeyword => .bind (hg.expr _) fun cond hcond => ?_
  refine .bind (hg.block _) fun body hbody => ?_
  have hclose (other : Node) (hother : R.Local other) :
      R.Local (close (.node .exprIf [noAttributes, keyword, cond, body, other])) :=
    hclose _ (.node trivial (by simp [noAttributes_local, hkeyword, hcond, hbody, hother]))
  refine .bind .rest fun ts _ => .ite (fun _ => ?_) fun _ => .pure (hclose _ LeafRule.local_none)
  refine .bind (kw_yields _) fun otherwise hotherwise => .bind .rest fun ts _ => ?_
  have helse (other : Node) (hother : R.Local other) :
      R.Local (.node .elseClause [otherwise, other]) :=
    .node trivial (by simp [hotherwise, hother])
  refine .ite (fun _ => .pure fun other hother => hclose _ (helse _ hother)) fun _ => ?_
  refine .ite (fun _ => .bind (hg.block _) fun block hblock => .pure ?_) fun _ => .failure
  refine hclose _ (helse _ (.node trivial ?_))
  simp [noAttributes_local, LeafRule.local_none, hblock]

theorem whileExpr_yields {name : Node} (hname : R.Local name) :
    R.Yields (whileExpr g name) R.Local := by
  refine .bind (kw_yields _) fun keyword hkeyword => .bind (hg.expr _) fun cond hcond => ?_
  refine .bind (hg.block _) fun body hbody => .pure (.node trivial ?_)
  simp [noAttributes_local, hname, hkeyword, hcond, hbody]

theorem forExpr_yields {name : Node} (hname : R.Local name) :
    R.Yields (forExpr g name) R.Local := by
  refine .bind (kw_yields _) fun keyword hkeyword => .bind (multiPattern_yields hg) fun pat hpat => ?_
  refine .bind (kw_yields _) fun within hwithin => .bind (hg.expr _) fun source hsource => ?_
  refine .bind (hg.block _) fun body hbody => .pure (.node trivial ?_)
  simp [noAttributes_local, hname, hkeyword, hpat, hwithin, hsource, hbody]

theorem loopExpr_yields {name : Node} (hname : R.Local name) :
    R.Yields (loopExpr g name) R.Local := by
  refine .bind (kw_yields _) fun keyword hkeyword => .bind (hg.block _) fun body hbody => ?_
  exact .pure (.node trivial (by simp [noAttributes_local, hname, hkeyword, hbody]))

theorem labelledExpr_yields : R.Yields (labelledExpr g) R.Local := by
  refine .bind label?_yields fun name hname => .bind .rest fun ts _ => ?_
  refine .ite (fun _ => whileExpr_yields hg hname) fun _ => ?_
  refine .ite (fun _ => forExpr_yields hg hname) fun _ => ?_
  refine .ite (fun _ => loopExpr_yields hg hname) fun _ => .ite (fun _ => ?_) fun _ => .failure
  refine .bind (hg.block _) fun body hbody => .pure (.node trivial ?_)
  simp [noAttributes_local, hname, hbody]

theorem matchArm_yields : R.Yields (matchArm g) R.Local := by
  unfold matchArm
  refine .bind (outerAttributes_yields hg) fun attrs hattrs => ?_
  refine .bind (multiPattern_yields hg) fun pat hpat => .bind .rest fun ts _ => ?_
  extract_lets next
  have hnext (guard : Node) (hguard : R.Local guard) : R.Yields (next guard) R.Local := by
    refine .bind (op_yields _) fun arrow harrow => .bind hg.exprEarly fun body hbody => ?_
    refine .bind .rest fun ts _ => ?_
    extract_lets last
    have hlast (comma : Node) (hcomma : R.Local comma) : R.Yields (last comma) R.Local :=
      .pure (.node trivial (by simp [hattrs, hpat, hguard, harrow, hbody, hcomma]))
    exact .ite (fun _ => .bind (op_yields _) hlast) fun _ => .bind (op?_yields _) hlast
  refine .ite (fun _ => ?_) fun _ => .pure_bind (hnext _ LeafRule.local_none)
  refine .bind (kw_yields _) fun keyword hkeyword => .bind (hg.expr _) fun cond hcond => ?_
  exact .pure_bind (hnext _ (.node trivial (by simp [hkeyword, hcond])))

theorem matchExpr_yields : R.Yields (matchExpr g) R.Local := by
  refine .bind (kw_yields _) fun keyword hkeyword => .bind (hg.expr _) fun subject hsubject => ?_
  refine .bind (groupNode_yields _ (.bind (innerAttributes_yields hg) fun inner hinner =>
    .bind (manyToEnd_yields (matchArm_yields hg)) fun arms harms => .pure ?_))
    fun body hbody => .pure (.node trivial ?_)
  · simp [hinner, LeafRule.local_list harms]
  · simp [noAttributes_local, hkeyword, hsubject, hbody]

theorem letExpr_yields (allowStruct : Bool) : R.Yields (letExpr g allowStruct) R.Local := by
  refine .bind (kw_yields _) fun keyword hkeyword => .bind (multiPattern_yields hg) fun pat hpat => ?_
  refine .bind (op_yields _) fun eq heq => .bind (hg.unary _) fun value hvalue => ?_
  refine .bind (binary_yields hg _ _ hvalue) fun value hvalue => .pure (.node trivial ?_)
  simp [noAttributes_local, hkeyword, hpat, heq, hvalue]

theorem breakExpr_yields (allowStruct : Bool) : R.Yields (breakExpr g allowStruct) R.Local := by
  unfold breakExpr
  refine .bind (kw_yields _) fun keyword hkeyword => .bind .rest fun ts _ => ?_
  refine .ite (fun _ => .failure) fun _ => .bind lifetime?_yields fun name hname => ?_
  refine .bind .rest fun ts _ => ?_
  extract_lets next
  have hnext (value : Node) (hvalue : R.Local value) : R.Yields (next value) R.Local :=
    .pure (.node trivial (by simp [noAttributes_local, hkeyword, hname, hvalue]))
  exact .ite (fun _ => .bind (hg.expr _) hnext) fun _ => .pure_bind (hnext _ LeafRule.local_none)

/-! ### Closures -/

theorem closureParam_yields : R.Yields (closureParam g) R.Local := by
  refine .bind (outerAttributes_list_yields hg) fun _ ⟨attrs, hlist, hattrs⟩ => hlist ▸ ?_
  refine .bind hg.pattern fun pat hpat => .bind .rest fun ts _ => .ite (fun _ => ?_) fun _ =>
    .pure (addAttributes_local hattrs hpat)
  refine .bind (op_yields _) fun colon hcolon => .bind (hg.type _) fun type htype => ?_
  exact .pure (.node trivial (by simp [LeafRule.local_list hattrs, hpat, hcolon, htype]))

theorem closure_yields (allowStruct : Bool) : R.Yields (closure g allowStruct) R.Local := by
  refine .bind (binder?_yields hg) fun binder hbinder => .bind (kw?_yields _) fun const hconst => ?_
  refine .bind (kw?_yields _) fun pinned hpinned => .bind (kw?_yields _) fun async hasync => ?_
  refine .bind (kw?_yields _) fun capture hcapture => .bind (op_yields _) fun first hfirst => ?_
  refine .bind (sepUntil_yields (closureParam_yields hg) _ _ fun _ => trivial)
    fun params hparams => .bind (op_yields _) fun second hsecond => .bind .rest fun ts _ => ?_
  refine .ite (fun _ => ?_) fun _ => ?_
  · refine .bind (returnType?_yields hg _) fun output houtput => ?_
    refine .bind (hg.block _) fun block hblock => .pure (.node trivial ?_)
    have hbody : R.Local (.node .exprBlock [noAttributes, .none, block]) :=
      .node trivial (by simp [noAttributes_local, LeafRule.local_none, hblock])
    simp [noAttributes_local, hbinder, hconst, hpinned, hasync, hcapture, hfirst, hparams, hsecond,
      houtput, hbody]
  · refine .bind (hg.expr _) fun body hbody => .pure (.node trivial ?_)
    simp [noAttributes_local, LeafRule.local_none, hbinder, hconst, hpinned, hasync, hcapture,
      hfirst, hparams, hsecond, hbody]

/-! ### Atoms -/

theorem fieldValue_yields : R.Yields (fieldValue g) R.Local := by
  refine .bind (outerAttributes_yields hg) fun attrs hattrs => .bind member_yields fun name hname => ?_
  refine .bind .rest fun ts _ => .ite (fun _ => ?_) fun _ => ?_
  · refine .bind (op_yields _) fun colon hcolon => .bind (hg.expr _) fun value hvalue => ?_
    exact .pure (.node trivial (by simp [hattrs, hname, hcolon, hvalue]))
  · exact .pure (.node trivial (by simp [hattrs, hname]))

theorem structFields_yields : R.Yields (structFields g) R.Local := by
  refine .loop (fun acc => ∀ n ∈ acc, R.Local n) (by simp) fun acc hacc => ?_
  refine .bind .rest fun ts _ => .ite (fun _ => .pure (LeafRule.local_separated hacc)) fun _ => ?_
  refine .ite (fun _ => ?_) fun _ => ?_
  · refine .bind (op_yields _) fun dots hdots => .bind .rest fun ts _ => ?_
    extract_lets next
    have hnext (base : Node) (hbase : R.Local base) :
        R.Yields (next base) (Sum.elim (fun acc => ∀ n ∈ acc, R.Local n) R.Local) := by
      have hrest : R.Local (.node .structRest [dots, base]) :=
        .node trivial (by simp [hdots, hbase])
      exact .pure (LeafRule.local_separated (List.forall_mem_cons.2 ⟨hrest, hacc⟩))
    exact .ite (fun _ => .pure_bind (hnext _ LeafRule.local_none)) fun _ => .bind (hg.expr _) hnext
  · refine .bind (fieldValue_yields hg) fun field hfield => .bind .rest fun ts _ => ?_
    have hacc := List.forall_mem_cons.2 ⟨hfield, hacc⟩
    refine .ite (fun _ => .pure (LeafRule.local_separated hacc)) fun _ => ?_
    exact .bind (op_yields _) fun comma hcomma => .pure (List.forall_mem_cons.2 ⟨hcomma, hacc⟩)

theorem pathHeaded_yields (allowStruct : Bool) : R.Yields (pathHeaded g allowStruct) R.Local := by
  refine .bind (qualifiedPath_yields hg _) fun path hpath => .bind .rest fun ts _ => ?_
  refine .ite (fun _ => ?_) fun _ => .ite (fun _ => ?_) fun _ => .pure (pathExpr_local hpath)
  · refine .bind (op_yields _) fun bang hbang => .bind anyGroup_yields fun found hfound => ?_
    exact .pure (.node trivial (by simp [noAttributes_local, hpath, hbang, hfound]))
  · refine .bind (groupNode_yields _ (.bind (structFields_yields hg) fun list hlist =>
      .pure (by simpa using hlist))) fun fields hfields => .pure (.node trivial ?_)
    simp [noAttributes_local, hpath, hfields]

omit hg in
/-- An expression that is one group. -/
theorem grouped_local (kind : Kind) (hkind : ∀ parts, kind.PartShape parts) {delim : Delimiter}
    {parts : List Node} (h : ∀ n ∈ parts, R.Local n) :
    R.Local (.node kind [noAttributes, .group delim parts]) :=
  .node (hkind _) (by simp [noAttributes_local, LeafRule.Local.group h])

theorem parenOrTuple_yields : R.Yields (parenOrTuple g) R.Local := by
  refine .bind (group_yields _ (terminated_yields (hg.expr _) _)) fun list hlist => ?_
  split
  · have hsingle : R.Local _ := hlist.part rfl 0
    exact .pure (grouped_local .exprParen (fun _ => trivial) (List.forall_mem_singleton.2 hsingle))
  · exact .pure (grouped_local .exprTuple (fun _ => trivial) (List.forall_mem_singleton.2 hlist))

theorem arrayExpr_yields : R.Yields (arrayExpr g) R.Local := by
  have array {parts : List Node} (h : ∀ n ∈ parts, R.Local n) :
      R.Local (.node .exprArray [noAttributes, .group .bracket [.node .separated parts]]) :=
    grouped_local .exprArray (fun _ => trivial) (List.forall_mem_singleton.2 (.node trivial h))
  refine group_yields _ (.bind .rest fun ts _ => .ite (fun _ => .pure (array (by simp))) fun _ => ?_)
  refine .bind (hg.expr _) fun first hfirst => .bind .rest fun ts _ => ?_
  refine .ite (fun _ => .pure (array (by simpa using hfirst))) fun _ => .ite (fun _ => ?_) fun _ => ?_
  · refine .bind (op_yields _) fun comma hcomma => ?_
    refine .bind (sepUntil_parts_yields (hg.expr _) _ _ _) fun more ⟨parts, heq, hparts⟩ => ?_
    subst heq
    exact .pure (array (by simpa [hfirst, hcomma, Node.children] using hparts))
  · refine .bind (op_yields _) fun semi hsemi => .bind (hg.expr _) fun length hlength => ?_
    exact .pure (grouped_local .exprRepeat (fun _ => trivial) (by simp [hfirst, hsemi, hlength]))

/-- An expression of a keyword and a block. -/
theorem keywordBlock_yields (kind : Kind) (hkind : ∀ parts, kind.PartShape parts) (w : String)
    (innerAttrs : Bool) :
    R.Yields (do pure (.node kind [noAttributes, ← kw w, ← g.block innerAttrs])) R.Local := by
  refine .bind (kw_yields _) fun keyword hkeyword => .bind (hg.block _) fun body hbody => ?_
  exact .pure (.node (hkind _) (by simp [noAttributes_local, hkeyword, hbody]))

/-- An expression of a keyword and a value that may be left out. -/
theorem keywordValue_yields (kind : Kind) (hkind : ∀ parts, kind.PartShape parts) (w : String) :
    R.Yields (do
      let keyword ← kw w
      let value ← if atExpr (← rest) then g.expr true else pure .none
      pure (.node kind [noAttributes, keyword, value])) R.Local := by
  refine .bind (kw_yields _) fun keyword hkeyword => .bind .rest fun ts _ => ?_
  extract_lets next
  have hnext (value : Node) (hvalue : R.Local value) : R.Yields (next value) R.Local :=
    .pure (.node (hkind _) (by simp [noAttributes_local, hkeyword, hvalue]))
  exact .ite (fun _ => .bind (hg.expr _) hnext) fun _ => .pure_bind (hnext _ LeafRule.local_none)

theorem atom_yields (allowStruct : Bool) : R.Yields (atom g allowStruct) R.Local := by
  unfold atom
  refine .bind .rest fun ts hts => ?_
  extract_lets next
  refine .ite (fun _ => ?_) fun _ => .ite (fun _ => ?_) fun _ => .ite (fun _ => ?_) fun _ => ?_
  · refine .bind literal_yields fun value hvalue => .pure (.node trivial ?_)
    simp [noAttributes_local, hvalue]
  · refine .bind (kw_yields _) fun keyword hkeyword => .bind (kw?_yields _) fun capture hcapture => ?_
    refine .bind (hg.block _) fun body hbody => .pure (.node trivial ?_)
    simp [noAttributes_local, hkeyword, hcapture, hbody]
  · exact keywordBlock_yields hg .exprTryBlock (fun _ => trivial) _ _
  refine .ite (fun _ => closure_yields hg _) fun _ => .ite (fun _ => ?_) fun _ => ?_
  · refine .bind ident_yields fun _ _ => .bind (op_yields _) fun _ _ => ?_
    refine .bind ident_yields fun _ _ => .bind (group_yields _ (.set ?_)) fun _ _ => ?_
    · exact R.tokens_take 0 hts
    · exact verbatim_yields .exprVerbatim (fun _ => trivial) hts
  refine .ite (fun _ => pathHeaded_yields hg _) fun _ => ?_
  refine .ite (fun _ => parenOrTuple_yields hg) fun _ => ?_
  refine .ite (fun _ => breakExpr_yields hg _) fun _ => .ite (fun _ => ?_) fun _ => ?_
  · refine .bind (kw_yields _) fun keyword hkeyword => .bind lifetime?_yields fun name hname => ?_
    exact .pure (.node trivial (by simp [noAttributes_local, hkeyword, hname]))
  refine .ite (fun _ => keywordValue_yields hg .exprReturn (fun _ => trivial) _) fun _ => ?_
  refine .ite (fun _ => ?_) fun _ => .ite (fun _ => arrayExpr_yields hg) fun _ => ?_
  · refine .bind (kw_yields _) fun _ _ => .bind (hg.expr _) fun _ _ => ?_
    exact verbatim_yields .exprVerbatim (fun _ => trivial) hts
  refine .ite (fun _ => letExpr_yields hg _) fun _ => .ite (fun _ => ifExpr_yields hg) fun _ => ?_
  refine .ite (fun _ => whileExpr_yields hg LeafRule.local_none) fun _ => ?_
  refine .ite (fun _ => forExpr_yields hg LeafRule.local_none) fun _ => ?_
  refine .ite (fun _ => loopExpr_yields hg LeafRule.local_none) fun _ => ?_
  refine .ite (fun _ => matchExpr_yields hg) fun _ => ?_
  refine .ite (fun _ => keywordValue_yields hg .exprYield (fun _ => trivial) _) fun _ => ?_
  refine .ite (fun _ => keywordBlock_yields hg .exprUnsafe (fun _ => trivial) _ _) fun _ => ?_
  refine .ite (fun _ => keywordBlock_yields hg .exprConst (fun _ => trivial) _ _) fun _ => ?_
  refine .ite (fun _ => ?_) fun _ => .ite (fun _ => ?_) fun _ => .ite (fun _ => ?_) fun _ => ?_
  · refine .bind (hg.block _) fun body hbody => .pure (.node trivial ?_)
    simp [noAttributes_local, LeafRule.local_none, hbody]
  · refine .bind (rangeLimits_yields _) fun limits hlimits => ?_
    refine .bind (rangeEnd_yields hg _ _) fun stop hstop => .pure (.node trivial ?_)
    simp [noAttributes_local, LeafRule.local_none, hlimits, hstop]
  · refine .bind anyWord_yields fun word hword => .pure (.node trivial ?_)
    simp [noAttributes_local, hword]
  · exact .ite (fun _ => labelledExpr_yields hg) fun _ => .failure

theorem unary_yields (allowStruct : Bool) : R.Yields (unary g allowStruct) R.Local := by
  unfold unary
  refine .bind .rest fun start hstart => ?_
  refine .bind (outerAttributes_list_yields hg) fun _ ⟨attrs, hlist, hown⟩ => hlist ▸ ?_
  have hattrs : R.Local (.list attrs) := LeafRule.local_list hown
  refine .bind .rest fun ts _ => .ite (fun _ => ?_) fun _ => .ite (fun _ => ?_) fun _ => ?_
  · refine .bind (op_yields _) fun amp hamp => .bind .rest fun ts _ => .ite (fun _ => ?_) fun _ => ?_
    · refine .bind anyWord_yields fun raw hraw => .bind anyWord_yields fun qualifier hqualifier => ?_
      refine .bind (hg.unary _) fun operand hoperand => .pure (.node trivial ?_)
      simp [hattrs, hamp, hraw, hqualifier, hoperand]
    · refine .bind (kw?_yields _) fun mutable hmutable => .bind (hg.unary _) fun operand hoperand => ?_
      exact .pure (.node trivial (by simp [hattrs, hamp, hmutable, hoperand]))
  · extract_lets next
    have hnext (sign : Node) (hsign : R.Local sign) : R.Yields (next sign) R.Local :=
      .bind (hg.unary _) fun operand hoperand =>
        .pure (.node trivial (by simp [hattrs, hsign, hoperand]))
    refine .ite (fun _ => .bind (op_yields _) hnext) fun _ => ?_
    exact .ite (fun _ => .bind (op_yields _) hnext) fun _ => .bind (op_yields _) hnext
  · refine .bind (atom_yields hg _) fun e he => .bind (trailers_yields hg he) fun e he => ?_
    refine .ite (fun _ => verbatim_yields .exprVerbatim (fun _ => trivial) hstart) fun _ => ?_
    refine .ite (fun _ => .pure he) fun _ => .ite (fun _ => .failure) fun _ => ?_
    exact .pure (addAttributes_local hown he)

theorem expr_yields (allowStruct : Bool) : R.Yields (expr g allowStruct) R.Local :=
  .bind (unary_yields hg _) fun _ hfirst => binary_yields hg _ _ hfirst

theorem exprEarly_yields : R.Yields (exprEarly g) R.Local := by
  unfold exprEarly
  refine .bind (outerAttributes_list_yields hg) fun _ ⟨attrs, hlist, hattrs⟩ => hlist ▸ ?_
  refine .bind .rest fun ts _ => ?_
  extract_lets next complete
  have choice {c : Prop} [Decidable c] {p q : Parser Node} {other : Option (Parser Node)}
      (hq : R.Yields q R.Local) (hother : other = some p → R.Yields p R.Local)
      (hp : (if c then some q else other) = some p) : R.Yields p R.Local := by
    split at hp
    · exact Option.some.inj hp ▸ hq
    · exact hother hp
  have hcomplete (p : Parser Node) : complete = some p → R.Yields p R.Local := by
    refine choice (ifExpr_yields hg) (choice (whileExpr_yields hg LeafRule.local_none) ?_)
    refine choice (forExpr_yields hg LeafRule.local_none) ?_
    refine choice (loopExpr_yields hg LeafRule.local_none) (choice (matchExpr_yields hg) ?_)
    exact choice (atom_yields hg _) (choice (labelledExpr_yields hg) fun h => by cases h)
  clear_value complete
  cases complete with
  | none =>
    exact .bind (unary_yields hg _) fun e he => binary_yields hg _ _ (addAttributes_local hattrs he)
  | some p =>
    refine .bind (hcomplete p rfl) fun e he => .bind .rest fun ts _ => .ite (fun _ => ?_) fun _ => ?_
    · exact .bind (trailers_yields hg he) fun e he =>
        binary_yields hg _ _ (addAttributes_local hattrs he)
    · exact .pure (addAttributes_local hattrs he)

end Grammar

end Scaffold.Syntax.Parser
