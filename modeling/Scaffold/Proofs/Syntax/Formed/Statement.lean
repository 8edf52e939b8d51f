import Scaffold.Proofs.Syntax.Formed.Item

/-!
# Statements, blocks and files are well formed

With statements and blocks the grammar closes: a grammar of any depth returns well-formed trees
(`Grammar.ofDepth_sound`), and so it does where a text is read as a whole (`yields_readTokens`).
-/

namespace Scaffold.Syntax

namespace Parser

variable {R : LeafRule}

theorem addLeftmost_local {attrs : List Node} {n : Node} (hattrs : ∀ a ∈ attrs, R.Local a)
    (h : R.Local n) : R.Local (addLeftmost (.list attrs) n) := by
  have operand (kind : Kind) (hkind : ∀ parts, kind.PartShape parts) {own lhs lhs' mid rhs : Node}
      (hparts : ∀ c ∈ [own, lhs, mid, rhs], R.Local c) (hlhs : R.Local lhs → R.Local lhs') :
      R.Local (.node kind [own, lhs', mid, rhs]) := by
    simp only [List.forall_mem_cons] at hparts
    exact .node (hkind _) (by simp [hparts, hlhs])
  fun_induction addLeftmost (.list attrs) n with
  | case1 own lhs eq rhs ih => exact operand .exprAssign (fun _ => trivial) (h.children rfl) ih
  | case2 own lhs sign rhs ih => exact operand .exprBinary (fun _ => trivial) (h.children rfl) ih
  | case3 own lhs keyword type ih => exact operand .exprCast (fun _ => trivial) (h.children rfl) ih
  | case4 n => exact addAttributes_local hattrs h

section Grammar

variable {g : Grammar} (hg : g.Sound R)

include hg

theorem localStatement_yields {attrs : Node} (hattrs : R.Local attrs) :
    R.Yields (localStatement g attrs) R.Local := by
  unfold localStatement
  refine .bind (kw_yields _) fun keyword hkeyword => .bind hg.pattern fun pat hpat => ?_
  refine .bind .rest fun ts _ => ?_
  extract_lets typed
  have htyped (pat : Node) (hpat : R.Local pat) : R.Yields (typed pat) R.Local := by
    refine .bind .rest fun ts _ => ?_
    extract_lets last
    have hlast (init : Node) (hinit : R.Local init) : R.Yields (last init) R.Local := by
      refine .bind (op_yields _) fun semi hsemi => .pure (.node trivial ?_)
      simp [hattrs, hkeyword, hpat, hinit, hsemi]
    refine .ite (fun _ => ?_) fun _ => .pure_bind (hlast _ LeafRule.local_none)
    refine .bind (op_yields _) fun eq heq => .bind .rest fun start hstart => ?_
    refine .bind (hg.expr _) fun value hvalue => .bind (since_yields hstart) fun _ _ => ?_
    refine .bind .rest fun ts _ => ?_
    extract_lets ended
    have hended (otherwise : Node) (h : R.Local otherwise) : R.Yields (ended otherwise) R.Local :=
      .pure_bind (hlast _ (.node trivial (by simp [heq, hvalue, h])))
    refine .ite (fun _ => ?_) fun _ => .pure_bind (hended _ LeafRule.local_none)
    refine .bind (kw_yields _) fun keyword hkeyword => .bind (hg.block _) fun body hbody => ?_
    exact .pure_bind (hended _ (.node trivial (by simp [hkeyword, hbody])))
  refine .ite (fun _ => ?_) fun _ => .pure_bind (htyped _ hpat)
  refine .bind (op_yields _) fun colon hcolon => .bind (hg.type _) fun type htype => ?_
  exact .pure_bind (htyped _ (.node trivial (by simp [noAttributes_local, hpat, hcolon, htype])))

theorem exprStatement_yields {attrs : List Node} (hattrs : ∀ a ∈ attrs, R.Local a) :
    R.Yields (exprStatement g (.list attrs)) R.Local := by
  unfold exprStatement
  refine .bind hg.exprEarly fun e he => ?_
  extract_lets e'
  have he' : R.Local e' := by
    unfold e'
    split
    · exact he
    · exact addLeftmost_local hattrs he
  clear_value e'
  refine .bind (op?_yields _) fun semi hsemi => ?_
  split
  · have hparts := he'.children rfl
    simp only [Node.children, List.forall_mem_cons] at hparts
    refine .ite (fun _ => .pure (.node trivial ?_)) fun _ => .pure (.node trivial ?_)
    · simp [hparts, hsemi]
    · simp [he', hsemi]
  · exact .pure (.node trivial (by simp [he', hsemi]))

theorem statement_yields : R.Yields (statement g) R.Formed := by
  unfold statement
  refine .bind .rest fun start hstart => ?_
  refine .bind (outerAttributes_list_yields hg) fun _ ⟨attrs, hlist, hown⟩ => hlist ▸ ?_
  have hattrs : R.Local (.list attrs) := LeafRule.local_list hown
  have whole {p : Parser Node} (hp : R.Yields p R.Local) : R.Yields p R.Formed :=
    hp.mono fun _ => LeafRule.Local.formed
  refine .bind .rest fun ts _ => ?_
  split
  refine .ite (fun _ => whole ?_) fun _ =>
    .ite (fun _ => whole (localStatement_yields hg hattrs)) fun _ => ?_
  · refine .bind modPath_yields fun path hpath => .bind (op_yields _) fun bang hbang => ?_
    refine .bind anyGroup_yields fun found hfound => .bind (op?_yields _) fun semi hsemi => ?_
    exact .pure (.node trivial (by simp [hattrs, hpath, hbang, hfound, hsemi]))
  refine .ite (fun _ => ?_) fun _ => whole (exprStatement_yields hg hown)
  exact .bind (itemAfter_yields hg hstart hattrs) fun item hitem =>
    .pure (.node trivial (by simpa using hitem.formed))

theorem statements_yields : R.Yields (statements g) fun ns => ∀ n ∈ ns, R.Formed n := by
  refine .loop (fun acc => ∀ n ∈ acc, R.Formed n) (by simp) fun acc hacc => ?_
  refine .bind .rest fun ts _ => .ite (fun _ => ?_) fun _ => .ite (fun _ => ?_) fun _ => ?_
  · refine .bind (op_yields _) fun semi hsemi => .pure (List.forall_mem_cons.2 ⟨?_, hacc⟩)
    exact .node trivial (by simpa using hsemi.formed)
  · exact .pure fun n hn => hacc n (List.mem_reverse.1 hn)
  refine .bind (statement_yields hg) fun s hs => .bind .rest fun ts _ => ?_
  have hacc := List.forall_mem_cons.2 ⟨hs, hacc⟩
  refine .ite (fun _ => .pure fun n hn => hacc n (List.mem_reverse.1 hn)) fun _ => ?_
  exact .ite (fun _ => .failure) fun _ => .pure hacc

/-- Statements may be items, so only the block around them has local items. -/
theorem block_yields (innerAttrs : Bool) : R.Yields (block g innerAttrs) R.Local := by
  refine .bind (P := R.Formed) (.bind (group_yields _ (Q := fun ns => ∀ n ∈ ns, R.Formed n) ?_)
    fun _ hcontent => .pure (.group hcontent)) fun content hcontent =>
      .pure (.block (by simpa using hcontent))
  extract_lets next
  have hnext (inner : Node) (hinner : R.Local inner) :
      R.Yields (next inner) fun ns => ∀ n ∈ ns, R.Formed n := by
    refine .bind (statements_yields hg) fun statements h => .pure ?_
    have hlist : R.Formed (.list statements) := .node trivial h
    simp [hinner.formed, hlist]
  exact .ite (fun _ => .bind (innerAttributes_yields hg) hnext) fun _ =>
    .pure_bind (hnext _ noAttributes_local)

theorem fileItems_yields : R.Yields (fileItems g) R.Items :=
  .bind (innerAttributes_yields hg) fun _ hinner => .bind (manyToEnd_yields hg.item) fun _ hitems =>
    .pure (.node (.inr (.inr rfl)) trivial
      (by simp [LeafRule.Items.isLocal hinner, LeafRule.items_list hitems]))

end Grammar

end Parser

/-! ### Grammars of any depth -/

variable {R : LeafRule}

theorem Grammar.empty_sound : Grammar.empty.Sound R where
  type _ := .failure
  expr _ := .failure
  exprEarly := .failure
  unary _ := .failure
  operand _ _ := .failure
  pattern := .failure
  block _ := .failure
  item := .failure
  fields := .failure
  bound _ _ := .failure
  useTree _ := .failure

theorem Grammar.step_sound {g : Grammar} (hg : g.Sound R) : g.step.Sound R where
  type := Parser.type_yields hg
  expr := Parser.expr_yields hg
  exprEarly := Parser.exprEarly_yields hg
  unary := Parser.unary_yields hg
  operand := Parser.operand_yields hg
  pattern := Parser.pattern_yields hg
  block := Parser.block_yields hg
  item := Parser.item_yields hg
  fields := Parser.namedFields_yields hg
  bound := Parser.singleBound_yields hg
  useTree := Parser.useTree_yields hg

theorem Grammar.ofDepth_sound (depth : Nat) : (Grammar.ofDepth depth).Sound R := by
  induction depth with
  | zero => exact empty_sound
  | succ depth ih => exact step_sound ih

/-- **What is read from tokens that obey a rule** has what its parser yields. -/
theorem yields_readTokens {p : Grammar → Parser Node} {Q : Node → Prop}
    (hp : ∀ {g : Grammar}, g.Sound R → R.Yields (p g) Q) {ts : List Token} (hts : R.tokens ts)
    {n : Node} (h : readTokens p ts = some n) : Q n := by
  unfold readTokens at h
  split at h
  · rename_i hrun
    obtain rfl := Option.some.inj h
    exact (hp (Grammar.ofDepth_sound _) ts hts _ _ hrun).1
  · cases h

end Scaffold.Syntax
