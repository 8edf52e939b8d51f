import Scaffold.Proofs.Syntax.Formed.Type

/-!
# Patterns are well formed

The parsers come in the order of `Grammar.Pattern`.
-/

namespace Scaffold.Syntax.Parser

variable {R : LeafRule}

theorem fieldIndex?_local {text : String} {index : Node} (h : fieldIndex? text = some index) :
    R.Local index := by
  unfold fieldIndex? at h
  split at h
  · obtain ⟨-, h⟩ := Option.ite_none_right_eq_some.1 h
    obtain rfl := Option.some.inj h
    exact .literal (R.index _)
  · cases h

theorem member_yields : R.Yields member R.Local := by
  refine .rest_bind fun ts hts => ?_
  split
  · split
    · rename_i hindex
      exact LeafRule.Yields.bind (.set (R.tokens_tail hts))
        (fun _ _ => .pure (fieldIndex?_local hindex)) _ hts
    · exact .failure
  · exact (ident_yields.mono fun _ h => h.1) ts hts

theorem rangeLimits_yields (allowObsolete : Bool) : R.Yields (rangeLimits allowObsolete) R.Local := by
  refine .bind .rest fun ts _ => .ite (fun _ => op_yields _) fun _ => ?_
  refine .ite (fun _ => ?_) fun _ => op_yields _
  refine .ite (fun _ => .bind (op_yields _) fun _ _ => ?_) fun _ => .failure
  exact .pure (.op (R.supplied _ (by simp)))

theorem pathExpr_local {path : Node} (h : R.Local path) : R.Local (pathExpr path) :=
  .node rfl (by simp [noAttributes_local, h])

section Grammar

variable {g : Grammar} (hg : g.Sound R)

include hg

theorem alternatives_yields {lead : Node} (hlead : R.Local lead) :
    R.Yields (alternatives g lead) R.Local := by
  refine .bind hg.pattern fun first hfirst => .bind .rest fun ts _ => ?_
  refine .ite (fun _ => ?_) fun _ => .pure hfirst
  refine .loop (fun acc => ∀ n ∈ acc, R.Local n) (by simpa using hfirst) fun acc hacc => ?_
  refine .bind .rest fun ts _ => .ite (fun _ => ?_) fun _ => ?_
  · refine .bind (op_yields _) fun bar hbar => .bind hg.pattern fun pat hpat => .pure ?_
    exact List.forall_mem_cons.2 ⟨hpat, List.forall_mem_cons.2 ⟨hbar, hacc⟩⟩
  · have hlist := LeafRule.local_separated hacc
    exact .pure (.node trivial (by simp [noAttributes_local, hlead, hlist]))

theorem multiPattern_yields : R.Yields (multiPattern g) R.Local :=
  .bind (op?_yields _) fun _ hlead => alternatives_yields hg hlead

theorem rangeBound?_yields : R.Yields (rangeBound? g) R.Local := by
  refine .bind .rest fun ts _ => .ite (fun _ => .pure LeafRule.local_none) fun _ => ?_
  refine .ite (fun _ => ?_) fun _ => .ite (fun _ => ?_) fun _ => .ite (fun _ => ?_) fun _ => .failure
  · refine .bind literal_yields fun value hvalue => .pure (.node trivial ?_)
    simp [noAttributes_local, hvalue]
  · exact .bind (qualifiedPath_yields hg _) fun path hpath => .pure (pathExpr_local hpath)
  · refine .bind (kw_yields _) fun keyword hkeyword => .bind (hg.block _) fun body hbody => ?_
    exact .pure (.node trivial (by simp [noAttributes_local, hkeyword, hbody]))

theorem rangeFrom_yields {start : Node} (hstart : R.Local start) :
    R.Yields (rangeFrom g start) R.Local := by
  refine .bind (rangeLimits_yields _) fun limits hlimits => ?_
  refine .bind (rangeBound?_yields hg) fun stop hstop => .ite (fun _ => .failure) fun _ => ?_
  exact .pure (.node trivial (by simp [noAttributes_local, hstart, hlimits, hstop]))

theorem fieldPattern_yields {attrs : Node} (hattrs : R.Local attrs) :
    R.Yields (fieldPattern g attrs) R.Local := by
  unfold fieldPattern
  refine .bind .rest fun start hstart => .bind (kw?_yields _) fun boxed _ => ?_
  refine .bind (kw?_yields _) fun byRef hbyRef => .bind (kw?_yields _) fun mutable hmutable => ?_
  extract_lets plain next
  have hnext (name : Node) (hname : R.Local name) : R.Yields (next name) R.Local := by
    refine .bind .rest fun ts _ => .ite (fun _ => ?_) fun _ => .ite (fun _ => ?_) fun _ => ?_
    · refine .bind (op_yields _) fun colon hcolon => .bind (multiPattern_yields hg) fun pat hpat => ?_
      exact .pure (.node trivial (by simp [hattrs, hname, hcolon, hpat]))
    · refine .bind (since_yields hstart) fun tokens htokens => .pure (.node trivial ?_)
      have hverbatim : R.Local (.node .patVerbatim [.verbatim tokens]) :=
        .node trivial (List.forall_mem_singleton.2 (.verbatim htokens))
      simp [hattrs, hverbatim]
    · have hident : R.Local (.node .patIdent [noAttributes, byRef, mutable, name, .none]) :=
        .node trivial (by
          simp [noAttributes_local, hbyRef, hmutable, hname, LeafRule.local_none])
      exact .pure (.node trivial (by simp [hattrs, hident]))
  exact .ite (fun _ => .bind member_yields hnext) fun _ =>
    .bind ident_yields fun name hname => hnext name hname.1

theorem structPatternFields_yields : R.Yields (structPatternFields g) R.Local := by
  refine .loop (fun acc => ∀ n ∈ acc, R.Local n) (by simp) fun acc hacc => ?_
  refine .bind .rest fun ts _ => .ite (fun _ => .pure (LeafRule.local_separated hacc)) fun _ => ?_
  refine .bind (outerAttributes_yields hg) fun attrs hattrs => .bind .rest fun ts _ => ?_
  refine .ite (fun _ => .bind (op_yields _) fun dots hdots => ?_) fun _ => ?_
  · have hrest : R.Local (.node .patRest [attrs, dots]) := .node trivial (by simp [hattrs, hdots])
    exact .pure (LeafRule.local_separated (List.forall_mem_cons.2 ⟨hrest, hacc⟩))
  · refine .bind (fieldPattern_yields hg hattrs) fun field hfield => .bind .rest fun ts _ => ?_
    have hacc := List.forall_mem_cons.2 ⟨hfield, hacc⟩
    refine .ite (fun _ => .pure (LeafRule.local_separated hacc)) fun _ => ?_
    exact .bind (op_yields _) fun comma hcomma => .pure (List.forall_mem_cons.2 ⟨hcomma, hacc⟩)

theorem pathPattern_yields : R.Yields (pathPattern g) R.Local := by
  refine .bind (qualifiedPath_yields hg _) fun path hpath => .bind .rest fun ts _ => ?_
  refine .ite (fun _ => ?_) fun _ => .ite (fun _ => ?_) fun _ => .ite (fun _ => ?_) fun _ => ?_
  · refine .bind (op_yields _) fun bang hbang => .bind anyGroup_yields fun found hfound => ?_
    exact .pure (.node trivial (by simp [noAttributes_local, hpath, hbang, hfound]))
  · refine .bind (groupNode_yields _ (.bind (structPatternFields_yields hg) fun list hlist =>
      .pure (by simpa using hlist))) fun fields hfields => .pure (.node trivial ?_)
    simp [noAttributes_local, hpath, hfields]
  · refine .bind (groupNode_yields _ (.bind (terminated_yields (multiPattern_yields hg) _)
      fun list hlist => .pure (by simpa using hlist))) fun fields hfields => .pure (.node trivial ?_)
    simp [noAttributes_local, hpath, hfields]
  · refine .ite (fun _ => rangeFrom_yields hg (pathExpr_local hpath)) fun _ => ?_
    exact .pure (.node trivial (by simp [noAttributes_local, hpath]))

theorem identPattern_yields : R.Yields (identPattern g) R.Local := by
  unfold identPattern
  refine .bind (kw?_yields _) fun byRef hbyRef => .bind (kw?_yields _) fun mutable hmutable => ?_
  refine .bind (identOr_yields _) fun name hname => .bind .rest fun ts _ => ?_
  extract_lets next
  have hnext (sub : Node) (hsub : R.Local sub) : R.Yields (next sub) R.Local :=
    .pure (.node trivial (by simp [noAttributes_local, hbyRef, hmutable, hname.1, hsub]))
  refine .ite (fun _ => ?_) fun _ => .pure_bind (hnext _ LeafRule.local_none)
  refine .bind (op_yields _) fun at_ hat => .bind hg.pattern fun pat hpat => ?_
  exact .pure_bind (hnext _ (.node trivial (by simp [hat, hpat])))

theorem parenPattern_yields : R.Yields (parenPattern g) R.Local := by
  refine .bind (group_yields _ (terminated_yields (multiPattern_yields hg) _)) fun list hlist => ?_
  have paren {kind : Kind} {n : Node} (hkind : ∀ parts, kind.PartShape parts) (hn : R.Local n) :
      R.Local (.node kind [noAttributes, .group .paren [n]]) :=
    .node (hkind _) (by simp [noAttributes_local, LeafRule.local_group hn])
  split
  · refine .ite (fun _ => .pure (paren (fun _ => trivial) hlist)) fun _ => ?_
    exact .pure (paren (fun _ => trivial) (hlist.part rfl 0))
  · exact .pure (paren (fun _ => trivial) hlist)

theorem pattern_yields : R.Yields (pattern g) R.Local := by
  unfold pattern
  refine .bind .rest fun ts hts => ?_
  extract_lets next
  refine .ite (fun _ => pathPattern_yields hg) fun _ => .ite (fun _ => ?_) fun _ => ?_
  · exact .bind anyWord_yields fun word hword =>
      .pure (.node trivial (by simp [noAttributes_local, hword]))
  refine .ite (fun _ => ?_) fun _ => .ite (fun _ => ?_) fun _ => ?_
  · refine .bind (kw_yields _) fun _ _ => .bind hg.pattern fun _ _ => ?_
    exact verbatim_yields .patVerbatim (fun _ => trivial) hts
  · refine .bind (rangeBound?_yields hg) fun start hstart => .ite (fun _ => .failure) fun _ => ?_
    refine .bind .rest fun ts _ => .ite (fun _ => rangeFrom_yields hg hstart) fun _ => ?_
    exact .pure (.node trivial (by simpa using hstart))
  refine .ite (fun _ => identPattern_yields hg) fun _ => .ite (fun _ => ?_) fun _ => ?_
  · refine .bind (op_yields _) fun amp hamp => .bind (kw?_yields _) fun mutable hmutable => ?_
    refine .bind hg.pattern fun pat hpat => .pure (.node trivial ?_)
    simp [noAttributes_local, hamp, hmutable, hpat]
  refine .ite (fun _ => parenPattern_yields hg) fun _ => .ite (fun _ => ?_) fun _ => ?_
  · refine .bind (group_yields _ (terminated_yields (multiPattern_yields hg) _)) fun list hlist => ?_
    refine .ite (fun _ => .failure) fun _ => .pure (.node trivial ?_)
    simp [noAttributes_local, LeafRule.local_group hlist]
  · refine .ite (fun _ => ?_) fun _ => .failure
    refine .bind (rangeLimits_yields _) fun limits hlimits => ?_
    refine .bind (rangeBound?_yields hg) fun stop hstop => .ite (fun _ => ?_) fun _ => ?_
    · refine .pure (.node trivial ?_)
      simp [noAttributes_local, LeafRule.local_none, hlimits, hstop]
    · refine .ite (fun _ => .pure (.node trivial ?_)) fun _ => .failure
      simp [noAttributes_local, hlimits]

end Grammar

end Scaffold.Syntax.Parser
