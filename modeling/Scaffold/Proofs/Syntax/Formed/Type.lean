import Scaffold.Proofs.Syntax.Formed.Path

/-!
# Types, bounds and generic parameters are well formed

The parsers come in the order of `Grammar.Type`.
-/

namespace Scaffold.Syntax.Parser

variable {R : LeafRule}

/-! ### Bounds -/

theorem forLifetimes?_yields {param : Parser Node} (hparam : R.Yields param R.Local) :
    R.Yields (forLifetimes? param) R.Local := by
  refine .bind .rest fun ts _ => .ite (fun _ => ?_) fun _ => .pure LeafRule.local_none
  refine .bind (kw_yields _) fun keyword hkeyword => .bind (op_yields _) fun opening hopening => ?_
  refine .bind (sepUntil_yields hparam _ _ fun _ => trivial) fun params hparams => ?_
  refine .bind (op_yields _) fun closing hclosing => ?_
  exact .pure (.node trivial (by simp [hkeyword, hopening, hparams, hclosing]))

theorem lifetimeBounds_yields (stop : List Token → Bool) :
    R.Yields (lifetimeBounds stop) R.Local :=
  sepWhile_yields lifetime_yields _ _

/-! ### Generic parameters -/

theorem lifetimeParam_yields {attrs : Node} (hattrs : R.Local attrs) :
    R.Yields (lifetimeParam attrs) R.Local := by
  unfold lifetimeParam
  refine .bind lifetime_yields fun name hname => .bind .rest fun ts _ => ?_
  extract_lets next
  have hnext (bounds : Node) (hbounds : R.Local bounds) : R.Yields (next bounds) R.Local :=
    .pure (.node trivial (by simp [hattrs, hname, hbounds]))
  refine .ite (fun _ => ?_) fun _ => .pure_bind (hnext _ LeafRule.local_none)
  refine .bind (op_yields _) fun colon hcolon => ?_
  refine .bind (lifetimeBounds_yields _) fun list hlist => .pure_bind (hnext _ ?_)
  exact .node trivial (by simp [hcolon, hlist])

section Grammar

variable {g : Grammar} (hg : g.Sound R)

include hg

theorem typeParam_yields {attrs : Node} (hattrs : R.Local attrs) :
    R.Yields (typeParam g attrs) R.Local := by
  unfold typeParam
  refine .bind ident_yields fun name hname => .bind .rest fun ts _ => ?_
  extract_lets next
  have hnext (bounds : Node) (hbounds : R.Local bounds) : R.Yields (next bounds) R.Local := by
    refine .bind .rest fun ts _ => ?_
    extract_lets last
    have hlast (default : Node) (hdefault : R.Local default) : R.Yields (last default) R.Local :=
      .pure (.node trivial (by simp [hattrs, hname.1, hbounds, hdefault]))
    refine .ite (fun _ => ?_) fun _ => .pure_bind (hlast _ LeafRule.local_none)
    refine .bind (op_yields _) fun eq heq => .bind (hg.type _) fun type htype => ?_
    exact .pure_bind (hlast _ (.node trivial (by simp [heq, htype])))
  refine .ite (fun _ => ?_) fun _ => .pure_bind (hnext _ LeafRule.local_none)
  refine .bind (op_yields _) fun colon hcolon => ?_
  refine .bind (sepWhile_yields (hg.bound _ _) _ _) fun list hlist => .pure_bind (hnext _ ?_)
  exact .node trivial (by simp [hcolon, hlist])

theorem constParam_yields {attrs : Node} (hattrs : R.Local attrs) :
    R.Yields (constParam g attrs) R.Local := by
  unfold constParam
  refine .bind (kw_yields _) fun keyword hkeyword => .bind ident_yields fun name hname => ?_
  refine .bind (op_yields _) fun colon hcolon => .bind (hg.type _) fun type htype => ?_
  refine .bind .rest fun ts _ => ?_
  extract_lets next
  have hnext (default : Node) (hdefault : R.Local default) : R.Yields (next default) R.Local :=
    .pure (.node trivial (by simp [hattrs, hkeyword, hname.1, hcolon, htype, hdefault]))
  refine .ite (fun _ => ?_) fun _ => .pure_bind (hnext _ LeafRule.local_none)
  refine .bind (op_yields _) fun eq heq => .bind (constArgument_yields hg) fun value hvalue => ?_
  exact .pure_bind (hnext _ (.node trivial (by simp [heq, hvalue])))

theorem genericParam_yields (allowInferred : Bool) :
    R.Yields (genericParam g allowInferred) R.Local := by
  refine .bind (outerAttributes_yields hg) fun attrs hattrs => .bind .rest fun ts _ => ?_
  refine .ite (fun _ => lifetimeParam_yields hattrs) fun _ => ?_
  refine .ite (fun _ => typeParam_yields hg hattrs) fun _ => ?_
  refine .ite (fun _ => constParam_yields hg hattrs) fun _ => .ite (fun _ => ?_) fun _ => .failure
  refine .bind anyWord_yields fun word hword => .pure ?_
  exact .node trivial (by simp [hattrs, hword, LeafRule.local_none])

theorem generics?_yields : R.Yields (generics? g) R.Local := by
  refine .bind .rest fun ts _ => .ite (fun _ => ?_) fun _ => .pure LeafRule.local_none
  refine .bind (op_yields _) fun opening hopening => ?_
  refine .bind (sepUntil_yields (genericParam_yields hg _) _ _ fun _ => trivial)
    fun params hparams => ?_
  refine .bind (op_yields _) fun closing hclosing => ?_
  exact .pure (.node trivial (by simp [hopening, hparams, hclosing]))

theorem binder?_yields : R.Yields (binder? g) R.Local :=
  forLifetimes?_yields (genericParam_yields hg _)

theorem traitBound_yields (allowConst : Bool) :
    R.Yields (traitBound g allowConst) fun found => R.Local found.1 := by
  unfold traitBound
  refine .bind (binder?_yields hg) fun binder hbinder => .bind .rest fun ts _ => ?_
  extract_lets next
  have hnext (isConst : Bool) : R.Yields (next isConst) fun found => R.Local found.1 := by
    refine .bind (op?_yields _) fun maybe hmaybe => ?_
    extract_lets last
    have hlast (binder : Node) (hbinder : R.Local binder) :
        R.Yields (last binder) fun found => R.Local found.1 := by
      refine .bind (path_yields hg _) fun path hpath => ?_
      refine .bind (withParenArguments_yields hg hpath) fun path hpath => ?_
      refine .ite (fun _ => .failure) fun _ => .pure (.node trivial ?_)
      simp [hbinder, hmaybe, hpath]
    exact .ite (fun _ => .bind (binder?_yields hg) hlast) fun _ => .pure_bind (hlast _ hbinder)
  have hconst : R.Yields (if allowConst then pure true >>= next else failure >>= next)
      fun found => R.Local found.1 :=
    .ite (fun _ => .pure_bind (hnext _)) fun _ => .failure_bind
  refine .bind .rest fun ts _ => .ite (fun _ => ?_) fun _ => .ite (fun _ => ?_) fun _ => ?_
  · refine .bind (P := fun _ => True) (group_yields _ ?_) fun _ _ => hconst
    exact .bind (kw_yields _) fun _ _ => .pure trivial
  · exact .bind (kw_yields _) fun _ _ => hconst
  · exact .pure_bind (hnext _)

theorem singleBound_yields (allowCapture allowConst : Bool) :
    R.Yields (singleBound g allowCapture allowConst) R.Local := by
  unfold singleBound
  refine .bind .rest fun start hstart => .ite (fun _ => lifetime_yields) fun _ => ?_
  refine .ite (fun _ => ?_) fun _ => .ite (fun _ => ?_) fun _ => ?_
  · refine .bind (kw_yields _) fun keyword hkeyword => .bind (op_yields _) fun opening hopening => ?_
    extract_lets param
    have hparam : R.Yields param R.Local :=
      .bind .rest fun _ _ => .ite (fun _ => lifetime_yields) fun _ =>
        (identOr_yields _).mono fun _ h => h.1
    refine .bind (sepUntil_yields hparam _ _ fun _ => trivial) fun params hparams => ?_
    refine .bind (op_yields _) fun closing hclosing => .ite (fun _ => ?_) fun _ => .failure
    exact .pure (.node trivial (by simp [hkeyword, hopening, hparams, hclosing]))
  · refine .bind (group_yields _ (traitBound_yields hg _)) fun found hfound => ?_
    refine .ite (fun _ => verbatim_yields .boundVerbatim (fun _ => trivial) hstart) fun _ => ?_
    exact .pure (.node trivial (by simpa using LeafRule.local_group hfound))
  · refine .bind (traitBound_yields hg _) fun found hfound => ?_
    exact .ite (fun _ => verbatim_yields .boundVerbatim (fun _ => trivial) hstart) fun _ => .pure hfound

theorem moreBounds_yields (trailing : Bool) {acc : List Node} (hacc : ∀ n ∈ acc, R.Local n) :
    R.Yields (moreBounds g trailing acc) R.Local := by
  refine .loop (fun acc => ∀ n ∈ acc, R.Local n) hacc fun acc hacc => ?_
  refine .bind .rest fun ts _ => .ite (fun _ => ?_) fun _ => .pure (LeafRule.local_separated hacc)
  refine .bind (op_yields _) fun plus hplus => .bind .rest fun ts _ => .ite (fun _ => ?_) fun _ => ?_
  · refine .bind (hg.bound _ _) fun bound hbound => .pure ?_
    exact List.forall_mem_cons.2 ⟨hbound, List.forall_mem_cons.2 ⟨hplus, hacc⟩⟩
  · exact .pure (LeafRule.local_separated (List.forall_mem_cons.2 ⟨hplus, hacc⟩))

theorem bounds_yields (allowPlus allowCapture allowConst : Bool) :
    R.Yields (bounds g allowPlus allowCapture allowConst) R.Local := by
  refine .loop (fun acc => ∀ n ∈ acc, R.Local n) (by simp) fun acc hacc => ?_
  refine .bind (hg.bound _ _) fun bound hbound => .bind .rest fun ts _ => ?_
  have hacc := List.forall_mem_cons.2 ⟨hbound, hacc⟩
  refine .ite (fun _ => ?_) fun _ => .pure (LeafRule.local_separated hacc)
  refine .bind (op_yields _) fun plus hplus => .bind .rest fun _ _ => .bind .rest fun _ _ => ?_
  have hacc := List.forall_mem_cons.2 ⟨hplus, hacc⟩
  exact .ite (fun _ => .pure hacc) fun _ => .pure (LeafRule.local_separated hacc)

/-! ### Where clauses -/

theorem wherePredicate_yields : R.Yields (wherePredicate g) R.Local := by
  refine .bind .rest fun ts _ => .ite (fun _ => ?_) fun _ => ?_
  · refine .bind lifetime_yields fun name hname => .bind (op_yields _) fun colon hcolon => ?_
    refine .bind (lifetimeBounds_yields _) fun list hlist => .pure (.node trivial ?_)
    simp [hname, hcolon, hlist]
  · refine .bind (binder?_yields hg) fun binder hbinder => .bind (hg.type _) fun type htype => ?_
    refine .bind (op_yields _) fun colon hcolon => ?_
    refine .bind (sepWhile_yields (hg.bound _ _) _ _) fun list hlist => .pure (.node trivial ?_)
    simp [hbinder, htype, hcolon, hlist]

theorem whereClause?_yields : R.Yields (whereClause? g) R.Local := by
  unfold whereClause?
  refine .bind .rest fun ts _ => .ite (fun _ => ?_) fun _ => .pure LeafRule.local_none
  refine .bind (kw_yields _) fun keyword hkeyword => .bind .rest fun ts _ => ?_
  extract_lets next
  have hnext (u : PUnit) : R.Yields (next u) R.Local := by
    refine .bind (sepWhile_yields (wherePredicate_yields hg) _ _) fun predicates hpredicates => ?_
    exact .pure (.node trivial (by simp [hkeyword, hpredicates]))
  exact .ite (fun _ => .failure_bind) fun _ => hnext ()

/-! ### Function pointers -/

omit hg in
theorem abi?_yields : R.Yields abi? R.Local := by
  unfold abi?
  refine .bind .rest fun ts _ => .ite (fun _ => ?_) fun _ => .pure LeafRule.local_none
  refine .bind (kw_yields _) fun keyword hkeyword => .bind .rest fun ts _ => ?_
  extract_lets next
  have hnext (name : Node) (hname : R.Local name) : R.Yields (next name) R.Local :=
    .pure (.node trivial (by simp [hkeyword, hname]))
  split
  · refine .ite (fun _ => .bind literal_yields hnext) fun _ => ?_
    exact .pure_bind (hnext _ LeafRule.local_none)
  · exact .pure_bind (hnext _ LeafRule.local_none)

theorem fnPointerArg_yields (first : Bool) {attrs : Node} (hattrs : R.Local attrs) :
    R.Yields (fnPointerArg g first attrs) R.Local := by
  unfold fnPointerArg
  refine .bind .rest fun start hstart => ?_
  extract_lets atMutSelf mutSelf next
  have hnext : R.Yields (next ()) R.Local := by
    refine .bind .rest fun ts _ => ?_
    extract_lets selfNamed named typed
    have htyped (name : Node) (hname : R.Local name) : R.Yields (typed name) R.Local := by
      refine .bind .rest fun ts _ => ?_
      extract_lets last
      have hlast (type : Node) (htype : R.Local type) : R.Yields (last type) R.Local := by
        refine .ite (fun _ => .bind (since_yields hstart) fun tokens htokens => ?_) fun _ => ?_
        · have hverbatim : R.Local (.node .typeVerbatim [.verbatim tokens]) :=
            .node trivial (List.forall_mem_singleton.2 (.verbatim htokens))
          exact .pure (.node trivial (by simp [hattrs, LeafRule.local_none, hverbatim]))
        · exact .pure (.node trivial (by simp [hattrs, hname, htype]))
      have hself : R.Yields (kw "self" >>= fun _ => pure .none >>= last) R.Local :=
        .bind (kw_yields _) fun _ _ => .pure_bind (hlast _ LeafRule.local_none)
      refine .ite (fun _ => .bind (kw_yields _) fun _ _ => hself) fun _ => ?_
      exact .ite (fun _ => hself) fun _ => .bind (hg.type _) hlast
    refine .ite (fun _ => ?_) fun _ => .pure_bind (htyped _ LeafRule.local_none)
    refine .bind anyWord_yields fun word hword => .bind (op_yields _) fun colon hcolon => ?_
    exact .pure_bind (htyped _ (.node trivial (by simp [hword, hcolon])))
  exact .ite (fun _ => .bind (kw_yields _) fun _ _ => hnext) fun _ => hnext

theorem fnPointerArgs_yields : R.Yields (fnPointerArgs g) R.Local := by
  refine .loop (fun acc => ∀ n ∈ acc, R.Local n) (by simp) fun acc hacc => ?_
  refine .bind .rest fun ts _ => .ite (fun _ => .pure (LeafRule.local_separated hacc)) fun _ => ?_
  refine .bind (outerAttributes_yields hg) fun attrs hattrs => .bind .rest fun ts _ => ?_
  extract_lets namedDots next
  refine .ite (fun _ => ?_) fun _ => ?_
  · have hnext (name : Node) (hname : R.Local name) :
        R.Yields (next name) (Sum.elim (fun acc => ∀ n ∈ acc, R.Local n) R.Local) := by
      refine .bind (op_yields _) fun dots hdots => .bind (op?_yields _) fun comma hcomma => ?_
      refine .pure (.node trivial ?_)
      have htail : ∀ n ∈ (if comma.isNone then [] else [comma]), R.Local n := by
        split <;> simp [hcomma]
      have hvariadic : R.Local (.node .variadic [attrs, name, dots]) :=
        .node trivial (by simp [hattrs, hname, hdots])
      intro n hn
      rcases List.mem_append.1 hn with hn | hn
      · exact hacc n (List.mem_reverse.1 hn)
      · exact List.forall_mem_cons.2 ⟨hvariadic, htail⟩ n hn
    refine .ite (fun _ => ?_) fun _ => .pure_bind (hnext _ LeafRule.local_none)
    refine .bind anyWord_yields fun word hword => .bind (op_yields _) fun colon hcolon => ?_
    exact .pure_bind (hnext _ (.node trivial (by simp [hword, hcolon])))
  · refine .bind (fnPointerArg_yields hg _ hattrs) fun arg harg => .bind .rest fun ts _ => ?_
    have hacc := List.forall_mem_cons.2 ⟨harg, hacc⟩
    refine .ite (fun _ => .pure (LeafRule.local_separated hacc)) fun _ => ?_
    exact .bind (op_yields _) fun comma hcomma => .pure (List.forall_mem_cons.2 ⟨hcomma, hacc⟩)

theorem fnPointer_yields {binder : Node} (hbinder : R.Local binder) :
    R.Yields (fnPointer g binder) R.Local := by
  refine .bind (kw?_yields _) fun unsafety hsafetyty => .bind abi?_yields fun abi habi => ?_
  refine .bind (kw_yields _) fun keyword hkeyword => ?_
  refine .bind (groupNode_yields _ (.bind (fnPointerArgs_yields hg) fun args hargs =>
    .pure (by simpa using hargs))) fun args hargs => ?_
  refine .bind (returnType?_yields hg _) fun output houtput => .pure (.node trivial ?_)
  simp [hbinder, hsafetyty, habi, hkeyword, hargs, houtput]

/-! ### Types -/

theorem parenType_yields (allowPlus : Bool) : R.Yields (parenType g allowPlus) R.Local := by
  unfold parenType
  extract_lets inner
  have paren {kind : Kind} {n : Node} (hkind : ∀ parts, kind.PartShape parts) (hn : R.Local n) :
      R.Local (.node kind [.group .paren [n]]) :=
    .node (hkind _) (List.forall_mem_singleton.2 (LeafRule.local_group hn))
  have hinner : R.Yields inner (Sum.elim R.Local R.Local) := by
    refine .bind .rest fun ts _ => .ite (fun _ => ?_) fun _ => .ite (fun _ => ?_) fun _ => ?_
    · exact .pure (paren (fun _ => trivial) (.node trivial (by simp)))
    · refine .bind (bounds_yields hg _ _ _) fun list hlist => .ite (fun _ => ?_) fun _ => .failure
      exact .pure (paren (fun _ => trivial) (.node trivial (by simp [hlist, LeafRule.local_none])))
    · refine .ite (fun _ => ?_) fun _ => .bind (hg.type _) fun first hfirst => ?_
      · refine .bind (traitBound_yields hg _) fun found hfound => .ite (fun _ => .failure) fun _ => ?_
        exact .pure (paren (fun _ => trivial) hfound)
      · refine .bind .rest fun ts _ => .ite (fun _ => ?_) fun _ => ?_
        · refine .bind (op_yields _) fun comma hcomma => ?_
          refine .bind (sepUntil_parts_yields (hg.type _) _ _ _) fun more ⟨parts, heq, hparts⟩ => ?_
          subst heq
          refine .pure (paren (fun _ => trivial) (.node trivial ?_))
          simpa [hfirst, hcomma, Node.children] using hparts
        · exact .pure (paren (fun _ => trivial) hfirst)
  have dyn {bound : Node} (h : R.Local bound) :
      R.Yields (do pure (.node .typeDyn [.none, ← moreBounds g false [bound]])) R.Local := by
    refine .bind (moreBounds_yields hg _ (List.forall_mem_singleton.2 h)) fun list hlist => ?_
    exact .pure (.node trivial (by simp [LeafRule.local_none, hlist]))
  refine .bind (group_yields _ hinner) fun found hfound => ?_
  cases found with
  | inr bound => exact dyn hfound
  | inl type =>
    have htype : R.Local type := hfound
    refine .bind .rest fun ts _ => .ite (fun _ => ?_) fun _ => .pure htype
    split
    · rename_i parts
      have hpath : R.Local (.node .path parts) := ((htype.part rfl 0).part rfl 0).part rfl 0
      refine dyn (paren (fun _ => trivial) (.node trivial ?_))
      simp [LeafRule.local_none, hpath]
    · rename_i bound
      have hbound : R.Local bound := ((((htype.part rfl 0).part rfl 0).part rfl 1)).part rfl 0
      refine dyn ?_
      split
      · exact paren (fun _ => trivial) hbound
      · exact hbound
    · exact .pure htype

theorem pathType_yields (allowPlus : Bool) {binder : Node} (hbinder : R.Local binder) :
    R.Yields (pathType g allowPlus binder) R.Local := by
  refine .bind (qualifiedPath_yields hg _) fun path hpath => ?_
  refine .bind (withParenArguments_yields hg hpath) fun path hpath => ?_
  refine .ite (fun _ => .pure (.node trivial (by simpa using hpath))) fun _ => ?_
  refine .bind .rest fun ts _ => .ite (fun _ => ?_) fun _ => .ite (fun _ => ?_) fun _ => ?_
  · refine .bind (op_yields _) fun bang hbang => .bind anyGroup_yields fun found hfound => ?_
    exact .pure (.node trivial (by simp [hpath, hbang, hfound]))
  · extract_lets bound next
    have hbound : R.Local bound := .node trivial (by simp [hbinder, LeafRule.local_none, hpath])
    have hbounds := List.forall_mem_singleton.2 hbound
    have hnext (list : Node) (hlist : R.Local list) : R.Yields (next list) R.Local :=
      .pure (.node trivial (by simp [LeafRule.local_none, hlist]))
    refine .ite (fun _ => .bind (moreBounds_yields hg _ hbounds) hnext) fun _ => ?_
    exact .pure_bind (hnext _ (.node trivial hbounds))
  · exact .pure (.node trivial (by simpa using hpath))

theorem dynType_yields (allowPlus : Bool) : R.Yields (dynType g allowPlus) R.Local := by
  refine .bind .rest fun start hstart => .bind (kw_yields _) fun keyword hkeyword => ?_
  refine .bind (op?_yields _) fun star _ => .bind (bounds_yields hg _ _ _) fun list hlist => ?_
  refine .ite (fun _ => .failure) fun _ => .ite (fun _ => ?_) fun _ => ?_
  · exact verbatim_yields .typeVerbatim (fun _ => trivial) hstart
  · exact .pure (.node trivial (by simp [hkeyword, hlist]))

theorem type_yields (allowPlus : Bool) : R.Yields (type g allowPlus) R.Local := by
  unfold type
  refine .bind .rest fun start hstart => .bind (binder?_yields hg) fun binder hbinder => ?_
  refine .bind .rest fun ts _ => ?_
  extract_lets fnHead
  refine .ite (fun _ => .failure) fun _ => .ite (fun _ => parenType_yields hg _) fun _ => ?_
  refine .ite (fun _ => fnPointer_yields hg hbinder) fun _ => .ite (fun _ => ?_) fun _ => ?_
  · refine .bind ident_yields fun _ _ => .bind (op_yields _) fun _ _ => ?_
    refine .bind ident_yields fun _ _ => .bind (group_yields _ (.set ?_)) fun _ _ => ?_
    · exact R.tokens_take 0 hstart
    · exact verbatim_yields .typeVerbatim (fun _ => trivial) hstart
  refine .ite (fun _ => pathType_yields hg _ hbinder) fun _ => ?_
  refine .ite (fun _ => dynType_yields hg _) fun _ => .ite (fun _ => ?_) fun _ => ?_
  · refine .bind (group_yields _ (Q := fun parts => ∀ n ∈ parts, R.Local n) ?_)
      fun parts hparts => .pure (.node ?_ (List.forall_mem_singleton.2 (.group hparts)))
    · refine .bind (hg.type _) fun elem helem => .bind .rest fun ts _ => ?_
      refine .ite (fun _ => .bind (op_yields _) fun semi hsemi => ?_) fun _ => .pure (by simpa using helem)
      exact .bind (hg.expr _) fun length hlength => .pure (by simp [helem, hsemi, hlength])
    · split <;> trivial
  refine .ite (fun _ => ?_) fun _ => .ite (fun _ => ?_) fun _ => .ite (fun _ => ?_) fun _ => ?_
  · refine .bind (op_yields _) fun star hstar => .bind .rest fun ts _ => ?_
    extract_lets next
    have hnext (qualifier : Node) (hqualifier : R.Local qualifier) :
        R.Yields (next qualifier) R.Local :=
      .bind (hg.type _) fun type htype => .pure (.node trivial (by simp [hstar, hqualifier, htype]))
    exact .ite (fun _ => .bind (kw_yields _) hnext) fun _ => .bind (kw_yields _) hnext
  · refine .bind (op_yields _) fun amp hamp => .bind lifetime?_yields fun name hname => ?_
    refine .bind (kw?_yields _) fun mutable hmutable => .bind (hg.type _) fun type htype => ?_
    exact .pure (.node trivial (by simp [hamp, hname, hmutable, htype]))
  · exact .bind (op_yields _) fun bang hbang => .pure (.node trivial (by simpa using hbang))
  refine .ite (fun _ => ?_) fun _ => .ite (fun _ => ?_) fun _ => .ite (fun _ => ?_) fun _ => .failure
  · refine .bind (kw_yields _) fun keyword hkeyword => .bind (bounds_yields hg _ _ _) fun list hlist => ?_
    refine .ite (fun _ => .pure (.node trivial ?_)) fun _ => .failure
    simp [hkeyword, hlist]
  · exact .bind anyWord_yields fun word hword => .pure (.node trivial (by simpa using hword))
  · refine .bind (bounds_yields hg _ _ _) fun list hlist => ?_
    refine .ite (fun _ => .pure (.node trivial ?_)) fun _ => .failure
    simp [LeafRule.local_none, hlist]

end Grammar

end Scaffold.Syntax.Parser
