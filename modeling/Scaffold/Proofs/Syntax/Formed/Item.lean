import Scaffold.Proofs.Syntax.Formed.Expr

/-!
# Items are well formed

The parsers come in the order of `Grammar.Item`.  Here the names are asked for on which the shapes
of structs, enumerations, modules and use trees depend.
-/

namespace Scaffold.Syntax.Parser

variable {R : LeafRule}

/-! ### Parts that many items share -/

theorem visibility?_yields : R.Yields visibility? R.Local := by
  refine .bind .rest fun ts _ => .ite (fun _ => ?_) fun _ => .pure LeafRule.local_none
  refine .bind (kw_yields _) fun keyword hkeyword => .rest_bind fun ts hts => ?_
  have plain : R.Yields (pure (.node .visibility [keyword, .none])) R.Local :=
    .pure (.node trivial (by simp [hkeyword, LeafRule.local_none]))
  split
  · rename_i w ts
    refine .ite (fun hw => ?_) fun _ => plain _ hts
    have hword : R.Local (.word false w) := .word (R.word_of_tokens (R.tokens_content hts))
    have hname : (Node.word false w).isIdentOr ["crate", "self", "super"] = true := by
      rw [Node.isIdentOr, hw, Bool.or_true]
    have hpath := wordPath_local hword (isIdentOr_mono hname (by decide))
    refine LeafRule.Yields.bind (.set (R.tokens_tail hts)) (fun _ _ => .pure (.node trivial ?_)) _ hts
    have hgroup : R.Local (.group .paren [.none, wordPath (.word false w)]) :=
      .group (by simp [LeafRule.local_none, hpath])
    simp [hkeyword, hgroup]
  · refine LeafRule.Yields.bind (group_yields _ (Q := fun parts => ∀ n ∈ parts, R.Local n) ?_)
      (fun path hpath => .pure (.node trivial ?_)) _ hts
    · refine .bind (kw_yields _) fun within hwithin => .bind modPath_yields fun path hpath => ?_
      exact .pure (by simp [hwithin, hpath])
    · simp [hkeyword, LeafRule.Local.group hpath]
  · exact plain _ hts

theorem verbatimSince_yields (kind : Kind) (hkind : ∀ parts, kind.PartShape parts) {start : List Token}
    (h : R.tokens start) : R.Yields (verbatimSince kind start) R.Local :=
  verbatim_yields kind hkind h

/-- What the loop over the trees of a group keeps: where none of them is rooted, all are use
trees. -/
structure UseTrees (R : LeafRule) (allowRoot : Bool) (state : List Node × Bool) : Prop where
  isLocal : ∀ n ∈ state.1, R.Local n
  isUseTree : state.2 = false → ∀ n ∈ state.1, n.isOp = false → n.IsUseTree
  rooted : state.2 = true → allowRoot = true

section Grammar

variable {g : Grammar} (hg : g.Sound R)

include hg

theorem boundsUntil_yields (stop : List Token → Bool) : R.Yields (boundsUntil g stop) R.Local :=
  sepUntil_yields (hg.bound _ _) _ _ fun _ => trivial

theorem body_parts_yields {p : Parser Node} {Q : Node → Prop} (hp : R.Yields p Q) :
    R.Yields (body g p) fun n =>
      ∃ inner members, n = .group .brace [inner, .list members] ∧ R.Local inner ∧
        ∀ m ∈ members, Q m := by
  refine .bind (group_yields (Q := fun parts => ∃ inner members, parts = [inner, .list members] ∧
    R.Local inner ∧ ∀ m ∈ members, Q m) _ ?_) fun _ ⟨inner, members, heq, h⟩ =>
      .pure ⟨inner, members, by rw [heq], h⟩
  exact .bind (innerAttributes_yields hg) fun inner hinner => .bind (manyToEnd_yields hp)
    fun members hmembers => .pure ⟨inner, members, rfl, hinner, hmembers⟩

theorem body_yields {p : Parser Node} (hp : R.Yields p R.Local) : R.Yields (body g p) R.Local :=
  (body_parts_yields hg hp).mono fun _ ⟨_, _, heq, hinner, hmembers⟩ =>
    heq ▸ .group (by simp [hinner, LeafRule.local_list hmembers])

/-! ### Functions -/

theorem receiver_yields {attrs : Node} (hattrs : R.Local attrs) :
    R.Yields (receiver g attrs) R.Local := by
  unfold receiver
  refine .bind (op?_yields _) fun amp hamp => ?_
  extract_lets next
  have hnext (name : Node) (hname : R.Local name) : R.Yields (next name) R.Local := by
    refine .bind (kw?_yields _) fun mutable hmutable => .bind (kw_yields _) fun self hself => ?_
    refine .bind .rest fun ts _ => ?_
    extract_lets last
    have hlast (type : Node) (htype : R.Local type) : R.Yields (last type) R.Local :=
      .pure (.node trivial (by simp [hattrs, hamp, hname, hmutable, hself, htype]))
    refine .ite (fun _ => ?_) fun _ => .pure_bind (hlast _ LeafRule.local_none)
    refine .bind (op_yields _) fun colon hcolon => .bind (hg.type _) fun type htype => ?_
    exact .pure_bind (hlast _ (.node trivial (by simp [hcolon, htype])))
  exact .ite (fun _ => .bind lifetime?_yields hnext) fun _ =>
    .pure_bind (hnext _ LeafRule.local_none)

theorem fnArg_yields {attrs : Node} (hattrs : R.Local attrs) :
    R.Yields (fnArg g attrs) fun found => R.Local found.1 := by
  refine .rest_bind fun ts hts => ?_
  split
  · rename_i n after hreceiver
    obtain ⟨hn, hafter⟩ := receiver_yields hg hattrs ts hts n after hreceiver
    exact LeafRule.Yields.bind (.set hafter) (fun _ _ => .pure (b := (n, false)) hn) _ hts
  refine .ite (fun _ => ?_) fun _ => .ite (fun _ => ?_) fun _ => ?_
  · refine LeafRule.Yields.bind (op_yields _) (fun dots hdots => .pure (.node trivial ?_)) _ hts
    simp [hattrs, LeafRule.local_none, hdots]
  · refine LeafRule.Yields.bind (hg.type _) (fun type htype => .pure (.node trivial ?_)) _ hts
    have hword : R.Local (.word false "_") := .word R.wildcard
    have hwild : R.Local (.node .patWild [noAttributes, .word false "_"]) :=
      .node trivial (by simp [noAttributes_local, hword])
    have hcolon : R.Local (.op ":") := .op (R.supplied _ (by simp))
    simp [hattrs, hwild, hcolon, htype]
  · refine LeafRule.Yields.bind hg.pattern (fun pat hpat => ?_) _ hts
    refine .bind (op_yields _) fun colon hcolon => .bind .rest fun ts _ => .ite (fun _ => ?_) fun _ => ?_
    · refine .bind (op_yields _) fun dots hdots => .pure (.node trivial ?_)
      have hname : R.Local (.node .argName [pat, colon]) := .node trivial (by simp [hpat, hcolon])
      simp [hattrs, hname, hdots]
    · refine .bind (hg.type _) fun type htype => .pure (.node trivial ?_)
      simp [hattrs, hpat, hcolon, htype]

theorem fnArgs_yields : R.Yields (fnArgs g) R.Local := by
  refine .loop (fun acc => ∀ n ∈ acc, R.Local n) (by simp) fun acc hacc => ?_
  refine .bind .rest fun ts _ => .ite (fun _ => .pure (LeafRule.local_separated hacc)) fun _ => ?_
  refine .bind (outerAttributes_yields hg) fun attrs hattrs => ?_
  refine .bind (fnArg_yields hg hattrs) fun found hfound => ?_
  have hacc := List.forall_mem_cons.2 ⟨hfound, hacc⟩
  refine .ite (fun _ => .failure) fun _ => .bind .rest fun ts _ => ?_
  refine .ite (fun _ => .pure (LeafRule.local_separated hacc)) fun _ => ?_
  refine .bind (op_yields _) fun comma hcomma => ?_
  have hacc := List.forall_mem_cons.2 ⟨hcomma, hacc⟩
  exact .ite (fun _ => .pure (LeafRule.local_separated hacc)) fun _ => .pure hacc

theorem signature_yields (allowSafe : Bool) : R.Yields (signature g allowSafe) R.Local := by
  unfold signature
  refine .bind (kw?_yields _) fun const hconst => .bind (kw?_yields _) fun async hasync => ?_
  refine .bind .rest fun ts _ => ?_
  extract_lets next
  have hnext (safety : Node) (hsafety : R.Local safety) : R.Yields (next safety) R.Local := by
    refine .bind abi?_yields fun abi habi => .bind (kw_yields _) fun keyword hkeyword => ?_
    refine .bind ident_yields fun name hname => .bind (generics?_yields hg) fun params hparams => ?_
    refine .bind (groupNode_yields _ (.bind (fnArgs_yields hg) fun args hargs =>
      .pure (by simpa using hargs))) fun args hargs => ?_
    refine .bind (returnType?_yields hg _) fun output houtput => ?_
    refine .bind (whereClause?_yields hg) fun where_ hwhere => .pure (.node trivial ?_)
    simp [hconst, hasync, hsafety, habi, hkeyword, hname.1, hparams, hargs, houtput, hwhere]
  refine .ite (fun _ => .bind (kw_yields _) fun _ _ => ?_) fun _ => .bind (kw?_yields _) hnext
  exact .pure_bind (hnext _ LeafRule.local_none)

/-! ### Fields -/

theorem namedField_yields : R.Yields (namedField g) R.Local := by
  unfold namedField
  refine .bind (outerAttributes_yields hg) fun attrs hattrs => .bind visibility?_yields fun vis hvis => ?_
  refine .bind .rest fun ts _ => ?_
  extract_lets anonymous next
  have hnext (name : Node) (hname : R.Local name) : R.Yields (next name) R.Local := by
    refine .bind (op_yields _) fun colon hcolon => .bind .rest fun start hstart => ?_
    have field (type : Node) (htype : R.Local type) :
        R.Local (.node .field [attrs, vis, name, colon, type]) :=
      .node trivial (by simp [hattrs, hvis, hname, hcolon, htype])
    refine .ite (fun _ => ?_) fun _ => .bind (hg.type _) fun type htype => .pure (field type htype)
    refine .bind anyWord_yields fun _ _ => .bind hg.fields fun _ _ => ?_
    exact .bind (verbatimSince_yields .typeVerbatim (fun _ => trivial) hstart) fun type htype =>
      .pure (field type htype)
  exact .ite (fun _ => .bind anyWord_yields hnext) fun _ =>
    .bind ident_yields fun name hname => hnext name hname.1

theorem unnamedField_yields : R.Yields (unnamedField g) R.Local := by
  refine .bind (outerAttributes_yields hg) fun attrs hattrs => .bind visibility?_yields fun vis hvis => ?_
  exact .bind (hg.type _) fun type htype => .pure (.node trivial (by simp [hattrs, hvis, htype]))

theorem namedFields_yields : R.Yields (namedFields g) R.Local :=
  .bind (groupNode_yields _ (.bind (terminated_yields (namedField_yields hg) _) fun _ hlist =>
    .pure (by simpa using hlist))) fun _ hfields => .pure (.node trivial (by simpa using hfields))

theorem unnamedFields_yields : R.Yields (unnamedFields g) R.Local :=
  .bind (groupNode_yields _ (.bind (terminated_yields (unnamedField_yields hg) _) fun _ hlist =>
    .pure (by simpa using hlist))) fun _ hfields => .pure (.node trivial (by simpa using hfields))

theorem enumVariant_yields : R.Yields (enumVariant g) R.Local := by
  unfold enumVariant
  refine .bind (outerAttributes_yields hg) fun attrs hattrs => .bind visibility?_yields fun _ _ => ?_
  refine .bind ident_yields fun name hname => .bind .rest fun ts _ => ?_
  extract_lets next
  have hnext (fields : Node) (hfields : R.Local fields) : R.Yields (next fields) R.Local := by
    refine .bind .rest fun ts _ => ?_
    extract_lets last
    have hlast (value : Node) (hvalue : R.Local value) : R.Yields (last value) R.Local :=
      .pure (.node trivial (by simp [hattrs, hname.1, hfields, hvalue]))
    refine .ite (fun _ => ?_) fun _ => .pure_bind (hlast _ LeafRule.local_none)
    refine .bind (op_yields _) fun eq heq => .bind (hg.expr _) fun value hvalue => ?_
    exact .pure_bind (hlast _ (.node trivial (by simp [heq, hvalue])))
  refine .ite (fun _ => .bind (namedFields_yields hg) hnext) fun _ => ?_
  refine .ite (fun _ => .bind (unnamedFields_yields hg) hnext) fun _ => ?_
  exact .pure_bind (hnext _ LeafRule.local_none)

/-! ### Type members -/

theorem typeDecl_yields (place : ClausePlace) :
    R.Yields (typeDecl g place) fun parts => ∀ n ∈ parts, R.Local n := by
  unfold typeDecl
  refine .bind (kw_yields _) fun keyword hkeyword => .bind ident_yields fun name hname => ?_
  refine .bind (generics?_yields hg) fun params hparams => .bind .rest fun ts _ => ?_
  extract_lets next
  have hnext (bounds : Node) (hbounds : R.Local bounds) :
      R.Yields (next bounds) fun parts => ∀ n ∈ parts, R.Local n := by
    unfold next
    extract_lets defined
    have hdefined (before : Node) (hbefore : R.Local before) :
        R.Yields (defined before) fun parts => ∀ n ∈ parts, R.Local n := by
      refine .bind .rest fun ts _ => ?_
      extract_lets ended
      have hended (default : Node) (hdefault : R.Local default) :
          R.Yields (ended default) fun parts => ∀ n ∈ parts, R.Local n := by
        unfold ended
        extract_lets last
        have hlast (after : Node) (hafter : R.Local after) :
            R.Yields (last after) fun parts => ∀ n ∈ parts, R.Local n := by
          refine .bind (op_yields _) fun semi hsemi => .pure ?_
          simp [hkeyword, hname.1, hparams, hbounds, hbefore, hdefault, hafter, hsemi]
        exact .ite (fun _ => .bind (whereClause?_yields hg) hlast) fun _ =>
          .pure_bind (hlast _ LeafRule.local_none)
      refine .ite (fun _ => ?_) fun _ => .pure_bind (hended _ LeafRule.local_none)
      refine .bind (op_yields _) fun eq heq => .bind (hg.type _) fun type htype => ?_
      exact .pure_bind (hended _ (.node trivial (by simp [heq, htype])))
    exact .ite (fun _ => .pure_bind (hdefined _ LeafRule.local_none)) fun _ =>
      .bind (whereClause?_yields hg) hdefined
  refine .ite (fun _ => ?_) fun _ => .pure_bind (hnext _ LeafRule.local_none)
  refine .bind (op_yields _) fun colon hcolon => .bind (boundsUntil_yields hg _) fun list hlist => ?_
  exact .pure_bind (hnext _ (.node trivial (by simp [hcolon, hlist])))

/-! ### Constants -/

theorem constDecl_yields (needsValue : Bool) :
    R.Yields (constDecl g needsValue) fun decl => ∀ parts ∈ decl, ∀ n ∈ parts, R.Local n := by
  unfold constDecl
  refine .bind (kw_yields _) fun keyword hkeyword => .bind (identOr_yields _) fun name hname => ?_
  refine .bind (generics?_yields hg) fun params hparams => .bind (op_yields _) fun colon hcolon => ?_
  refine .bind (hg.type _) fun type htype => .bind .rest fun ts _ => ?_
  extract_lets next
  have hnext (value : Node) (hvalue : R.Local value) :
      R.Yields (next value) fun decl => ∀ parts ∈ decl, ∀ n ∈ parts, R.Local n := by
    refine .bind (whereClause?_yields hg) fun where_ _ => .bind (op_yields _) fun semi hsemi => ?_
    refine .ite (fun _ => .pure (by simp)) fun _ => .pure ?_
    simp [hkeyword, hname.1, hcolon, htype, hvalue, hsemi]
  refine .ite (fun _ => ?_) fun _ => .pure_bind (hnext _ LeafRule.local_none)
  refine .bind (op_yields _) fun eq heq => .bind (hg.expr _) fun value hvalue => ?_
  exact .pure_bind (hnext _ (.node trivial (by simp [heq, hvalue])))

/-! ### Macro calls as members -/

omit hg in
theorem memberMac_yields {attrs : Node} (hattrs : R.Local attrs) :
    R.Yields (memberMac attrs) R.Local := by
  unfold memberMac
  refine .bind modPath_yields fun path hpath => .bind (op_yields _) fun bang hbang => ?_
  refine .bind anyGroup_yields fun found hfound => ?_
  split
  extract_lets next
  have hnext (semi : Node) (hsemi : R.Local semi) : R.Yields (next semi) R.Local :=
    .pure (.node trivial (by simp [hattrs, hpath, hbang, hfound, hsemi]))
  exact .ite (fun _ => .pure_bind (hnext _ LeafRule.local_none)) fun _ => .bind (op_yields _) hnext

/-! ### Members of traits -/

theorem traitMember_yields : R.Yields (traitMember g) R.Local := by
  unfold traitMember
  refine .bind .rest fun start hstart => .bind (outerAttributes_yields hg) fun attrs hattrs => ?_
  refine .bind visibility?_yields fun vis _ => .bind (kw?_yields _) fun default _ => ?_
  extract_lets plain next
  have verbatim : R.Yields (verbatimSince .itemVerbatim start) R.Local :=
    verbatimSince_yields .itemVerbatim (fun _ => trivial) hstart
  have hnext (member : Node) (hmember : R.Local member) : R.Yields (next member) R.Local :=
    .ite (fun _ => .pure hmember) fun _ => verbatim
  refine .bind .rest fun ts _ => .ite (fun _ => ?_) fun _ => .ite (fun _ => ?_) fun _ => ?_
  · refine .bind (signature_yields hg _) fun sig hsig => .bind .rest fun ts _ => ?_
    refine .ite (fun _ => .bind (op_yields _) fun semi hsemi => ?_) fun _ =>
      .bind (hg.block _) fun body hbody => ?_
    · exact .pure_bind (hnext _ (.node trivial (by simp [hattrs, hsig, LeafRule.local_none, hsemi])))
    · exact .pure_bind (hnext _ (.node trivial (by simp [hattrs, hsig, hbody, LeafRule.local_none])))
  · refine .bind (constDecl_yields hg _) fun decl hdecl => ?_
    split
    · exact .pure_bind (hnext _ (.node trivial (List.forall_mem_cons.2 ⟨hattrs, hdecl _ rfl⟩)))
    · exact .bind verbatim hnext
  refine .ite (fun _ => .bind (typeDecl_yields hg _) fun parts hparts => ?_) fun _ => ?_
  · split
    · simp only [List.forall_mem_cons] at hparts
      exact .pure_bind (hnext _ (.node trivial (by simp [hattrs, hparts])))
    · exact .failure_bind
  · exact .ite (fun _ => .bind (memberMac_yields hattrs) hnext) fun _ => .failure_bind

/-! ### Members of implementations -/

theorem implMember_yields : R.Yields (implMember g) R.Local := by
  unfold implMember
  refine .bind .rest fun start hstart => .bind (outerAttributes_yields hg) fun attrs hattrs => ?_
  refine .bind visibility?_yields fun vis hvis => .bind .rest fun ts _ => ?_
  have verbatim : R.Yields (verbatimSince .itemVerbatim start) R.Local :=
    verbatimSince_yields .itemVerbatim (fun _ => trivial) hstart
  extract_lets next
  have hnext (default : Node) (hdefault : R.Local default) : R.Yields (next default) R.Local := by
    refine .bind .rest fun ts _ => .ite (fun _ => ?_) fun _ => .ite (fun _ => ?_) fun _ => ?_
    · refine .bind (signature_yields hg _) fun sig hsig => .bind .rest fun ts _ => ?_
      refine .ite (fun _ => .bind (op_yields _) fun _ _ => verbatim) fun _ => ?_
      refine .bind (hg.block _) fun body hbody => .pure (.node trivial ?_)
      simp [hattrs, hvis, hdefault, hsig, hbody]
    · refine .bind (constDecl_yields hg _) fun decl hdecl => ?_
      split
      · refine .pure (.node trivial ?_)
        simpa [hattrs, hvis, hdefault] using hdecl
      · exact verbatim
    refine .ite (fun _ => .bind (typeDecl_yields hg _) fun parts hparts => ?_) fun _ => ?_
    · split
      · simp only [List.forall_mem_cons] at hparts
        refine .ite (fun _ => verbatim) fun _ => .pure (.node trivial ?_)
        simp [hattrs, hvis, hdefault, hparts]
      · exact .failure
    · exact .ite (fun _ => memberMac_yields hattrs) fun _ => .failure
  exact .ite (fun _ => .bind (kw_yields _) hnext) fun _ => .pure_bind (hnext _ LeafRule.local_none)

/-! ### Members of foreign blocks -/

theorem foreignMember_yields : R.Yields (foreignMember g) R.Local := by
  unfold foreignMember
  refine .bind .rest fun start hstart => .bind (outerAttributes_yields hg) fun attrs hattrs => ?_
  refine .bind visibility?_yields fun vis hvis => .bind .rest fun ts _ => ?_
  have verbatim : R.Yields (verbatimSince .itemVerbatim start) R.Local :=
    verbatimSince_yields .itemVerbatim (fun _ => trivial) hstart
  refine .ite (fun _ => ?_) fun _ => .ite (fun _ => ?_) fun _ => .ite (fun _ => ?_) fun _ => ?_
  · refine .bind (signature_yields hg _) fun sig hsig => .bind .rest fun ts _ => ?_
    refine .ite (fun _ => .bind (hg.block _) fun _ _ => verbatim) fun _ => ?_
    refine .bind (op_yields _) fun semi hsemi => .ite (fun _ => verbatim) fun _ => ?_
    exact .pure (.node trivial (by simp [hattrs, hvis, hsig, hsemi]))
  · extract_lets qualified next
    have hnext : R.Yields (next ()) R.Local := by
      refine .bind (kw_yields _) fun keyword hkeyword => .bind (kw?_yields _) fun mutable hmutable => ?_
      refine .bind ident_yields fun name hname => .bind (op_yields _) fun colon hcolon => ?_
      refine .bind (hg.type _) fun type htype => .bind .rest fun ts _ => ?_
      extract_lets hasValue last
      have hlast : R.Yields (last ()) R.Local := by
        refine .bind (op_yields _) fun semi hsemi => .ite (fun _ => verbatim) fun _ => ?_
        refine .pure (.node trivial ?_)
        simp [hattrs, hvis, hkeyword, hmutable, hname.1, hcolon, htype, hsemi]
      refine .ite (fun _ => .bind (op_yields _) fun _ _ => ?_) fun _ => hlast
      exact .bind (hg.expr _) fun _ _ => hlast
    exact .ite (fun _ => .bind anyWord_yields fun _ _ => hnext) fun _ => hnext
  · refine .bind (typeDecl_yields hg _) fun parts hparts => ?_
    split
    · simp only [List.forall_mem_cons] at hparts
      refine .ite (fun _ => verbatim) fun _ => .pure (.node trivial ?_)
      split <;> simp [hattrs, hvis, hparts]
    · exact .failure
  · exact .ite (fun _ => memberMac_yields hattrs) fun _ => .failure

/-! ### Use trees -/

omit hg in
theorem rename_yields : R.Yields rename R.Local := by
  refine .bind (kw_yields _) fun keyword hkeyword => .bind (identOr_yields _) fun name hname => ?_
  exact .pure (.node trivial (by simp [hkeyword, hname.1]))

theorem useTree_yields (allowRoot : Bool) : R.Yields (useTree g allowRoot) fun n =>
    R.Local n ∧ (n.IsUseTree ∨ allowRoot = true ∧ n.isNone = true) := by
  refine .rest_bind fun ts hts => .ite (fun hat => ?_) fun _ => .ite (fun _ => ?_) fun _ => ?_
  · have hword : (atIdent ts || ["super", "self", "crate", "try"].any (atWord · ts)) = true := by
      simp only [atPathWord, List.any_cons, List.any_nil, Bool.or_false, Bool.or_eq_true,
        Bool.and_eq_true, Bool.not_eq_true'] at hat ⊢
      rcases hat with (h | ⟨h, hSelf⟩) | h
      · exact .inl h
      · simp only [hSelf] at h
        tauto
      · tauto
    refine (anyWord_yields_at hts hword).bind fun name ⟨hname, hkey⟩ => .bind .rest fun ts _ => ?_
    refine .ite (fun _ => ?_) fun _ => .ite (fun _ => ?_) fun _ => ?_
    · refine .bind (op_yields _) fun colons hcolons => ?_
      refine .bind (hg.useTree _) fun tree htree => .pure ⟨.node trivial ?_, .inl (.path hkey ?_)⟩
      · simp [hname, hcolons, htree.1]
      · simpa using htree.2
    · refine .bind (kw_yields _) fun keyword hkeyword => ?_
      refine .bind (identOr_yields _) fun bound hbound => .pure ⟨.node trivial ?_, ?_⟩
      · simp [hname, hkeyword, hbound.1]
      · exact .inl (.rename hkey hbound.2)
    · exact .pure ⟨.node trivial (by simpa using hname), .inl (.name hkey)⟩
  · refine LeafRule.Yields.bind (op_yields _) (fun star hstar => .pure ?_) _ hts
    exact ⟨.node trivial (by simpa using hstar), .inl .glob⟩
  refine .ite (fun _ => ?_) fun _ => .failure
  extract_lets step
  have hstep (state : List Node × Bool) (hstate : UseTrees R allowRoot state) :
      R.Yields (step state) (Sum.elim (UseTrees R allowRoot) (UseTrees R allowRoot)) := by
    obtain ⟨acc, rooted⟩ := state
    refine .bind .rest fun ts _ => .ite (fun _ => .pure hstate) fun _ => ?_
    extract_lets next
    have hnext (root : Node) (hroot : root.isSome = true → allowRoot = true) :
        R.Yields (next root) (Sum.elim (UseTrees R allowRoot) (UseTrees R allowRoot)) := by
      refine .bind (hg.useTree _) fun tree ⟨htree, hshape⟩ => .bind .rest fun ts _ => ?_
      have hstate : UseTrees R allowRoot (tree :: acc, rooted || root.isSome || tree.isNone) := by
        refine ⟨List.forall_mem_cons.2 ⟨htree, hstate.isLocal⟩, fun h => ?_, fun h => ?_⟩
        · simp only [Bool.or_eq_false_iff] at h
          refine List.forall_mem_cons.2 ⟨fun _ => ?_, hstate.isUseTree h.1.1⟩
          exact hshape.resolve_right fun hnone => by simp [h.2] at hnone
        · simp only [Bool.or_eq_true_iff] at h
          rcases h with (h | h) | h
          · exact hstate.rooted h
          · exact hroot h
          · rcases hshape with hshape | hshape
            · rw [hshape.isNone_eq] at h
              cases h
            · exact (Bool.and_eq_true_iff.1 hshape.1).1
      refine .ite (fun _ => .pure hstate) fun _ => ?_
      refine .bind (separator_yields _) fun comma hcomma => .pure ⟨?_, fun h => ?_, hstate.rooted⟩
      · exact List.forall_mem_cons.2 ⟨hcomma.1, hstate.isLocal⟩
      · refine List.forall_mem_cons.2 ⟨fun hop => ?_, hstate.isUseTree h⟩
        rw [hcomma.2] at hop
        cases hop
    refine .ite (fun hallow => .bind (op?_yields _) fun root _ => hnext root fun _ => hallow) fun _ => ?_
    exact .pure_bind (hnext _ fun h => by cases h)
  have hstart : UseTrees R allowRoot ([], false) := ⟨by simp, by simp, by simp⟩
  refine (group_yields _ (.loop (UseTrees R allowRoot) hstart hstep) ts hts).bind
    fun ⟨acc, rooted⟩ hstate => .ite (fun h => ?_) fun h => .pure ⟨.node trivial ?_, .inl (.group ?_)⟩
  · exact .pure ⟨LeafRule.local_none, .inr ⟨hstate.rooted h, rfl⟩⟩
  · simp [LeafRule.local_group (LeafRule.local_separated hstate.isLocal)]
  · exact fun n hn => hstate.isUseTree (by simpa using h) n (List.mem_reverse.1 hn)

/-! ### The items -/

section Items

variable {start : List Token} (hstart : R.tokens start) {attrs vis : Node} (hattrs : R.Local attrs)
  (hvis : R.Local vis)

omit hg in
include hstart in
/-- An item that is kept as mere tokens. -/
theorem itemVerbatim_yields : R.Yields (verbatimSince .itemVerbatim start) R.Local :=
  verbatimSince_yields .itemVerbatim (fun _ => trivial) hstart

include hstart hattrs hvis in
theorem useItem_yields : R.Yields (useItem g start attrs vis) R.Local := by
  refine .bind (kw_yields _) fun keyword hkeyword => .bind (op?_yields _) fun lead hlead => ?_
  refine .bind (hg.useTree _) fun tree htree => .bind (op_yields _) fun semi hsemi => ?_
  refine .ite (fun _ => itemVerbatim_yields hstart) fun hsome => .pure (.node ?_ ?_)
  · exact htree.2.resolve_right fun h => hsome h.2
  · simp [hattrs, hvis, hkeyword, hlead, htree.1, hsemi]

include hstart hattrs hvis in
theorem staticItem_yields : R.Yields (staticItem g start attrs vis) R.Local := by
  refine .bind (kw_yields _) fun keyword hkeyword => .bind (kw?_yields _) fun mutable hmutable => ?_
  refine .bind ident_yields fun name hname => .bind .rest fun ts _ => .ite (fun _ => ?_) fun _ => ?_
  · refine .bind (op_yields _) fun _ _ => .bind (hg.expr _) fun _ _ => ?_
    exact .bind (op_yields _) fun _ _ => itemVerbatim_yields hstart
  refine .bind (op_yields _) fun colon hcolon => .bind (hg.type _) fun type htype => ?_
  refine .bind .rest fun ts _ => .ite (fun _ => ?_) fun _ => ?_
  · exact .bind (op_yields _) fun _ _ => itemVerbatim_yields hstart
  refine .bind (op_yields _) fun eq heq => .bind (hg.expr _) fun value hvalue => ?_
  refine .bind (op_yields _) fun semi hsemi => .pure (.node trivial ?_)
  simp [hattrs, hvis, hkeyword, hmutable, hname.1, hcolon, htype, heq, hvalue, hsemi]

include hstart hattrs hvis in
theorem constItem_yields : R.Yields (constItem g start attrs vis) R.Local := by
  refine .bind (constDecl_yields hg _) fun decl hdecl => ?_
  split
  · have hparts := hdecl _ rfl
    simp only [List.forall_mem_cons] at hparts
    have hvalue := hparts.2.2.2.2.1.children rfl
    simp only [Node.children, List.forall_mem_cons] at hvalue
    exact .pure (.node trivial (by simp [hattrs, hvis, hparts, hvalue]))
  · exact itemVerbatim_yields hstart

include hstart hattrs hvis in
theorem fnItem_yields : R.Yields (fnItem g start attrs vis) R.Local := by
  refine .bind (signature_yields hg _) fun sig hsig => .bind .rest fun ts _ => ?_
  refine .ite (fun _ => .bind (op_yields _) fun _ _ => itemVerbatim_yields hstart) fun _ => ?_
  refine .bind (hg.block _) fun body hbody => .pure (.node trivial ?_)
  simp [hattrs, hvis, hsig, hbody]

omit hg in
include hattrs hvis in
theorem externCrateItem_yields : R.Yields (externCrateItem attrs vis) R.Local := by
  unfold externCrateItem
  refine .bind (kw_yields _) fun keyword hkeyword => .bind (kw_yields _) fun crate hcrate => ?_
  refine .bind (identOr_yields _) fun name hname => .bind .rest fun ts _ => ?_
  extract_lets next
  have hnext (asName : Node) (hasName : R.Local asName) : R.Yields (next asName) R.Local := by
    refine .bind (op_yields _) fun semi hsemi => .pure (.node trivial ?_)
    simp [hattrs, hvis, hkeyword, hcrate, hname.1, hasName, hsemi]
  exact .ite (fun _ => .bind rename_yields hnext) fun _ => .pure_bind (hnext _ LeafRule.local_none)

include hattrs in
theorem foreignItem_yields : R.Yields (foreignItem g attrs) R.Local := by
  refine .bind (kw?_yields _) fun safety hsafety => .bind .rest fun ts _ => ?_
  refine .ite (fun _ => .bind abi?_yields fun abi habi => ?_) fun _ => .failure
  refine .bind (body_yields hg (foreignMember_yields hg)) fun members hmembers => ?_
  exact .pure (.node trivial (by simp [hattrs, hsafety, habi, hmembers]))

include hattrs hvis in
theorem modItem_yields : R.Yields (modItem g attrs vis) R.Items := by
  unfold modItem
  refine .bind (kw?_yields _) fun safety hsafety => .bind (kw_yields _) fun keyword hkeyword => ?_
  refine .bind (identOr_yields _) fun name hname => .bind .rest fun ts _ => ?_
  extract_lets next
  have hnext (content : Node) (hcontent : R.Items content) : R.Yields (next content) R.Items := by
    refine .pure (.node (.inl rfl) hname.2 ?_)
    simp [LeafRule.Items.isLocal, hattrs, hvis, hsafety, hkeyword, hname.1, hcontent]
  refine .ite (fun _ => .bind (op_yields _) fun semi hsemi => hnext semi (.isLocal hsemi)) fun _ => ?_
  refine .bind (body_parts_yields hg hg.item) fun _ ⟨inner, members, heq, hinner, hmembers⟩ => ?_
  refine heq ▸ hnext _ (.group ?_)
  simp [LeafRule.Items.isLocal hinner, LeafRule.items_list hmembers]

include hstart hattrs hvis in
theorem typeItem_yields : R.Yields (typeItem g start attrs vis) R.Local := by
  refine .bind (typeDecl_yields hg _) fun parts hparts => ?_
  split
  · simp only [List.forall_mem_cons] at hparts
    have hdefinition := hparts.2.2.2.2.2.1.children rfl
    simp only [Node.children, List.forall_mem_cons] at hdefinition
    refine .ite (fun _ => itemVerbatim_yields hstart) fun _ => .pure (.node trivial ?_)
    simp [hattrs, hvis, hparts, hdefinition]
  · exact itemVerbatim_yields hstart

include hattrs hvis in
theorem structItem_yields : R.Yields (structItem g attrs vis) R.Items := by
  refine .bind (kw_yields _) fun keyword hkeyword => .bind ident_yields fun name hname => ?_
  refine .bind (generics?_yields hg) fun params hparams => ?_
  refine .bind (whereClause?_yields hg) fun before hbefore => .bind .rest fun ts _ => ?_
  have whole {tail : List Node} (h : ∀ n ∈ tail, R.Local n) :
      R.Items (.node .itemStruct ([attrs, vis, keyword, name, params, before] ++ tail)) := by
    refine .type (.inl rfl) hname.2 (List.forall_mem_append.2 ⟨?_, h⟩)
    simp [hattrs, hvis, hkeyword, hname.1, hparams, hbefore]
  refine .ite (fun _ => ?_) fun _ => .ite (fun _ => ?_) fun _ => ?_
  · refine .bind (unnamedFields_yields hg) fun fields hfields => ?_
    refine .bind (whereClause?_yields hg) fun after hafter => ?_
    exact .bind (op_yields _) fun semi hsemi => .pure (whole (by simp [hfields, hafter, hsemi]))
  · refine .bind (namedFields_yields hg) fun fields hfields => .pure (whole ?_)
    simp [hfields, LeafRule.local_none]
  · refine .bind (op_yields _) fun semi hsemi => .pure (whole ?_)
    simp [hsemi, LeafRule.local_none]

include hattrs hvis in
theorem enumItem_yields : R.Yields (enumItem g attrs vis) R.Items := by
  refine .bind (kw_yields _) fun keyword hkeyword => .bind ident_yields fun name hname => ?_
  refine .bind (generics?_yields hg) fun params hparams => ?_
  refine .bind (whereClause?_yields hg) fun where_ hwhere => ?_
  refine .bind (groupNode_yields _ (.bind (terminated_yields (enumVariant_yields hg) _)
    fun list hlist => .pure (by simpa using hlist))) fun variants hvariants => ?_
  refine .pure (.type (.inr rfl) hname.2 ?_)
  simp [hattrs, hvis, hkeyword, hname.1, hparams, hwhere, hvariants]

include hattrs hvis in
theorem unionItem_yields : R.Yields (unionItem g attrs vis) R.Local := by
  refine .bind (kw_yields _) fun keyword hkeyword => .bind ident_yields fun name hname => ?_
  refine .bind (generics?_yields hg) fun params hparams => ?_
  refine .bind (whereClause?_yields hg) fun where_ hwhere => ?_
  refine .bind (namedFields_yields hg) fun fields hfields => .pure (.node trivial ?_)
  simp [hattrs, hvis, hkeyword, hname.1, hparams, hwhere, hfields]

include hattrs hvis in
theorem traitItem_yields (allowAlias : Bool) : R.Yields (traitItem g allowAlias attrs vis) R.Local := by
  unfold traitItem
  refine .bind (kw?_yields _) fun safety hsafety => .bind (kw?_yields _) fun auto hauto => ?_
  refine .bind (kw_yields _) fun keyword hkeyword => .bind ident_yields fun name hname => ?_
  refine .bind (generics?_yields hg) fun params hparams => .bind .rest fun ts _ => ?_
  refine .ite (fun _ => ?_) fun _ => .bind .rest fun ts _ => ?_
  · refine .bind (op_yields _) fun eq heq => .bind (boundsUntil_yields hg _) fun bounds hbounds => ?_
    refine .bind (whereClause?_yields hg) fun where_ hwhere => ?_
    refine .bind (op_yields _) fun semi hsemi => .pure (.node trivial ?_)
    simp [hattrs, hvis, hkeyword, hname.1, hparams, heq, hbounds, hwhere, hsemi]
  extract_lets next
  have hnext (supertraits : Node) (hsupertraits : R.Local supertraits) :
      R.Yields (next supertraits) R.Local := by
    refine .bind (whereClause?_yields hg) fun where_ hwhere => ?_
    refine .bind (body_yields hg (traitMember_yields hg)) fun members hmembers => ?_
    refine .pure (.node trivial ?_)
    simp [hattrs, hvis, hsafety, hauto, hkeyword, hname.1, hparams, hsupertraits, hwhere, hmembers]
  refine .ite (fun _ => ?_) fun _ => .pure_bind (hnext _ LeafRule.local_none)
  refine .bind (op_yields _) fun colon hcolon => .bind (boundsUntil_yields hg _) fun list hlist => ?_
  exact .pure_bind (hnext _ (.node trivial (by simp [hcolon, hlist])))

include hstart hattrs in
theorem implItem_yields : R.Yields (implItem g start attrs vis) R.Local := by
  unfold implItem
  refine .bind (kw?_yields _) fun default hdefault => .bind (kw?_yields _) fun safety hsafety => ?_
  refine .bind (kw_yields _) fun keyword hkeyword => .bind .rest fun ts _ => ?_
  extract_lets next
  have hnext (params : Node) (hparams : R.Local params) : R.Yields (next params) R.Local := by
    refine .bind .rest fun ts _ => ?_
    extract_lets isConst named signed
    have hnamed (negation : Node) (hnegation : R.Local negation) :
        R.Yields (named negation) R.Local := by
      refine .bind (hg.type _) fun first hfirst => .bind .rest fun ts _ => ?_
      extract_lets isFor last
      have hlast (head : Node × Node) (h : R.Local head.1 ∧ R.Local head.2) :
          R.Yields (last head) R.Local := by
        refine .bind (whereClause?_yields hg) fun where_ hwhere => ?_
        refine .bind (body_yields hg (implMember_yields hg)) fun content hcontent => ?_
        refine .ite (fun _ => itemVerbatim_yields hstart) fun _ => .pure (.node trivial ?_)
        simp [hattrs, hdefault, hsafety, hkeyword, hparams, h, hwhere, hcontent]
      refine .ite (fun _ => ?_) fun _ => .ite (fun _ => .failure_bind) fun _ => ?_
      · refine .bind (kw_yields _) fun keyword hkeyword => .bind (hg.type _) fun target htarget => ?_
        have hother := hlast (.none, target) ⟨LeafRule.local_none, htarget⟩
        split
        · rename_i path
          have hpath : R.Local path := hfirst.part rfl 0
          refine .ite (fun _ => .pure_bind (hlast _ ⟨.node trivial ?_, htarget⟩)) fun _ =>
            .pure_bind hother
          simp [hnegation, hpath, hkeyword]
        · exact .pure_bind hother
      · exact .pure_bind (hlast _ ⟨LeafRule.local_none, hfirst⟩)
    have hsigned : R.Yields (signed ()) R.Local :=
      .bind .rest fun ts _ => .ite (fun _ => .bind (op_yields _) hnamed) fun _ =>
        .pure_bind (hnamed _ LeafRule.local_none)
    refine .ite (fun _ => .bind (op?_yields _) fun _ _ => ?_) fun _ => hsigned
    exact .bind (kw_yields _) fun _ _ => hsigned
  exact .ite (fun _ => .bind (generics?_yields hg) hnext) fun _ =>
    .pure_bind (hnext _ LeafRule.local_none)

omit hg in
include hstart in
theorem macDecl_yields : R.Yields (macDecl start) R.Local := by
  unfold macDecl
  refine .bind (kw_yields _) fun _ _ => .bind ident_yields fun _ _ => .bind .rest fun ts _ => ?_
  extract_lets next
  have hnext : R.Yields (next ()) R.Local := by
    refine .bind anyGroup_yields fun found _ => ?_
    exact .ite (fun _ => itemVerbatim_yields hstart) fun _ => .failure
  exact .ite (fun _ => .bind anyGroup_yields fun _ _ => hnext) fun _ => hnext

omit hg in
include hattrs in
theorem macItem_yields : R.Yields (macItem attrs) R.Local := by
  unfold macItem
  refine .bind modPath_yields fun path hpath => .bind (op_yields _) fun bang hbang => ?_
  refine .bind .rest fun ts _ => ?_
  extract_lets next
  have hnext (name : Node) (hname : R.Local name) : R.Yields (next name) R.Local := by
    refine .bind anyGroup_yields fun found hfound => ?_
    split
    extract_lets last
    have hlast (semi : Node) (hsemi : R.Local semi) : R.Yields (last semi) R.Local :=
      .pure (.node trivial (by simp [hattrs, hpath, hbang, hname, hfound, hsemi]))
    exact .ite (fun _ => .pure_bind (hlast _ LeafRule.local_none)) fun _ => .bind (op_yields _) hlast
  exact .ite (fun _ => .bind anyWord_yields hnext) fun _ => .pure_bind (hnext _ LeafRule.local_none)

include hstart hattrs in
theorem itemAfter_yields : R.Yields (itemAfter g start attrs) R.Items := by
  refine .bind visibility?_yields fun vis hvis => .bind .rest fun ts _ => ?_
  -- all items but types and modules are local
  have whole {p : Parser Node} (hp : R.Yields p R.Local) : R.Yields p R.Items := hp.mono fun _ => .isLocal
  have foreign := whole (foreignItem_yields hg hattrs)
  have trait_ (allowAlias : Bool) := whole (traitItem_yields hg hattrs hvis allowAlias)
  have impl_ : R.Yields (implItem g start attrs vis) R.Items :=
    whole (implItem_yields hg hstart hattrs)
  have module_ := modItem_yields hg hattrs hvis
  refine .ite (fun _ => whole (fnItem_yields hg hstart hattrs hvis)) fun _ => ?_
  refine .ite (fun _ => .ite (fun _ => whole (externCrateItem_yields hattrs hvis)) fun _ =>
    .ite (fun _ => .failure) fun _ => foreign) fun _ => ?_
  refine .ite (fun _ => whole (useItem_yields hg hstart hattrs hvis)) fun _ => ?_
  refine .ite (fun _ => whole (staticItem_yields hg hstart hattrs hvis)) fun _ => ?_
  refine .ite (fun _ => whole (constItem_yields hg hstart hattrs hvis)) fun _ => ?_
  refine .ite (fun _ => .ite (fun _ => trait_ _) fun _ => .ite (fun _ => impl_) fun _ => ?_) fun _ => ?_
  · exact .ite (fun _ => .ite (fun _ => .failure) fun _ => foreign) fun _ =>
      .ite (fun _ => module_) fun _ => .failure
  refine .ite (fun _ => module_) fun _ => ?_
  refine .ite (fun _ => whole (typeItem_yields hg hstart hattrs hvis)) fun _ => ?_
  refine .ite (fun _ => structItem_yields hg hattrs hvis) fun _ => ?_
  refine .ite (fun _ => enumItem_yields hg hattrs hvis) fun _ => ?_
  refine .ite (fun _ => whole (unionItem_yields hg hattrs hvis)) fun _ => ?_
  refine .ite (fun _ => trait_ _) fun _ => .ite (fun _ => trait_ _) fun _ => ?_
  refine .ite (fun _ => impl_) fun _ => .ite (fun _ => whole (macDecl_yields hstart)) fun _ => ?_
  exact .ite (fun _ => whole (macItem_yields hattrs)) fun _ => .failure

end Items

theorem item_yields : R.Yields (item g) R.Items :=
  .bind .rest fun _ hstart => .bind (outerAttributes_yields hg) fun _ hattrs =>
    itemAfter_yields hg hstart hattrs

end Grammar

end Scaffold.Syntax.Parser
