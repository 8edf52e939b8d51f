import Scaffold.Proofs.Syntax.Formed

/-!
# Paths and attributes are well formed

A path is a sequence of segments, at least one, and a segment begins with a word that may name
something.  `LeafRule.Segments` is what the loops that read a path keep.
-/

namespace Scaffold.Syntax

open Scaffold.Syntax.Parser

/-- The parts of a path that has begun: segments and what separates them. -/
structure LeafRule.Segments (R : LeafRule) (parts : List Node) : Prop where
  isLocal : ∀ n ∈ parts, R.Local n
  isSegment : ∀ n ∈ parts, n.isOp = false → n.isNamedSegment = true
  nonempty : parts.filter (!·.isOp) ≠ []

namespace LeafRule.Segments

variable {R : LeafRule} {parts : List Node} {n : Node}

theorem single (hn : R.Local n ∧ n.isNamedSegment = true) : R.Segments [n] where
  isLocal := by simpa using hn.1
  isSegment := by simpa using fun _ => hn.2
  nonempty := by cases n <;> simp_all [Node.isNamedSegment, Node.isOp]

theorem separate (h : R.Segments parts) (hn : R.Local n ∧ n.isOp = true) :
    R.Segments (n :: parts) where
  isLocal := List.forall_mem_cons.2 ⟨hn.1, h.isLocal⟩
  isSegment := List.forall_mem_cons.2 ⟨fun h => by simp [hn.2] at h, h.isSegment⟩
  nonempty := by simpa [List.filter_cons, hn.2] using h.nonempty

theorem cons (h : R.Segments parts) (hn : R.Local n ∧ n.isNamedSegment = true) :
    R.Segments (n :: parts) where
  isLocal := List.forall_mem_cons.2 ⟨hn.1, h.isLocal⟩
  isSegment := List.forall_mem_cons.2 ⟨fun _ => hn.2, h.isSegment⟩
  nonempty := by
    rw [List.filter_cons]
    split
    · exact List.cons_ne_nil _ _
    · exact h.nonempty

theorem reverse (h : R.Segments parts) : R.Segments parts.reverse where
  isLocal n hn := h.isLocal n (List.mem_reverse.1 hn)
  isSegment n hn := h.isSegment n (List.mem_reverse.1 hn)
  nonempty := by
    rw [List.filter_reverse]
    exact mt List.reverse_eq_nil_iff.1 h.nonempty

/-- Segments make a path. -/
theorem local_path (h : R.Segments parts) {lead : Node} (hlead : R.Local lead) :
    R.Local (.node .path [lead, .node .separated parts]) :=
  have hparts : R.Local (.node .separated parts) := .node trivial h.isLocal
  .node ⟨lead, parts, rfl, h.nonempty, h.isSegment⟩ (by simp [hlead, hparts])

/-- A path is made of segments. -/
theorem of_path {lead : Node} (h : R.Local (.node .path [lead, .node .separated parts])) :
    R.Local lead ∧ R.Segments parts := by
  cases h with
  | node hs hc =>
    obtain ⟨lead', parts', heq, hne, hsegment⟩ := hs
    obtain ⟨-, heq⟩ := List.cons.inj heq
    obtain ⟨-, rfl⟩ := Node.node.inj (List.cons.inj heq).1
    have hparts : R.Local (.node .separated parts) := hc _ (by simp)
    exact ⟨hc _ (by simp), hparts.children rfl, hsegment, hne⟩

end LeafRule.Segments

namespace Parser

variable {R : LeafRule}

/-! ### Paths without arguments -/

theorem bareSegment_local {word : Node} (h : R.Local word)
    (hword : word.isIdentOr segmentKeywords = true) :
    R.Local (bareSegment word) ∧ (bareSegment word).isNamedSegment = true :=
  ⟨.node trivial (by simp [h, LeafRule.local_none]), hword⟩

theorem wordPath_local {word : Node} (h : R.Local word)
    (hword : word.isIdentOr segmentKeywords = true) : R.Local (wordPath word) :=
  (LeafRule.Segments.single (bareSegment_local h hword)).local_path LeafRule.local_none

/-- More words may be allowed. -/
theorem isIdentOr_mono {n : Node} {also more : List String} (h : n.isIdentOr also = true)
    (hsub : also ⊆ more) : n.isIdentOr more = true := by
  cases n with
  | word raw name =>
    simp only [Node.isIdentOr, Bool.or_eq_true, List.contains_iff_mem] at h ⊢
    exact h.imp_right fun h => hsub h
  | _ => cases h

theorem modPath_yields : R.Yields modPath R.Local := by
  refine .bind (op?_yields _) fun lead hlead => ?_
  refine .bind (P := R.Segments) (.loop (fun acc => acc = [] ∨ R.Segments acc) (.inl rfl) ?_)
    fun parts hparts => .pure (hparts.reverse.local_path hlead)
  refine fun acc hacc => .rest_bind fun ts hts => .ite (fun hat => ?_) fun _ => .failure
  refine (anyWord_yields_at hts hat).bind fun word ⟨hword, hname⟩ => ?_
  have hsegment := bareSegment_local hword (isIdentOr_mono hname (by decide))
  have hparts : R.Segments (bareSegment word :: acc) := by
    rcases hacc with rfl | hacc
    · exact .single hsegment
    · exact hacc.cons hsegment
  refine .bind .rest fun ts _ => .ite (fun _ => ?_) fun _ => .pure hparts
  exact .bind (separator_yields _) fun colons hcolons => .pure (.inr (hparts.separate hcolons))

/-! ### Attributes -/

section Grammar

variable {g : Grammar} (hg : g.Sound R)

include hg

theorem attributeContent_yields : R.Yields (attributeContent g) R.Local := by
  unfold attributeContent
  refine .rest_bind fun ts hts => ?_
  extract_lets next
  have hnext (path : Node) (hpath : R.Local path) : R.Yields (next path) R.Local := by
    refine .bind .rest fun ts _ => .ite (fun _ => ?_) fun _ => .ite (fun _ => ?_) fun _ => ?_
    · exact .bind anyGroup_yields fun found hfound => .pure (.node trivial (by simp [hpath, hfound]))
    · refine .bind (op_yields _) fun eq heq => .bind .rest fun ts _ => ?_
      refine .ite (fun _ => .failure) fun _ => .bind (hg.expr _) fun value hvalue => ?_
      exact .pure (.node trivial (by simp [hpath, heq, hvalue]))
    · exact .pure (.node trivial (by simp [hpath]))
  refine .ite (fun hat => ?_) fun _ => (modPath_yields.bind hnext) ts hts
  have hword : (atIdent ts || ["unsafe"].any (atWord · ts)) = true := by simp [hat]
  refine (anyWord_yields_at hts hword).bind fun word hword => ?_
  have hpath := wordPath_local hword.1 (isIdentOr_mono hword.2 (by decide))
  exact .pure_bind (hnext _ hpath)

theorem outerAttribute_yields : R.Yields (outerAttribute g) R.Local := by
  refine .bind (op_yields _) fun mark hmark => ?_
  refine .bind (groupNode_yields _ (.bind (attributeContent_yields hg) fun content hcontent =>
    .pure (by simpa using hcontent))) fun content hcontent => ?_
  exact .pure (.node trivial (by simp [hmark, LeafRule.local_none, hcontent]))

theorem innerAttribute_yields : R.Yields (innerAttribute g) R.Local := by
  refine .bind (op_yields _) fun mark hmark => .bind (op_yields _) fun bang hbang => ?_
  refine .bind (groupNode_yields _ (.bind (attributeContent_yields hg) fun content hcontent =>
    .pure (by simpa using hcontent))) fun content hcontent => ?_
  exact .pure (.node trivial (by simp [hmark, hbang, hcontent]))

theorem outerAttributes_list_yields : R.Yields (outerAttributes g) fun n =>
    ∃ attrs, n = .list attrs ∧ ∀ a ∈ attrs, R.Local a :=
  .bind (manyWhile_yields (outerAttribute_yields hg) _) fun attrs h => .pure ⟨attrs, rfl, h⟩

theorem outerAttributes_yields : R.Yields (outerAttributes g) R.Local :=
  (outerAttributes_list_yields hg).mono fun _ ⟨_, heq, h⟩ => heq ▸ LeafRule.local_list h

theorem innerAttributes_yields : R.Yields (innerAttributes g) R.Local :=
  .bind (manyWhile_yields (innerAttribute_yields hg) _) fun _ h => .pure (LeafRule.local_list h)

omit hg in
theorem noAttributes_local : R.Local noAttributes := LeafRule.local_list (by simp)

/-! ### Generic arguments -/

theorem constArgument_yields : R.Yields (constArgument g) R.Local := by
  have arg {kind : Kind} {parts : List Node} (hkind : kind.PartShape (noAttributes :: parts))
      (h : ∀ n ∈ parts, R.Local n) :
      R.Local (.node .constArg [.node kind (noAttributes :: parts)]) := by
    have hexpr : R.Local (.node kind (noAttributes :: parts)) :=
      .node hkind (List.forall_mem_cons.2 ⟨noAttributes_local, h⟩)
    exact .node trivial (by simpa using hexpr)
  refine .bind .rest fun ts _ => .ite (fun _ => ?_) fun _ => .ite (fun _ => ?_) fun _ => ?_
  · exact .bind literal_yields fun n hn => .pure (arg trivial (by simpa using hn))
  · refine .bind ident_yields fun word hword => .pure (arg rfl ?_)
    simpa using wordPath_local hword.1 (isIdentOr_mono hword.2 (by decide))
  · refine .ite (fun _ => ?_) fun _ => .failure
    refine .bind (hg.block _) fun body hbody => .pure (arg trivial ?_)
    simp [LeafRule.local_none, hbody]

omit hg in
theorem singleSegment?_local {type word args : Node} (h : R.Local type)
    (hs : singleSegment? type = some (word, args)) : R.Local word ∧ R.Local args := by
  unfold singleSegment? at hs
  split at hs
  · obtain ⟨rfl, rfl⟩ := Prod.mk.inj (Option.some.inj (Option.ite_none_right_eq_some.1 hs).2)
    have hpath := h.part rfl 0
    have hsegment := (LeafRule.Segments.of_path hpath).2.isLocal _ (List.mem_singleton_self _)
    exact ⟨hsegment.part rfl 0, hsegment.part rfl 1⟩
  · cases hs

theorem genericArgument_yields : R.Yields (genericArgument g) R.Local := by
  refine .bind .rest fun ts _ => .ite (fun _ => lifetime_yields) fun _ => ?_
  refine .ite (fun _ => constArgument_yields hg) fun _ => .bind (hg.type _) fun type htype => ?_
  split
  · exact .pure htype
  rename_i word args hsingle
  obtain ⟨hword, hargs⟩ := singleSegment?_local htype hsingle
  refine .bind .rest fun ts _ => .ite (fun _ => ?_) fun _ => .ite (fun _ => ?_) fun _ => .pure htype
  · refine .bind (op_yields _) fun eq heq => .bind .rest fun ts _ => .ite (fun _ => ?_) fun _ => ?_
    · exact .bind (constArgument_yields hg) fun value hvalue =>
        .pure (.node trivial (by simp [hword, hargs, heq, hvalue]))
    · exact .bind (hg.type _) fun value hvalue =>
        .pure (.node trivial (by simp [hword, hargs, heq, hvalue]))
  · refine .bind (op_yields _) fun colon hcolon => ?_
    refine .bind (sepWhile_yields (hg.bound _ _) _ _) fun bounds hbounds => ?_
    exact .pure (.node trivial (by simp [hword, hargs, hcolon, hbounds]))

theorem angleArguments_yields : R.Yields (angleArguments g) R.Local := by
  refine .bind (op?_yields _) fun colons hcolons => .bind (op_yields _) fun opening hopening => ?_
  refine .bind (sepUntil_yields (genericArgument_yields hg) _ _ fun _ => trivial) fun args hargs => ?_
  refine .bind (op_yields _) fun closing hclosing => ?_
  exact .pure (.node rfl (by simp [hcolons, hopening, hargs, hclosing]))

theorem returnType?_yields (allowPlus : Bool) : R.Yields (returnType? g allowPlus) R.Local := by
  refine .bind .rest fun ts _ => .ite (fun _ => ?_) fun _ => .pure LeafRule.local_none
  refine .bind (op_yields _) fun arrow harrow => .bind (hg.type _) fun type htype => ?_
  exact .pure (.node trivial (by simp [harrow, htype]))

theorem parenArguments_yields : R.Yields (parenArguments g) R.Local := by
  refine .bind (groupNode_yields _ (.bind (terminated_yields (hg.type _) _) fun inputs hinputs =>
    .pure (by simpa using hinputs))) fun inputs hinputs => ?_
  refine .bind (returnType?_yields hg _) fun output houtput => ?_
  exact .pure (.node trivial (by simp [hinputs, houtput]))

/-! ### Paths with arguments -/

theorem pathSegment_yields (exprStyle : Bool) :
    R.Yields (pathSegment g exprStyle) fun n => R.Local n ∧ n.isNamedSegment = true := by
  refine .rest_bind fun ts hts => .ite (fun hat => ?_) fun _ => ?_
  · refine (anyWord_yields_at hts (by rw [hat, Bool.or_true])).bind fun word hword => .pure ?_
    exact bareSegment_local hword.1 (isIdentOr_mono hword.2 (by decide))
  · refine (identOr_yields _ ts hts).bind fun word hword => ?_
    have hname : word.isIdentOr segmentKeywords = true := isIdentOr_mono hword.2 (by decide)
    refine .bind .rest fun ts _ => .ite (fun _ => ?_) fun _ => ?_
    · refine .bind (angleArguments_yields hg) fun args hargs => .pure ⟨?_, hname⟩
      exact .node trivial (by simp [hword.1, hargs])
    · exact .pure (bareSegment_local hword.1 hname)

theorem pathRest_yields (exprStyle : Bool) {acc : List Node} (hacc : R.Segments acc) :
    R.Yields (pathRest g exprStyle acc) R.Segments := by
  refine .loop R.Segments hacc fun acc hacc => .bind .rest fun ts _ => ?_
  refine .ite (fun _ => ?_) fun _ => .pure hacc
  refine .bind (separator_yields _) fun colons hcolons => ?_
  exact .bind (pathSegment_yields hg _) fun segment hsegment =>
    .pure ((hacc.separate hcolons).cons hsegment)

theorem path_yields (exprStyle : Bool) : R.Yields (path g exprStyle) R.Local := by
  refine .bind (op?_yields _) fun lead hlead => .bind (pathSegment_yields hg _) fun first hfirst => ?_
  refine .bind (pathRest_yields hg _ (.single hfirst)) fun parts hparts => ?_
  exact .pure (hparts.reverse.local_path hlead)

theorem qualifiedPath_yields (exprStyle : Bool) : R.Yields (qualifiedPath g exprStyle) R.Local := by
  unfold qualifiedPath
  refine .bind .rest fun ts _ => .ite (fun _ => ?_) fun _ => path_yields hg _
  refine .bind (op_yields _) fun opening hopening => .bind (hg.type _) fun type htype => ?_
  refine .bind .rest fun ts _ => ?_
  extract_lets next
  have hnext (trait : Node) (htrait : R.Local trait) : R.Yields (next trait) R.Local := by
    refine .bind (op_yields _) fun closing hclosing => .bind (op_yields _) fun colons hcolons => ?_
    refine .bind (pathSegment_yields hg _) fun first hfirst => ?_
    refine .bind (P := R.Segments) (.loop R.Segments (.single hfirst) fun acc hacc => ?_)
      fun parts hparts => .pure ?_
    · refine .bind .rest fun ts _ => .ite (fun _ => ?_) fun _ => .pure hacc
      refine .bind (separator_yields _) fun colons hcolons => ?_
      exact .bind (pathSegment_yields hg _) fun segment hsegment =>
        .pure ((hacc.separate hcolons).cons hsegment)
    · have hsegments := LeafRule.local_separated hparts.isLocal
      exact .node trivial (by simp [hopening, htype, htrait, hclosing, hcolons, hsegments])
  refine .ite (fun _ => ?_) fun _ => .pure_bind (hnext _ LeafRule.local_none)
  refine .bind (kw_yields _) fun keyword hkeyword => .bind (path_yields hg _) fun path hpath => ?_
  exact .pure_bind (hnext _ (.node trivial (by simp [hkeyword, hpath])))

/-! ### Parenthesised arguments at the end of a path -/

omit hg in
/-- Only the last segment changes, and only its arguments. -/
theorem mem_withLastArguments {args n : Node} {parts : List Node}
    (h : n ∈ withLastArguments args parts) :
    n ∈ parts ∨ ∃ word old, .node .segment [word, old] ∈ parts ∧ n = .node .segment [word, args] := by
  unfold withLastArguments at h
  split at h
  · rename_i word old before hlast
    have hmem (m : Node) (hm : m ∈ Node.node .segment [word, old] :: before) : m ∈ parts :=
      List.mem_reverse.1 (hlast ▸ hm)
    rcases List.mem_cons.1 (List.mem_reverse.1 h) with rfl | hn
    · exact .inr ⟨word, old, hmem _ (by simp), rfl⟩
    · exact .inl (hmem n (List.mem_cons_of_mem _ hn))
  · exact .inl h

omit hg in
theorem withLastArguments_local {args : Node} {parts : List Node} (h : ∀ n ∈ parts, R.Local n)
    (hargs : R.Local args) : ∀ n ∈ withLastArguments args parts, R.Local n := by
  intro n hn
  rcases mem_withLastArguments hn with hn | ⟨word, old, hsegment, rfl⟩
  · exact h n hn
  · have hword : R.Local word := (h _ hsegment).part rfl 0
    exact .node trivial (by simp [hword, hargs])

omit hg in
theorem withLastArguments_segments {args : Node} {parts : List Node} (h : R.Segments parts)
    (hargs : R.Local args) : R.Segments (withLastArguments args parts) where
  isLocal := withLastArguments_local h.isLocal hargs
  isSegment n hn hop := by
    rcases mem_withLastArguments hn with hn | ⟨word, old, hsegment, rfl⟩
    · exact h.isSegment n hn hop
    · exact (h.isSegment (.node .segment [word, old]) hsegment rfl :)
  nonempty := by
    unfold withLastArguments
    split
    · simp [Node.isOp]
    · exact h.nonempty

theorem withParenArguments_yields {path : Node} (hpath : R.Local path) :
    R.Yields (withParenArguments g path) R.Local := by
  unfold withParenArguments
  extract_lets bare
  refine .bind .rest fun ts _ => .ite (fun _ => ?_) fun _ => .pure hpath
  split
  · obtain ⟨hlead, hparts⟩ := LeafRule.Segments.of_path hpath
    refine .ite (fun _ => ?_) fun _ => .pure hpath
    refine .bind (op?_yields _) fun _ _ => .bind (parenArguments_yields hg) fun args hargs => .pure ?_
    exact (withLastArguments_segments hparts hargs).local_path hlead
  · rename_i opening type trait closing colons segments
    refine .ite (fun _ => ?_) fun _ => .pure hpath
    refine .bind (op?_yields _) fun _ _ => .bind (parenArguments_yields hg) fun args hargs => .pure ?_
    have hparts : R.Local (.node .separated (withLastArguments args segments)) :=
      .node trivial (withLastArguments_local ((hpath.part rfl 5).children rfl) hargs)
    have hchildren := hpath.children rfl
    simp only [Node.children, List.forall_mem_cons] at hchildren
    exact .node trivial (by simp [hchildren, hparts])
  · exact .pure hpath

end Grammar

end Parser

end Scaffold.Syntax
