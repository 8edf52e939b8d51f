import Scaffold.Proofs.Source.Occurrence
import Scaffold.Proofs.Source.Reading

/-!
# Calls in the corpus

A call is a registration in shape where it goes through a path with type arguments on its last
segment (`Node.isRegistration`).  Every such call in a file is a node of its unit, once, unless it
stands in the declaration of a type, in a use declaration or in a module that a block declares; and
it stands directly before the calls that its own parts make (`SourceFile.calls_of_readFile`).

The calls keep the order of the text except for those in where clauses, which are read with the
parameters that they constrain, and those in attributes at the beginning of a body, which are read
with the attributes before it: these come before what is written before them
(`SourceFile.calls_of_clause`).
-/

namespace Scaffold

/-- The call that a node is. -/
def CorpusNode.call? : CorpusNode → Option Call
  | .declaration _ => none
  | .call c => some c

namespace Syntax

/-! ### Calls with the shape of registrations -/

namespace Node

/-- The segments of the path that a call goes through. -/
def calledSegments (call : Node) : List Node := (((call.part 1).part 1).part 1).elems

/-- The last of them, which names what is called. -/
def calledSegment (call : Node) : Node := call.calledSegments.getLastD .none

/-- **Whether a node is a call** of a path without a self type, whose last segment has type
arguments. -/
def isRegistration (n : Node) : Bool :=
  n.isKind .exprCall && (n.part 1).isKind .exprPath && ((n.part 1).part 1).isKind .path &&
    (n.calledSegment.part 1).isKind .angleArgs

/-- The call that a node is, in the module of a path. -/
def callIn (scope : String) (n : Node) : Call where
  receiver := n.calledSegments.dropLast.map fun segment => (segment.part 0).name
  method := (n.calledSegment.part 0).name
  args := ((n.calledSegment.part 1).part 2).elems.map fun arg =>
    ⟨Source.compactText arg.tokens, scope⟩
  scope := scope

theorem exists_of_isNamedSegment {n : Node} (h : n.isNamedSegment = true) :
    ∃ word args, n = .node .segment [word, args] := by
  unfold isNamedSegment at h
  split at h
  · exact ⟨_, _, rfl⟩
  · cases h

/-- A path of a well-formed tree has a last segment with a name. -/
theorem exists_of_path {R : LeafRule} {path : Node} (hformed : R.Formed path)
    (hpath : path.isKind .path = true) : ∃ lead segments before word args,
      path = .node .path [lead, segments] ∧
        segments.elems = before ++ [.node .segment [word, args]] ∧ R.Formed args := by
  have heq := eq_of_isKind hpath
  obtain ⟨lead, segments, hparts, hne, hnamed⟩ := (heq ▸ hformed).shape
  -- the shape of a path says that it has segments, all of them with names
  obtain ⟨before, last, hsplit⟩ :=
    (List.eq_nil_or_concat' (segments.filter (!·.isOp))).resolve_left hne
  have hlast : last ∈ segments.filter (!·.isOp) := hsplit ▸ List.mem_concat_self
  obtain ⟨hmem, hop⟩ := List.mem_filter.1 hlast
  obtain ⟨word, args, rfl⟩ := exists_of_isNamedSegment (hnamed last hmem (by simpa using hop))
  rw [hparts] at heq
  have hargs : R.Formed args := ((heq ▸ hformed).part 1).elems _ hlast |>.part 1
  exact ⟨lead, .node .separated segments, before, word, args, heq, hsplit, hargs⟩

/-- What a call of a path with type arguments looks like. -/
theorem exists_of_isRegistration {R : LeafRule} {n : Node} (hformed : R.Formed n)
    (hn : n.isRegistration = true) : ∃ attrs lead segments before word colons less args greater,
      n.part 1 = .node .exprPath [attrs, .node .path [lead, segments]] ∧
      segments.elems =
        before ++ [.node .segment [word, .node .angleArgs [colons, less, args, greater]]] := by
  simp only [isRegistration, Bool.and_eq_true] at hn
  obtain ⟨⟨⟨-, hexpr⟩, hpath⟩, hangle⟩ := hn
  have hcallee := hformed.part 1
  have hexpr := eq_of_isKind hexpr
  obtain ⟨attrs, path, hparts⟩ := List.length_eq_two.1 (hexpr ▸ hcallee).shape
  rw [hparts] at hexpr
  have hpart : (n.part 1).part 1 = path := by rw [hexpr]; rfl
  obtain ⟨lead, segments, before, word, args, rfl, hsegments, hargs⟩ :=
    exists_of_path (hpart ▸ hcallee.part 1) (hpart ▸ hpath)
  have hcalled : n.calledSegments = before ++ [.node .segment [word, args]] := by
    rw [calledSegments, hpart]
    exact hsegments
  rw [calledSegment, hcalled, List.getLastD_concat] at hangle
  have hangle : args = .node .angleArgs args.children := eq_of_isKind hangle
  obtain ⟨colons, less, arguments, greater, hfour⟩ :=
    List.length_eq_four.1 (hangle ▸ hargs).shape
  refine ⟨attrs, lead, segments, before, word, colons, less, arguments, greater, hexpr, ?_⟩
  rw [hsegments, hangle, hfour]

/-- Only a call with the shape of a registration is seen. -/
theorem isRegistration_of_callOf {scope : Source.ModulePath} {n : Node}
    (hn : n.isKind .exprCall = true) {c : Call} (h : Source.callOf scope (n.part 1) = some c) :
    n.isRegistration = true := by
  unfold Source.callOf at h
  split at h
  · rename_i attrs lead segments hcallee
    split at h
    · rename_i word colons less args greater before hsegments
      have hcalled : n.calledSegments = before.reverse ++
          [.node .segment [word, .node .angleArgs [colons, less, args, greater]]] := by
        rw [calledSegments, hcallee, ← List.reverse_cons, ← hsegments, List.reverse_reverse]
        rfl
      rw [isRegistration, hn, calledSegment, hcalled, List.getLastD_concat, hcallee]
      rfl
    · cases h
  · cases h

/-- **The call that is seen** in a node of a well-formed tree. -/
theorem callOf_eq {R : LeafRule} {n : Node} (hformed : R.Formed n) (hn : n.isKind .exprCall = true)
    (scope : Source.ModulePath) : Source.callOf scope (n.part 1) =
      if n.isRegistration = true then some (n.callIn (Text.ofSegments scope)) else Option.none := by
  split_ifs with hregistration
  · obtain ⟨attrs, lead, segments, before, word, colons, less, args, greater, hcallee, hsegments⟩ :=
      exists_of_isRegistration hformed hregistration
    have hcalled : n.calledSegments =
        before ++ [.node .segment [word, .node .angleArgs [colons, less, args, greater]]] := by
      rw [calledSegments, hcallee]
      exact hsegments
    rw [callIn, calledSegment, hcalled, List.getLastD_concat, List.dropLast_concat, hcallee,
      Source.callOf, hsegments, List.reverse_concat]
    simp only [List.reverse_reverse]
    rfl
  · rw [Option.eq_none_iff_forall_ne_some]
    exact fun c hc => hregistration (isRegistration_of_callOf hn hc)

end Node

namespace Occurrence

/-- **Whether a call is seen:** one with the shape of a registration that stands neither in the
declaration of a type, nor in a use declaration, nor in a module that a block declares. -/
def isSeen (o : Occurrence) : Bool :=
  o.node.isRegistration && !(o.inType || o.inUse || o.inLocalModule)

/-- What stands in the tree of an occurrence, as it stands in the tree around it. -/
def inside (o p : Occurrence) : Occurrence := ⟨o.around ++ p.around, p.node⟩

/-- The nodes within an occurrence. -/
def inner (o : Occurrence) : List Occurrence := (o.node.occurrences.drop 1).map o.inside

end Occurrence

end Syntax

namespace Source

open Syntax

/-- The call that a fact adds to the corpus. -/
def Fact.call? (f : Fact) : Option Call := f.corpusNode?.bind CorpusNode.call?

/-- **A node states a call** where it has the shape of a registration. -/
theorem filterMap_call?_ownFacts {m : Node} (hm : LeafRule.names.Formed m) (spot : Place) :
    (ownFacts spot m).filterMap Fact.call? =
      if m.isRegistration = true then [m.callIn (Text.ofSegments spot.scope)] else [] := by
  cases hcall : m.isKind .exprCall with
  | true =>
    have hown : ownFacts spot m =
        ((callOf spot.scope (m.part 1)).map fun c => Fact.node (.call c)).toList := by
      rw [Node.eq_of_isKind hcall]
      rfl
    rw [hown, Node.callOf_eq hm hcall]
    split_ifs <;> rfl
  | false =>
    have hregistration : m.isRegistration = false := by
      rw [Node.isRegistration, hcall]
      rfl
    rw [hregistration, if_neg Bool.false_ne_true, List.filterMap_eq_nil_iff]
    intro f hf
    cases states_of_mem_ownFacts hf with
    | call hkind => exact absurd hkind (by rw [hcall]; decide)
    | _ => rfl

theorem placeWithin_append (place : Place) (around more : List Node) :
    placeWithin place (around ++ more) =
      (placeWithin place around).bind fun spot => placeWithin spot more := by
  induction around generalizing place with
  | nil => rfl
  | cons n around ih =>
    rw [List.cons_append, placeWithin, placeWithin]
    split_ifs
    · rfl
    · exact ih _

theorem placed_inside {place spot : Place} {o : Occurrence}
    (h : placeWithin place o.around = some spot) (p : Occurrence) :
    placed place (o.inside p) = placed spot p := by
  rw [placed, Occurrence.inside, placeWithin_append, h]
  rfl

namespace SourceFile

/-- The calls in the unit of a file. -/
def calls (file : SourceFile) : List Call := (fileNodes file).filterMap CorpusNode.call?

/-- The call that an occurrence in a file is, in the module of the file and in it the modules around
the call. -/
def callAt (file : SourceFile) (o : Occurrence) : Call :=
  o.node.callIn (Text.below file.space o.modules)

/-- The place of a file. -/
def place (file : SourceFile) : Place := ⟨Text.segments file.space, false⟩

/-- What is stated of calls at an occurrence. -/
theorem filterMap_call?_placed (file : SourceFile) {o : Occurrence}
    (ho : LeafRule.names.Formed o.node) :
    ((placed file.place o).elim [] fun s => (ownFacts s.1 s.2).filterMap Fact.call?) =
      if o.isSeen = true then [file.callAt o] else [] := by
  have hscope : Text.ofSegments (Text.segments file.space ++ o.modules) =
      Text.below file.space o.modules := by
    rw [Text.ofSegments_append (Text.segments_ne_nil _), Text.ofSegments_segments]
  rw [placed, placeWithin_eq rfl, Occurrence.isSeen]
  cases hhidden : o.inType || o.inUse || o.inLocalModule with
  | true => rw [Bool.not_true, Bool.and_false]; rfl
  | false =>
    rw [Bool.not_false, Bool.and_true, callAt, ← hscope]
    exact filterMap_call?_ownFacts ho _

section Read

variable {file : SourceFile} {root : Node} (hread : readFile file.text = some root)

include hread

theorem calls_eq : file.calls = (factsOf file.place root).filterMap Fact.call? := by
  rw [calls, fileNodes, List.filterMap_filterMap, crateFacts, List.flatMap_singleton, hread,
    Option.map_some, Option.getD_some, fileFacts, List.filterMap_cons_none rfl]
  rfl

/-- The calls of a file in the order of the text. -/
theorem filterMap_call?_writtenFacts : (writtenFacts file.place root).filterMap Fact.call? =
    (root.occurrences.filter Occurrence.isSeen).map file.callAt :=
  filterMap_writtenFacts fun o ho =>
    file.filterMap_call?_placed ((formed_readFile hread).occurrence o ho).1

/-- **A call is seen directly before the calls that its parts make.** -/
theorem exists_infix_calls {o : Occurrence} (ho : o ∈ root.occurrences) (hseen : o.isSeen = true) :
    ∃ inner, file.callAt o :: inner <:+: file.calls ∧
      inner.Perm ((o.inner.filter Occurrence.isSeen).map file.callAt) := by
  have hformed := ((formed_readFile hread).occurrence o ho).1
  obtain ⟨hregistration, hvisible⟩ := Bool.and_eq_true_iff.1 hseen
  obtain ⟨spot, hspot⟩ : ∃ spot, placeWithin file.place o.around = some spot := by
    rw [placeWithin_eq rfl, if_neg (by simpa using hvisible)]
    exact ⟨_, rfl⟩
  have hkind : o.node.isKind .exprCall = true := by
    simp only [Node.isRegistration, Bool.and_eq_true] at hregistration
    exact hregistration.1.1.1
  -- what the call and its parts state is read together
  have hinfix : factsOf spot o.node <:+: factsOf file.place root := by
    refine infix_factsOf ho hspot ?_
    rw [Node.eq_of_isKind hkind]
    exact opening_readFacts (by decide) _ _
  have hfirst : ∃ inner, (factsOf spot o.node).filterMap Fact.call? = file.callAt o :: inner := by
    have hstated := file.filterMap_call?_placed hformed
    rw [placed, hspot, Option.map_some, Option.elim_some, if_pos hseen] at hstated
    rw [factsOf_eq, List.filterMap_append, hstated]
    exact ⟨_, rfl⟩
  have hwritten : (writtenFacts spot o.node).filterMap Fact.call? =
      file.callAt o :: (o.inner.filter Occurrence.isSeen).map file.callAt := by
    have hall : (writtenFacts spot o.node).filterMap Fact.call? =
        (o.node.occurrences.filter fun p => (o.inside p).isSeen).map fun p =>
          file.callAt (o.inside p) := by
      refine filterMap_writtenFacts fun p hp => ?_
      rw [← placed_inside hspot]
      exact file.filterMap_call?_placed (hformed.occurrence p hp).1
    have hself : o.inside { node := o.node } = o := by rw [Occurrence.inside, List.append_nil]
    rw [hall, Occurrence.inner, o.node.occurrences_eq, List.filter_cons_of_pos (by rwa [hself]),
      List.map_cons, hself, List.drop_succ_cons, List.drop_zero, List.filter_map, List.map_map]
    rfl
  obtain ⟨inner, hinner⟩ := hfirst
  refine ⟨inner, ?_, List.Perm.cons_inv (a := file.callAt o) ?_⟩
  · rw [calls_eq hread, ← hinner]
    exact hinfix.filterMap Fact.call?
  · rw [← hinner, ← hwritten]
    exact (factsOf_perm spot o.node).filterMap _

/-- **Every call with the shape of a registration is seen once,** in the modules around it, unless
it stands in the declaration of a type, in a use declaration or in a module that a block declares.
It is seen directly before the calls that its parts make.  The calls keep the order of the text
where none of them stands in a where clause or in an attribute at the beginning of a body. -/
theorem calls_of_readFile :
    file.calls.Perm ((root.occurrences.filter Occurrence.isSeen).map file.callAt) ∧
    (∀ o ∈ root.occurrences, o.isSeen = true → ∃ inner, file.callAt o :: inner <:+: file.calls ∧
      inner.Perm ((o.inner.filter Occurrence.isSeen).map file.callAt)) ∧
    ((∀ o ∈ root.occurrences, o.isSeen = true → ∀ a ∈ o.around, isReadEarly a = false) →
      file.calls = (root.occurrences.filter Occurrence.isSeen).map file.callAt) := by
  have hwritten := filterMap_call?_writtenFacts hread
  refine ⟨?_, fun o ho hseen => exists_infix_calls hread ho hseen, fun hkeeps => ?_⟩
  · rw [← hwritten, calls_eq hread]
    exact (factsOf_perm _ _).filterMap _
  · rw [← hwritten, calls_eq hread]
    refine filterMap_factsOf fun o ho spot hspot hown a ha => hkeeps o ho ?_ a ha
    -- an occurrence that states a call is seen
    have hstated := file.filterMap_call?_placed ((formed_readFile hread).occurrence o ho).1
    rw [placed, hspot, Option.map_some, Option.elim_some] at hstated
    by_contra hnot
    exact hown (by rw [hstated, if_neg hnot])

end Read

/-- A file with one call in another, in a module. -/
def nestedFile : SourceFile :=
  ⟨"crate", "lib.rs", "mod m \x7b fn f() \x7b a::M::register::<A, B>(g::<C>()); \x7d \x7d"⟩

theorem calls_of_readFile_nested :
    nestedFile.calls.map (fun c => (c.receiver, c.method, c.scope)) =
        [(["a", "M"], "register", "crate::m"), ([], "g", "crate::m")] ∧
      ∃ root, readFile nestedFile.text = some root ∧
        nestedFile.calls = (root.occurrences.filter Occurrence.isSeen).map nestedFile.callAt := by
  have hcalls : nestedFile.calls.map (fun c => (c.receiver, c.method, c.scope)) =
      [(["a", "M"], "register", "crate::m"), ([], "g", "crate::m")] := by
    decide +kernel
  have hread : (readFile nestedFile.text).map (fun root => root.occurrences.all fun o =>
      !o.isSeen || o.around.all fun a => !isReadEarly a) = some true := by
    decide +kernel
  obtain ⟨root, hroot, hlate⟩ := Option.map_eq_some_iff.1 hread
  refine ⟨hcalls, root, hroot, (calls_of_readFile hroot).2.2 fun o ho hseen a ha => ?_⟩
  have hall := List.all_eq_true.1 hlate o ho
  rw [hseen, Bool.not_true, Bool.false_or] at hall
  exact Bool.not_eq_true' _ ▸ List.all_eq_true.1 hall a ha

/-- A function with a call in the type of its parameter and another in its where clause. -/
def clauseFile : SourceFile :=
  ⟨"crate", "lib.rs", "fn f(x: [u8; a::g::<A>()]) where [u8; b::h::<B>()]: T \x7b\x7d"⟩

/-- The call in the where clause is seen first, though it is written after the other. -/
theorem calls_of_clause : ∃ root, readFile clauseFile.text = some root ∧
    clauseFile.calls.map (·.method) = ["h", "g"] ∧
    (root.occurrences.filter fun o => o.node.isRegistration).map
      (fun o => (clauseFile.callAt o).method) = ["g", "h"] := by
  have hcalls : clauseFile.calls.map (·.method) = ["h", "g"] := by decide +kernel
  have hread : (readFile clauseFile.text).map (fun root =>
      (root.occurrences.filter fun o => o.node.isRegistration).map
        fun o => (clauseFile.callAt o).method) = some ["g", "h"] := by
    decide +kernel
  obtain ⟨root, hroot, horder⟩ := Option.map_eq_some_iff.1 hread
  exact ⟨root, hroot, hcalls, horder⟩

end SourceFile

end Source

end Scaffold
