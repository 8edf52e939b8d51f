import Scaffold.Syntax.Grammar.Entry
import Mathlib.Data.List.Basic

/-!
# What is read is well formed

A tree that the grammar reads has the words of the text at its leaves, and in the places where a
kind of node asks for a name there is a name.  `LeafRule` says what is known of the tokens that are
read, `LeafRule.Formed` says the same of a tree together with the shapes of its nodes, and
`LeafRule.Yields` carries it through a parser: from tokens that obey the rule the parser leaves
tokens that obey it, and what it returns has the given property.

Here are the rules for sequences, choices and loops, and for the parsers of `Grammar.Basic`; the
rest of the grammar follows in the modules below this one.
-/

namespace Scaffold.Syntax

open Scaffold.Syntax.Parser

/-! ### Names in trees -/

/-- Whether a node is an identifier, or one of the words `also`. -/
def Node.isIdentOr (also : List String) : Node → Bool
  | .word raw name => raw || !isKeyword name || also.contains name
  | _ => false

/-- Whether a node is an identifier. -/
abbrev Node.isIdent : Node → Bool := Node.isIdentOr []

/-- The keywords that a segment of a path may be; `unsafe` stands in attributes only. -/
def segmentKeywords : List String := ["super", "self", "Self", "crate", "try", "unsafe"]

/-- Whether a node is a segment of a path with its name. -/
def Node.isNamedSegment : Node → Bool
  | .node .segment [first, _] => first.isIdentOr segmentKeywords
  | _ => false

/-- The keywords that a segment of a use tree may be. -/
def useKeywords : List String := ["super", "self", "crate", "try"]

/-- A use tree with its names. -/
inductive Node.IsUseTree : Node → Prop where
  | name {word : Node} : word.isIdentOr useKeywords = true → IsUseTree (.node .useName [word])
  | rename {word as_ bound : Node} : word.isIdentOr useKeywords = true →
    bound.isIdentOr ["_"] = true → IsUseTree (.node .useRename [word, as_, bound])
  | path {word colons tree : Node} : word.isIdentOr useKeywords = true → IsUseTree tree →
    IsUseTree (.node .usePath [word, colons, tree])
  | glob {star : Node} : IsUseTree (.node .useGlob [star])
  | group {delim : Delimiter} {trees : List Node} :
    (∀ tree ∈ trees, tree.isOp = false → IsUseTree tree) →
    IsUseTree (.node .useGroup [.group delim [.node .separated trees]])

theorem Node.IsUseTree.isNone_eq {n : Node} (h : n.IsUseTree) : n.isNone = false := by
  cases h <;> rfl

/-- What the parts of a node of a kind look like, where names depend on it.  The first part, which
holds the attributes of items and expressions, is left open. -/
def Kind.Shape : Kind → List Node → Prop
  | .path, parts =>
    ∃ lead segments, parts = [lead, .node .separated segments] ∧
      segments.filter (!·.isOp) ≠ [] ∧ ∀ s ∈ segments, s.isOp = false → s.isNamedSegment = true
  | .itemStruct, parts => (parts.getD 3 .none).isIdent = true
  | .itemEnum, parts => (parts.getD 3 .none).isIdent = true
  | .itemMod, parts => (parts.getD 4 .none).isIdentOr ["try"] = true
  | .itemUse, parts => (parts.getD 4 .none).IsUseTree
  | .exprPath, parts => parts.length = 2
  | .angleArgs, parts => parts.length = 4
  | _, _ => True

/-- What the parts look like of a node that declares neither a type nor a module. -/
def Kind.PartShape : Kind → List Node → Prop
  | .itemStruct, _ => False
  | .itemEnum, _ => False
  | .itemMod, _ => False
  | kind, parts => kind.Shape parts

theorem Kind.PartShape.shape {kind : Kind} {parts : List Node} (h : kind.PartShape parts) :
    kind.Shape parts := by
  unfold PartShape at h
  split at h
  · exact h.elim
  · exact h.elim
  · exact h.elim
  · exact h

/-- The first part may be exchanged. -/
theorem Kind.PartShape.exchange {kind : Kind} {first : Node} {parts : List Node}
    (h : kind.PartShape (first :: parts)) (other : Node) : kind.PartShape (other :: parts) := by
  cases kind with
  | path =>
    obtain ⟨lead, segments, heq, hsegments⟩ := h
    exact ⟨other, segments, by rw [(List.cons.inj heq).2], hsegments⟩
  | itemStruct => exact h
  | itemEnum => exact h
  | itemMod => exact h
  | itemUse => exact h
  | exprPath => exact h
  | angleArgs => exact h
  | _ => trivial

/-! ### Rules for leaves -/

/-- A rule for the tokens of a text and the leaves of trees.  It passes from a token list to its
parts and to the leaves made of them, and allows the leaves that the grammar supplies itself. -/
structure LeafRule where
  tokens : List Token → Prop
  word : (raw : Bool) → String → Prop
  lifetime : (raw : Bool) → String → Prop
  op : String → Prop
  literal : String → Prop
  tokens_tail : ∀ {t ts}, tokens (t :: ts) → tokens ts
  tokens_take : ∀ {ts} (n : Nat), tokens ts → tokens (ts.take n)
  tokens_content : ∀ {delim content ts}, tokens (.group delim content :: ts) → tokens content
  word_of_tokens : ∀ {raw name ts}, tokens (.word raw name :: ts) → word raw name
  lifetime_of_tokens : ∀ {raw name ts}, tokens (.lifetime raw name :: ts) → lifetime raw name
  literal_of_tokens : ∀ {text ts}, tokens (.literal text :: ts) → literal text
  op_of_tokens : ∀ {marks ts}, tokens ts → atOp marks ts = true → op marks
  /-- The pattern of an argument that is only a type. -/
  wildcard : word false "_"
  /-- The colon after that pattern, and three dots where they stand for a range. -/
  supplied : ∀ marks ∈ [":", "..="], op marks
  /-- The index of a field. -/
  index : ∀ n : Nat, literal (toString n)

namespace LeafRule

/-- **A well-formed tree:** its leaves obey the rule and its nodes have their shapes. -/
inductive Formed (R : LeafRule) : Node → Prop where
  | word {raw : Bool} {name : String} : R.word raw name → Formed R (.word raw name)
  | lifetime {raw : Bool} {name : String} : R.lifetime raw name → Formed R (.lifetime raw name)
  | op {marks : String} : R.op marks → Formed R (.op marks)
  | literal {text : String} : R.literal text → Formed R (.literal text)
  | verbatim {ts : List Token} : R.tokens ts → Formed R (.verbatim ts)
  | group {delim : Delimiter} {children : List Node} :
    (∀ n ∈ children, Formed R n) → Formed R (.group delim children)
  | node {kind : Kind} {children : List Node} :
    kind.Shape children → (∀ n ∈ children, Formed R n) → Formed R (.node kind children)

/-- **A well-formed tree in which types and modules are local:** they stand in blocks only. -/
inductive Local (R : LeafRule) : Node → Prop where
  | word {raw : Bool} {name : String} : R.word raw name → Local R (.word raw name)
  | lifetime {raw : Bool} {name : String} : R.lifetime raw name → Local R (.lifetime raw name)
  | op {marks : String} : R.op marks → Local R (.op marks)
  | literal {text : String} : R.literal text → Local R (.literal text)
  | verbatim {ts : List Token} : R.tokens ts → Local R (.verbatim ts)
  | group {delim : Delimiter} {children : List Node} :
    (∀ n ∈ children, Local R n) → Local R (.group delim children)
  | node {kind : Kind} {children : List Node} :
    kind.PartShape children → (∀ n ∈ children, Local R n) → Local R (.node kind children)
  | block {children : List Node} : (∀ n ∈ children, R.Formed n) → Local R (.node .block children)

/-- **A well-formed tree of items:** types and modules are items of it or of its modules, or they
are local to one of these items. -/
inductive Items (R : LeafRule) : Node → Prop where
  | isLocal {n : Node} : R.Local n → Items R n
  | type {kind : Kind} {children : List Node} : kind = .itemStruct ∨ kind = .itemEnum →
    kind.Shape children → (∀ n ∈ children, R.Local n) → Items R (.node kind children)
  | group {delim : Delimiter} {children : List Node} :
    (∀ n ∈ children, Items R n) → Items R (.group delim children)
  | node {kind : Kind} {children : List Node} : kind = .itemMod ∨ kind = .list ∨ kind = .file →
    kind.Shape children → (∀ n ∈ children, Items R n) → Items R (.node kind children)

/-- A value that `p` returns from the tokens `ts` has the property `Q`, and the tokens that are
left obey the rule. -/
def YieldsAt {α : Type} (R : LeafRule) (ts : List Token) (p : Parser α) (Q : α → Prop) : Prop :=
  ∀ a ts', p.run ts = some (a, ts') → Q a ∧ R.tokens ts'

/-- From any tokens that obey the rule, a value that `p` returns has the property `Q`, and the
tokens that are left obey the rule. -/
def Yields {α : Type} (R : LeafRule) (p : Parser α) (Q : α → Prop) : Prop :=
  ∀ ts, R.tokens ts → R.YieldsAt ts p Q

variable {R : LeafRule}

/-! ### Trees -/

theorem tokens_drop (n : Nat) {ts : List Token} (h : R.tokens ts) : R.tokens (ts.drop n) := by
  induction n generalizing ts with
  | zero => exact h
  | succ n ih =>
    cases ts with
    | nil => exact h
    | cons t ts => exact ih (R.tokens_tail h)

theorem formed_none : R.Formed .none := .node trivial (by simp)

theorem Formed.children {n : Node} (h : R.Formed n) : ∀ c ∈ n.children, R.Formed c := by
  cases h with
  | group hc => exact hc
  | node hs hc => exact hc
  | _ => simp [Node.children]

theorem Formed.elems {n : Node} (h : R.Formed n) : ∀ c ∈ n.elems, R.Formed c :=
  fun c hc => h.children c (List.mem_of_mem_filter hc)

theorem Formed.shape {kind : Kind} {children : List Node} (h : R.Formed (.node kind children)) :
    kind.Shape children := by
  cases h with
  | node hshape _ => exact hshape

theorem Formed.part {n : Node} (h : R.Formed n) (i : Nat) : R.Formed (n.part i) := by
  unfold Node.part
  cases hi : n.children[i]? with
  | none => exact formed_none
  | some c => exact h.children c (List.mem_of_getElem? hi)

/-! ### Trees with local items -/

theorem Local.formed {n : Node} (h : R.Local n) : R.Formed n := by
  induction h with
  | word h => exact .word h
  | lifetime h => exact .lifetime h
  | op h => exact .op h
  | literal h => exact .literal h
  | verbatim h => exact .verbatim h
  | group _ ih => exact .group ih
  | node hshape _ ih => exact .node hshape.shape ih
  | block h => exact .node trivial h

theorem local_none : R.Local .none := .node trivial (by simp)

theorem local_list {ns : List Node} (h : ∀ n ∈ ns, R.Local n) : R.Local (.list ns) :=
  .node trivial h

/-- What a loop has gathered, last part first. -/
theorem local_separated {acc : List Node} (h : ∀ n ∈ acc, R.Local n) :
    R.Local (.node .separated acc.reverse) :=
  .node trivial fun n hn => h n (List.mem_reverse.1 hn)

/-- A part in brackets. -/
theorem local_group {delim : Delimiter} {n : Node} (h : R.Local n) : R.Local (.group delim [n]) :=
  .group (List.forall_mem_singleton.2 h)

/-- Outside of blocks the parts have local items, too. -/
theorem Local.children {n : Node} (h : R.Local n) (hn : n.isKind .block = false) :
    ∀ c ∈ n.children, R.Local c := by
  cases h with
  | group hc => exact hc
  | node hs hc => exact hc
  | block => cases hn
  | _ => simp [Node.children]

theorem Local.part {n : Node} (h : R.Local n) (hn : n.isKind .block = false) (i : Nat) :
    R.Local (n.part i) := by
  unfold Node.part
  cases hi : n.children[i]? with
  | none => exact local_none
  | some c => exact h.children hn c (List.mem_of_getElem? hi)

/-! ### Trees of items -/

theorem Items.formed {n : Node} (h : R.Items n) : R.Formed n := by
  induction h with
  | isLocal h => exact h.formed
  | type _ hshape h => exact .node hshape fun c hc => (h c hc).formed
  | group _ ih => exact .group ih
  | node _ hshape _ ih => exact .node hshape ih

theorem items_list {ns : List Node} (h : ∀ n ∈ ns, R.Items n) : R.Items (.list ns) :=
  .node (.inr (.inl rfl)) trivial h

/-! ### Sequences, choices and loops -/

section Combinators

variable {α β : Type} {p : Parser α} {f : α → Parser β} {P : α → Prop} {Q : β → Prop}
  {ts : List Token}

theorem YieldsAt.bind (hp : R.YieldsAt ts p P) (hf : ∀ a, P a → R.Yields (f a) Q) :
    R.YieldsAt ts (p >>= f) Q := by
  intro b ts' hrun
  rw [StateT.run_bind] at hrun
  obtain ⟨⟨a, next⟩, ha, hb⟩ := Option.bind_eq_some_iff.1 hrun
  obtain ⟨hPa, hnext⟩ := hp a next ha
  exact hf a hPa next hnext b ts' hb

theorem YieldsAt.ite {c : Prop} [Decidable c] {q r : Parser β} (hq : c → R.YieldsAt ts q Q)
    (hr : ¬c → R.YieldsAt ts r Q) : R.YieldsAt ts (if c then q else r) Q := by
  by_cases h : c
  · rw [if_pos h]; exact hq h
  · rw [if_neg h]; exact hr h

theorem YieldsAt.failure : R.YieldsAt ts (Alternative.failure : Parser β) Q := by
  intro b ts' hrun
  cases hrun

namespace Yields

theorem pure {b : β} (h : Q b) : R.Yields (Pure.pure b) Q := by
  intro ts hts a ts' hrun
  obtain ⟨rfl, rfl⟩ := Prod.mk.inj (Option.some.inj hrun)
  exact ⟨h, hts⟩

theorem bind (hp : R.Yields p P) (hf : ∀ a, P a → R.Yields (f a) Q) : R.Yields (p >>= f) Q :=
  fun ts hts => (hp ts hts).bind hf

theorem failure : R.Yields (Alternative.failure : Parser β) Q :=
  fun _ _ => .failure

theorem pure_bind {a : α} (h : R.Yields (f a) Q) : R.Yields (Pure.pure a >>= f) Q :=
  bind (P := (· = a)) (pure rfl) fun _ ha => ha ▸ h

theorem failure_bind : R.Yields ((Alternative.failure : Parser α) >>= f) Q :=
  bind (P := fun _ => False) failure fun _ h => h.elim

theorem ite {c : Prop} [Decidable c] {q r : Parser β} (hq : c → R.Yields q Q)
    (hr : ¬c → R.Yields r Q) : R.Yields (if c then q else r) Q :=
  fun ts hts => .ite (fun h => hq h ts hts) fun h => hr h ts hts

theorem mono {P' : α → Prop} (hp : R.Yields p P) (h : ∀ a, P a → P' a) : R.Yields p P' :=
  fun ts hts a ts' hrun => (hp ts hts a ts' hrun).imp_left (h a)

theorem rest : R.Yields Parser.rest R.tokens := by
  intro ts hts a ts' hrun
  obtain ⟨rfl, rfl⟩ := Prod.mk.inj (Option.some.inj hrun)
  exact ⟨hts, hts⟩

theorem set {ts : List Token} (h : R.tokens ts) :
    R.Yields (MonadStateOf.set ts : Parser PUnit) fun _ => True := by
  intro ts' _ a next hrun
  obtain ⟨-, rfl⟩ := Prod.mk.inj (Option.some.inj hrun)
  exact ⟨trivial, h⟩

/-- Where a parser looks at the tokens that are left, it goes on from these. -/
theorem rest_bind {f : List Token → Parser β} (h : ∀ ts, R.tokens ts → R.YieldsAt ts (f ts) Q) :
    R.Yields (Parser.rest >>= f) Q :=
  fun ts hts => h ts hts

/-- A loop keeps what each of its rounds keeps. -/
theorem loop {σ : Type} {step : σ → Parser (σ ⊕ β)} {s : σ} (I : σ → Prop) (hs : I s)
    (hstep : ∀ s, I s → R.Yields (step s) (Sum.elim I Q)) : R.Yields (Parser.loop step s) Q := by
  have rounds (fuel : Nat) : ∀ s, I s → R.Yields (loopFor step fuel s) Q := by
    induction fuel with
    | zero => exact fun _ _ => failure
    | succ fuel ih =>
      refine fun s hs => bind (hstep s hs) fun next hnext => ?_
      cases next with
      | inl s => exact ih s hnext
      | inr b => exact pure hnext
  exact bind rest fun ts _ => rounds _ s hs

end Yields

end Combinators

end LeafRule

namespace Parser

variable {R : LeafRule}

/-! ### Taking tokens -/

/-- An operator, which may separate elements. -/
theorem separator_yields (marks : String) :
    R.Yields (op marks) fun n => R.Local n ∧ n.isOp = true := by
  refine .rest_bind fun ts hts n ts' hrun => ?_
  by_cases h : atOp marks ts = true
  · rw [if_pos h] at hrun
    obtain ⟨rfl, rfl⟩ := Prod.mk.inj (Option.some.inj hrun)
    exact ⟨⟨.op (R.op_of_tokens hts h), rfl⟩, LeafRule.tokens_drop _ hts⟩
  · rw [if_neg h] at hrun
    cases hrun

theorem op_yields (marks : String) : R.Yields (op marks) R.Local :=
  (separator_yields marks).mono fun _ h => h.1

theorem op?_yields (marks : String) : R.Yields (op? marks) R.Local :=
  .bind .rest fun _ _ => .ite (fun _ => op_yields marks) fun _ => .pure LeafRule.local_none

theorem word_of_isWord {w : String} {t : Token} (h : t.isWord w = true) : t = .word false w := by
  cases t with
  | word raw name => cases raw <;> simp_all [Token.isWord]
  | _ => cases h

theorem kw_yields (w : String) : R.Yields (kw w) R.Local := by
  refine .rest_bind fun ts hts n ts' hrun => ?_
  cases ts with
  | nil => cases hrun
  | cons t ts =>
    by_cases h : t.isWord w = true
    · obtain rfl := word_of_isWord h
      simp only [h, ↓reduceIte] at hrun
      obtain ⟨rfl, rfl⟩ := Prod.mk.inj (Option.some.inj hrun)
      exact ⟨.word (R.word_of_tokens hts), R.tokens_tail hts⟩
    · simp only [h] at hrun
      cases hrun

theorem kw?_yields (w : String) : R.Yields (kw? w) R.Local :=
  .bind .rest fun _ _ => .ite (fun _ => kw_yields w) fun _ => .pure LeafRule.local_none

theorem anyWord_yields : R.Yields anyWord R.Local := by
  refine .rest_bind fun ts hts n ts' hrun => ?_
  cases ts with
  | nil => cases hrun
  | cons t ts =>
    cases t with
    | word raw name =>
      obtain ⟨rfl, rfl⟩ := Prod.mk.inj (Option.some.inj hrun)
      exact ⟨.word (R.word_of_tokens hts), R.tokens_tail hts⟩
    | _ => cases hrun

/-- A word that is taken where one of `also` or an identifier stands. -/
theorem anyWord_yields_at {also : List String} {ts : List Token} (hts : R.tokens ts)
    (h : (atIdent ts || also.any (atWord · ts)) = true) :
    R.YieldsAt ts anyWord fun n => R.Local n ∧ n.isIdentOr also = true := by
  intro n ts' hrun
  cases ts with
  | nil => cases hrun
  | cons t ts =>
    cases t with
    | word raw name =>
      obtain ⟨rfl, rfl⟩ := Prod.mk.inj (Option.some.inj hrun)
      refine ⟨⟨.word (R.word_of_tokens hts), ?_⟩, R.tokens_tail hts⟩
      rcases Bool.or_eq_true_iff.1 h with h | h
      · simp_all [atIdent, Node.isIdentOr]
      · obtain ⟨w, hw, hat⟩ := List.any_eq_true.1 h
        obtain ⟨rfl, rfl⟩ := Token.word.inj (word_of_isWord hat)
        simp [Node.isIdentOr, hw]
    | _ => cases hrun

theorem ident_yields : R.Yields ident fun n => R.Local n ∧ n.isIdent = true := by
  refine .rest_bind fun ts hts n ts' hrun => ?_
  cases ts with
  | nil => cases hrun
  | cons t ts =>
    cases t with
    | word raw name =>
      dsimp only at hrun
      by_cases h : (raw || !isKeyword name) = true
      · rw [if_pos h] at hrun
        exact anyWord_yields_at hts (by rw [atIdent, h, Bool.true_or]) n ts' hrun
      · rw [if_neg h] at hrun
        cases hrun
    | _ => cases hrun

theorem identOr_yields (also : List String) :
    R.Yields (identOr also) fun n => R.Local n ∧ n.isIdentOr also = true := by
  refine .rest_bind fun ts hts n ts' hrun => ?_
  by_cases h : also.any (atWord · ts) = true
  · rw [if_pos h] at hrun
    exact anyWord_yields_at hts (by rw [h, Bool.or_true]) n ts' hrun
  · rw [if_neg h] at hrun
    obtain ⟨⟨hn, hident⟩, hts'⟩ := ident_yields ts hts n ts' hrun
    refine ⟨⟨hn, ?_⟩, hts'⟩
    cases n <;> simp_all [Node.isIdentOr]

theorem lifetime_yields : R.Yields lifetime R.Local := by
  refine .rest_bind fun ts hts n ts' hrun => ?_
  cases ts with
  | nil => cases hrun
  | cons t ts =>
    cases t with
    | lifetime raw name =>
      obtain ⟨rfl, rfl⟩ := Prod.mk.inj (Option.some.inj hrun)
      exact ⟨.lifetime (R.lifetime_of_tokens hts), R.tokens_tail hts⟩
    | _ => cases hrun

theorem lifetime?_yields : R.Yields lifetime? R.Local :=
  .bind .rest fun _ _ => .ite (fun _ => lifetime_yields) fun _ => .pure LeafRule.local_none

theorem literal_yields : R.Yields literal R.Local := by
  refine .rest_bind fun ts hts n ts' hrun => ?_
  split at hrun
  · obtain ⟨rfl, rfl⟩ := Prod.mk.inj (Option.some.inj hrun)
    exact ⟨.literal (R.literal_of_tokens hts), R.tokens_tail hts⟩
  · split at hrun
    · obtain ⟨rfl, rfl⟩ := Prod.mk.inj (Option.some.inj hrun)
      exact ⟨.word (R.word_of_tokens hts), R.tokens_tail hts⟩
    · cases hrun
  · split at hrun
    · obtain ⟨rfl, rfl⟩ := Prod.mk.inj (Option.some.inj hrun)
      have hminus : R.Local (.op "-") := .op (R.op_of_tokens hts rfl)
      have hnumber := LeafRule.Local.literal (R.literal_of_tokens (R.tokens_tail hts))
      exact ⟨LeafRule.local_list (by simp [hminus, hnumber]), R.tokens_tail (R.tokens_tail hts)⟩
    · cases hrun
  · cases hrun

theorem group_yields {α : Type} {p : Parser α} {Q : α → Prop} (delim : Delimiter)
    (hp : R.Yields p Q) : R.Yields (group delim p) Q := by
  refine .rest_bind fun ts hts a ts' hrun => ?_
  split at hrun
  · split at hrun
    · split at hrun
      · rename_i hcontent
        obtain ⟨rfl, rfl⟩ := Prod.mk.inj (Option.some.inj hrun)
        exact ⟨(hp _ (R.tokens_content hts) _ _ hcontent).1, R.tokens_tail hts⟩
      · cases hrun
    · cases hrun
  · cases hrun

theorem groupNode_yields {p : Parser (List Node)} (delim : Delimiter)
    (hp : R.Yields p fun ns => ∀ n ∈ ns, R.Local n) : R.Yields (groupNode delim p) R.Local :=
  .bind (group_yields delim hp) fun _ hns => .pure (.group hns)

theorem anyGroup_yields : R.Yields anyGroup fun found => R.Local found.2 := by
  refine .rest_bind fun ts hts a ts' hrun => ?_
  cases ts with
  | nil => cases hrun
  | cons t ts =>
    cases t with
    | group delim content =>
      obtain ⟨rfl, rfl⟩ := Prod.mk.inj (Option.some.inj hrun)
      exact ⟨.verbatim (R.tokens_take 1 hts), R.tokens_tail hts⟩
    | _ => cases hrun

theorem since_yields {start : List Token} (h : R.tokens start) : R.Yields (since start) R.tokens :=
  .bind .rest fun _ _ => .pure (R.tokens_take _ h)

/-- What is kept as mere tokens. -/
theorem verbatim_yields (kind : Kind) (hkind : ∀ parts, kind.PartShape parts) {start : List Token}
    (h : R.tokens start) :
    R.Yields (do pure (.node kind [.verbatim (← since start)])) R.Local :=
  .bind (since_yields h) fun _ htokens =>
    .pure (.node (hkind _) (List.forall_mem_singleton.2 (.verbatim htokens)))

/-! ### Sequences of elements -/

theorem manyWhile_yields {p : Parser Node} {Q : Node → Prop} (hp : R.Yields p Q)
    (more : List Token → Bool) : R.Yields (manyWhile more p) fun ns => ∀ n ∈ ns, Q n := by
  refine .loop (fun acc => ∀ n ∈ acc, Q n) (by simp) fun acc hacc => ?_
  refine .bind .rest fun ts _ => .ite (fun _ => ?_) fun _ => ?_
  · exact .bind hp fun n hn => .pure (List.forall_mem_cons.2 ⟨hn, hacc⟩)
  · exact .pure fun n hn => hacc n (List.mem_reverse.1 hn)

theorem manyToEnd_yields {p : Parser Node} {Q : Node → Prop} (hp : R.Yields p Q) :
    R.Yields (manyToEnd p) fun ns => ∀ n ∈ ns, Q n :=
  manyWhile_yields hp _

section Elements

variable {p : Parser Node} (hp : R.Yields p R.Local)

include hp

theorem sepUntil_parts_yields (stop : List Token → Bool) (sep : String) (kind : Kind) :
    R.Yields (sepUntil stop sep p kind) fun n =>
      ∃ parts, n = .node kind parts ∧ ∀ c ∈ parts, R.Local c := by
  have hreverse {acc : List Node} (h : ∀ n ∈ acc, R.Local n) :
      ∃ parts, Node.node kind acc.reverse = .node kind parts ∧ ∀ c ∈ parts, R.Local c :=
    ⟨_, rfl, fun n hn => h n (List.mem_reverse.1 hn)⟩
  refine .loop (fun acc => ∀ n ∈ acc, R.Local n) (by simp) fun acc hacc => ?_
  refine .bind .rest fun ts _ => .ite (fun _ => .pure (hreverse hacc)) fun _ => ?_
  refine .bind hp fun n hn => .bind .rest fun ts _ => .ite (fun _ => .pure ?_) fun _ => ?_
  · exact hreverse (List.forall_mem_cons.2 ⟨hn, hacc⟩)
  · refine .bind (op_yields sep) fun mark hmark => .pure ?_
    exact List.forall_mem_cons.2 ⟨hmark, List.forall_mem_cons.2 ⟨hn, hacc⟩⟩

theorem sepUntil_yields (stop : List Token → Bool) (sep : String) {kind : Kind}
    (hkind : ∀ parts, kind.PartShape parts) : R.Yields (sepUntil stop sep p kind) R.Local :=
  (sepUntil_parts_yields hp stop sep kind).mono fun _ ⟨_, heq, hparts⟩ =>
    heq ▸ .node (hkind _) hparts

theorem terminated_yields (sep : String) : R.Yields (terminated sep p) R.Local :=
  sepUntil_yields hp _ sep fun _ => trivial

theorem sepWhile_yields (stop : List Token → Bool) (sep : String) :
    R.Yields (sepWhile stop sep p) R.Local := by
  refine .loop (fun acc => ∀ n ∈ acc, R.Local n) (by simp) fun acc hacc => ?_
  refine .bind .rest fun ts _ => .ite (fun _ => .pure (LeafRule.local_separated hacc)) fun _ => ?_
  refine .bind hp fun n hn => .bind .rest fun ts _ => .ite (fun _ => ?_) fun _ => .pure ?_
  · refine .bind (op_yields sep) fun mark hmark => .pure ?_
    exact List.forall_mem_cons.2 ⟨hmark, List.forall_mem_cons.2 ⟨hn, hacc⟩⟩
  · exact LeafRule.local_separated (List.forall_mem_cons.2 ⟨hn, hacc⟩)

end Elements

end Parser

/-! ### The parsers that the grammar calls recursively -/

/-- The parsers of a grammar return well-formed trees. -/
structure Grammar.Sound (R : LeafRule) (g : Grammar) : Prop where
  type (allowPlus : Bool) : R.Yields (g.type allowPlus) R.Local
  expr (allowStruct : Bool) : R.Yields (g.expr allowStruct) R.Local
  exprEarly : R.Yields g.exprEarly R.Local
  unary (allowStruct : Bool) : R.Yields (g.unary allowStruct) R.Local
  operand (allowStruct : Bool) (prec : Precedence) : R.Yields (g.operand allowStruct prec) R.Local
  pattern : R.Yields g.pattern R.Local
  block (innerAttrs : Bool) : R.Yields (g.block innerAttrs) R.Local
  item : R.Yields g.item R.Items
  fields : R.Yields g.fields R.Local
  bound (allowCapture allowConst : Bool) : R.Yields (g.bound allowCapture allowConst) R.Local
  useTree (allowRoot : Bool) : R.Yields (g.useTree allowRoot) fun n =>
    R.Local n ∧ (n.IsUseTree ∨ allowRoot = true ∧ n.isNone = true)

end Scaffold.Syntax
