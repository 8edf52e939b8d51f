import Scaffold.Proofs.Syntax.Formed.Statement
import Scaffold.Syntax.Ident

/-!
# The names of a text

Every word of a source text is spelled as a word, and raw only where it has a raw form
(`named_of_lexChars`).  The rule `LeafRule.names` carries this to syntax trees: the identifiers in
a file that has been read are words, and none of them is one of the words that begin paths
(`Node.isName_of_isIdent`).
-/

namespace Scaffold.Syntax

open Scaffold.Text

namespace Ident

/-- Whether an identifier, raw or not, has this name. -/
def isName (name : String) : Bool := isWordText name && !neverRaw.contains name

/-- Whether a word is spelled in this way: words that have no raw form are not raw. -/
def isSpelling (raw : Bool) (name : String) : Bool :=
  isWordText name && !(raw && neverRaw.contains name)

theorem isWordText_of_isSpelling {raw : Bool} {name : String} (h : isSpelling raw name = true) :
    isWordText name = true :=
  (Bool.and_eq_true_iff.1 h).1

/-- The name of an identifier is no keyword unless it is raw, so it has a raw form. -/
theorem isName_of_not_keyword {raw : Bool} {name : String} (h : isSpelling raw name = true)
    (hident : (raw || !isKeyword name) = true) : isName name = true := by
  unfold isSpelling at h
  rw [Bool.and_eq_true] at h
  rw [isName, h.1, Bool.true_and]
  cases raw with
  | true => exact h.2
  | false =>
    have hkeywords : ∀ w ∈ neverRaw, isKeyword w = true := by decide
    rw [Bool.not_eq_true', Bool.eq_false_iff, Ne, List.contains_iff_mem]
    intro hmem
    rw [hkeywords name hmem] at hident
    cases hident

end Ident

/-! ### Tokens -/

/-- A token whose words and lifetimes are spelled as words. -/
inductive Token.Named : Token → Prop where
  | word {raw : Bool} {name : String} : Ident.isSpelling raw name = true → Named (.word raw name)
  | lifetime {raw : Bool} {name : String} :
    Ident.isSpelling raw name = true → Named (.lifetime raw name)
  | punct {mark : Char} {joint : Bool} : Named (.punct mark joint)
  | literal {text : String} : Named (.literal text)
  | group {delim : Delimiter} {content : List Token} : (∀ t ∈ content, Named t) →
    Named (.group delim content)

namespace Lexer

theorem isWordText_of_plainWord {text name rest : List Char}
    (h : plainWord text = some (name, rest)) : Ident.isWordText (String.ofList name) = true := by
  unfold plainWord at h
  split at h
  · split_ifs at h with hc
    obtain ⟨rfl, -⟩ := Prod.mk.inj (Option.some.inj h)
    simp [Ident.isWordText, hc]
  · cases h

theorem isSpelling_of_anyWord {text rest : List Char} {raw : Bool} {name : String}
    (h : anyWord text = some (raw, name, rest)) : Ident.isSpelling raw name = true := by
  unfold anyWord at h
  split_ifs at h
  · split at h
    · rename_i hplain
      split_ifs at h with hnever
      obtain ⟨rfl, rfl, -⟩ := by simpa using h
      have hname : ¬Ident.neverRaw.contains (String.ofList _) = true := hnever
      rw [Ident.isSpelling, isWordText_of_plainWord hplain]
      simpa using hname
    · cases h
  · obtain ⟨⟨name', rest'⟩, hplain, heq⟩ := Option.map_eq_some_iff.1 h
    obtain ⟨rfl, rfl, -⟩ := by simpa using heq
    rw [Ident.isSpelling, isWordText_of_plainWord hplain]
    rfl

theorem named_of_literal {text rest : List Char} {token : Token}
    (h : literal text = some (token, rest)) : token.Named := by
  obtain ⟨found, -, heq⟩ := Option.map_eq_some_iff.1 h
  obtain ⟨rfl, -⟩ := Prod.mk.inj heq
  exact .literal

theorem named_of_punctuation {text rest : List Char} {token : Token}
    (h : punctuation text = some (token, rest)) : token.Named := by
  unfold punctuation at h
  split_ifs at h
  split at h
  · split at h
    · rename_i hword
      split_ifs at h <;> obtain ⟨rfl, -⟩ := Prod.mk.inj (Option.some.inj h)
      · exact .punct
      · exact .lifetime (isSpelling_of_anyWord hword)
    · cases h
  · obtain ⟨rfl, -⟩ := Prod.mk.inj (Option.some.inj h)
    exact .punct
  · cases h

theorem named_of_word {text rest : List Char} {token : Token}
    (h : word text = some (token, rest)) : token.Named := by
  unfold word at h
  split_ifs at h
  obtain ⟨⟨raw, name, rest'⟩, hword, heq⟩ := Option.map_eq_some_iff.1 h
  obtain ⟨rfl, -⟩ := Prod.mk.inj heq
  exact .word (isSpelling_of_anyWord hword)

/-- A lexeme that is no bracket. -/
theorem named_of_leaf {text rest : List Char} {token : Token}
    (h : leaf text = some (token, rest)) : token.Named := by
  unfold leaf at h
  split at h
  · rename_i hliteral
    obtain rfl := Option.some.inj h
    exact named_of_literal hliteral
  split at h
  · rename_i hpunct
    obtain rfl := Option.some.inj h
    exact named_of_punctuation hpunct
  split at h
  · rename_i hword
    obtain rfl := Option.some.inj h
    exact named_of_word hword
  · split_ifs at h
    obtain ⟨rfl, -⟩ := Prod.mk.inj (Option.some.inj h)
    exact .literal

theorem named_docAttribute (comment : List Char) (inner : Bool) :
    ∀ t ∈ docAttribute comment inner, t.Named := by
  have hdoc : Token.Named (.word false "doc") := .word (by decide)
  have hgroup (text : String) : Token.Named
      (.group .bracket [.word false "doc", .punct '=' false, .literal text]) :=
    .group (by simp [hdoc, Token.Named.punct, Token.Named.literal])
  intro t ht
  cases inner <;> simp only [docAttribute, List.mem_append, List.mem_cons, List.not_mem_nil,
    or_false, Bool.false_eq_true, if_false, if_true] at ht
  · rcases ht with rfl | rfl
    · exact .punct
    · exact hgroup _
  · rcases ht with (rfl | rfl) | rfl
    · exact .punct
    · exact .punct
    · exact hgroup _

/-- **The loop** keeps the words of what it has read. -/
theorem named_of_run {fuel : Nat} {text : List Char} {opened : List (Delimiter × List Token)}
    {before ts : List Token} (hopened : ∀ o ∈ opened, ∀ t ∈ o.2, t.Named)
    (hbefore : ∀ t ∈ before, t.Named) (h : run fuel text opened before = some ts) :
    ∀ t ∈ ts, t.Named := by
  induction fuel generalizing text opened before with
  | zero => cases h
  | succ fuel ih =>
    unfold run at h
    extract_lets text' at h
    clear_value text'
    split at h
    · split_ifs at h
      refine ih hopened ?_ h
      intro t ht
      rcases List.mem_append.1 ht with ht | ht
      · exact named_docAttribute _ _ t (List.mem_reverse.1 ht)
      · exact hbefore t ht
    split at h
    · split_ifs at h
      obtain rfl := Option.some.inj h
      exact fun t ht => hbefore t (List.mem_reverse.1 ht)
    split_ifs at h
    · exact ih hopened (List.forall_mem_cons.2 ⟨.literal, hbefore⟩) h
    split at h
    · exact ih (List.forall_mem_cons.2 ⟨hbefore, hopened⟩) (by simp) h
    split at h
    · split at h
      · obtain ⟨houter, hrest⟩ := List.forall_mem_cons.1 hopened
        split_ifs at h
        have hgroup (delim : Delimiter) : Token.Named (.group delim before.reverse) :=
          .group fun t ht => hbefore t (List.mem_reverse.1 ht)
        exact ih hrest (List.forall_mem_cons.2 ⟨hgroup _, houter⟩) h
      · cases h
    split at h
    · rename_i hleaf
      exact ih hopened (List.forall_mem_cons.2 ⟨named_of_leaf hleaf, hbefore⟩) h
    · cases h

end Lexer

theorem named_of_lexChars {text : List Char} {ts : List Token} (h : lexChars text = some ts) :
    ∀ t ∈ ts, t.Named :=
  Lexer.named_of_run (by simp) (by simp) h

/-! ### Trees -/

theorem Token.Named.content {delim : Delimiter} {content : List Token}
    (h : Token.Named (.group delim content)) : ∀ t ∈ content, t.Named := by
  cases h with
  | group h => exact h

/-- The rule that words and lifetimes are spelled as words. -/
def LeafRule.names : LeafRule where
  tokens ts := ∀ t ∈ ts, t.Named
  word raw name := Ident.isSpelling raw name = true
  lifetime raw name := Ident.isSpelling raw name = true
  op _ := True
  literal _ := True
  tokens_tail h := (List.forall_mem_cons.1 h).2
  tokens_take n h := fun t ht => h t (List.mem_of_mem_take ht)
  tokens_content h := (List.forall_mem_cons.1 h).1.content
  word_of_tokens h := by
    cases (List.forall_mem_cons.1 h).1 with
    | word hword => exact hword
  lifetime_of_tokens h := by
    cases (List.forall_mem_cons.1 h).1 with
    | lifetime hname => exact hname
  literal_of_tokens _ := trivial
  op_of_tokens _ _ := trivial
  wildcard := by decide
  supplied _ _ := trivial
  index _ := trivial

/-- **The file that a text spells** is a tree of items that has words for its names. -/
theorem items_readFile {text : String} {file : Node} (h : readFile text = some file) :
    LeafRule.names.Items file := by
  obtain ⟨ts, hts, hfile⟩ := Option.bind_eq_some_iff.1 h
  exact yields_readTokens Parser.fileItems_yields (named_of_lexChars hts) hfile

theorem formed_readFile {text : String} {file : Node} (h : readFile text = some file) :
    LeafRule.names.Formed file :=
  (items_readFile h).formed

theorem formed_readType {text : String} {type : Node} (h : readType text = some type) :
    LeafRule.names.Formed type := by
  obtain ⟨ts, hts, htype⟩ := Option.bind_eq_some_iff.1 h
  exact (yields_readTokens (fun hg => hg.type true) (named_of_lexChars hts) htype).formed

/-- The name of an identifier in a tree. -/
theorem Node.isName_of_isIdentOr {n : Node} {also : List String} (h : LeafRule.names.Formed n)
    (hident : n.isIdentOr also = true) (halso : ∀ w ∈ also, Ident.isName w = true) :
    Ident.isName n.name = true := by
  cases n with
  | word raw name =>
    cases h with
    | word hword =>
      rcases Bool.or_eq_true_iff.1 hident with hident | hmem
      · exact Ident.isName_of_not_keyword hword hident
      · exact halso name (List.contains_iff_mem.1 hmem)
  | _ => cases hident

end Scaffold.Syntax
