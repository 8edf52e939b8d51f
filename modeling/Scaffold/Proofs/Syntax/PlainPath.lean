import Scaffold.Proofs.Syntax.Lexing
import Scaffold.Proofs.Syntax.Names
import Scaffold.Proofs.Text.Segments

/-!
# Reading plain paths

A path that is written from words is read as a type of these segments exactly where each word may
be a segment (`readType_ofSegments`): an identifier, one of the words that begin paths, or `try`.
A raw identifier keeps its name without the raw mark in a path of names, so a path through a name
that is a keyword is not read.
-/

namespace Scaffold.Syntax

open Scaffold.Text

/-! ### The tokens of a path -/

/-- The tokens of the segments after the first. -/
def stepTokens (names : List String) : List Token :=
  names.flatMap fun name => [.punct ':' true, .punct ':' false, .word false name]

/-- The text of the segments after the first. -/
def stepChars (names : List String) : List Char :=
  names.flatMap fun name => ':' :: ':' :: name.toList

theorem toList_ofSegments (first : String) (rest : List String) :
    (ofSegments (first :: rest)).toList = first.toList ++ stepChars rest := by
  induction rest generalizing first with
  | nil => simp [ofSegments, stepChars]
  | cons next rest ih =>
    have htail := ih next
    have hcolons : "::".toList = [':', ':'] := rfl
    rw [ofSegments] at htail
    rw [ofSegments, String.intercalate_cons_cons, String.toList_append, String.toList_append,
      htail, hcolons]
    simp [stepChars]

namespace Lexer

theorem endsWord_stepChars (names : List String) : endsWord (stepChars names) = true := by
  cases names with
  | nil => rfl
  | cons name names => exact (by decide : (!isIdentContinue ':' && !quoteMarks.contains ':') = true)

/-- Each segment takes three rounds. -/
theorem run_stepChars {names : List String} (hnames : ∀ n ∈ names, Ident.isWordText n = true)
    (fuel : Nat) (before : List Token) :
    run (3 * names.length + (fuel + 1)) (stepChars names) [] before =
      some (before.reverse ++ stepTokens names) := by
  induction names generalizing before with
  | nil =>
    rw [List.length_nil, Nat.mul_zero, Nat.zero_add, stepChars, List.flatMap_nil, run_nil]
    simp [stepTokens]
  | cons name names ih =>
    obtain ⟨hname, hrest⟩ := List.forall_mem_cons.1 hnames
    have hfuel : 3 * (name :: names).length + (fuel + 1) =
        3 * names.length + (fuel + 1) + 1 + 1 + 1 := by
      rw [List.length_cons]
      omega
    have htext : stepChars (name :: names) = ':' :: ':' :: (name.toList ++ stepChars names) := rfl
    have hword : atMark (name.toList ++ stepChars names) = false := by
      obtain ⟨c, cs, heq, hc, -⟩ := exists_of_isWordText hname
      rw [heq, List.cons_append]
      exact atMark_of_isIdentStart hc
    have hline (cs : List Char) : startsWith "//" (':' :: cs) = false :=
      startsWith_of_ne (l := '/') rfl (by decide)
    have hblock (cs : List Char) : startsWith "/*" (':' :: cs) = false :=
      startsWith_of_ne (l := '/') rfl (by decide)
    have hmem : ':' ∈ markChars := by decide
    have hmark (cs : List Char) : atMark (':' :: cs) = true := by
      simp [atMark, hline, hblock, hmem]
    have hcolon (fuel : Nat) (cs : List Char) (before : List Token) :
        run (fuel + 1) (':' :: cs) [] before =
          run fuel cs [] (.punct ':' (atMark cs) :: before) :=
      run_mark hmem (by decide) (hline cs) (hblock cs)
    rw [hfuel, htext, hcolon, hmark, hcolon, hword, run_word hname (endsWord_stepChars names),
      ih hrest]
    simp [stepTokens]

end Lexer

/-- **The tokens of a path** that is written from words. -/
theorem lex_ofSegments {first : String} {rest : List String}
    (h : ∀ n ∈ first :: rest, Ident.isWordText n = true) :
    lex (ofSegments (first :: rest)) = some (.word false first :: stepTokens rest) := by
  obtain ⟨hfirst, hrest⟩ := List.forall_mem_cons.1 h
  have hlength : 3 * rest.length ≤ (stepChars rest).length := by
    clear h hfirst
    induction rest with
    | nil => simp
    | cons name names ih =>
      obtain ⟨hname, hnames⟩ := List.forall_mem_cons.1 hrest
      obtain ⟨c, cs, heq, -⟩ := Lexer.exists_of_isWordText hname
      have htail := ih hnames
      simp only [stepChars, List.flatMap_cons, List.length_append, List.length_cons, heq] at *
      omega
  have hmark : Lexer.dropMark (first.toList ++ stepChars rest) = first.toList ++ stepChars rest := by
    obtain ⟨c, cs, heq, hc, -⟩ := Lexer.exists_of_isWordText hfirst
    have hne : ¬c.toNat = 0xfeff := (isIdentStart_apart hc).1.2
    rw [heq, List.cons_append, Lexer.dropMark, if_neg hne]
  obtain ⟨fuel, hfuel⟩ : ∃ fuel, (first.toList ++ stepChars rest).length + 2 =
      3 * rest.length + (fuel + 1) + 1 := by
    refine ⟨(first.toList ++ stepChars rest).length - 3 * rest.length, ?_⟩
    rw [List.length_append]
    omega
  rw [lex, toList_ofSegments, lexChars, hmark, hfuel,
    Lexer.run_word hfirst (Lexer.endsWord_stepChars rest), Lexer.run_stepChars hrest]
  rfl

/-! ### The tree of a path -/

/-- Whether a plain word may be a segment of a path in a type. -/
def isSegmentWord (name : String) : Bool :=
  ["super", "self", "Self", "crate", "try"].contains name || !isKeyword name

namespace Parser

/-! ### Running parsers -/

section Run

variable {α β : Type} {p : Parser α} {f : α → Parser β} {ts ts' : List Token} {a : α}

theorem run_rest_bind (f : List Token → Parser β) (ts : List Token) :
    (rest >>= f).run ts = (f ts).run ts := rfl

theorem run_bind (h : p.run ts = some (a, ts')) : (p >>= f).run ts = (f a).run ts' := by
  rw [StateT.run_bind, h]
  rfl

theorem run_bind_none (h : p.run ts = none) : (p >>= f).run ts = none := by
  rw [StateT.run_bind, h]
  rfl

end Run

variable (g : Grammar)

theorem atWord_word (w name : String) (ts : List Token) :
    atWord w (.word false name :: ts) = (name == w) := rfl

theorem run_anyWord (raw : Bool) (name : String) (ts : List Token) :
    anyWord.run (.word raw name :: ts) = some (.word raw name, ts) := rfl

theorem run_ident (name : String) (ts : List Token) :
    ident.run (.word false name :: ts) =
      if isKeyword name then none else some (.word false name, ts) := by
  unfold ident
  rw [run_rest_bind]
  by_cases h : isKeyword name = true
  · have hword : ¬(false || !isKeyword name) = true := by simp [h]
    rw [if_pos h]
    exact congrArg (fun p : Parser Node => p.run (.word false name :: ts)) (if_neg hword)
  · have hword : (false || !isKeyword name) = true := by simp [h]
    rw [if_neg h]
    exact congrArg (fun p : Parser Node => p.run (.word false name :: ts)) (if_pos hword)

theorem run_identOr (also : List String) (name : String) (ts : List Token) :
    (identOr also).run (.word false name :: ts) =
      if also.contains name || !isKeyword name then some (.word false name, ts) else none := by
  have hany : also.any (atWord · (.word false name :: ts)) = also.contains name := by
    simp only [atWord_word]
    rw [← List.any_beq]
  unfold identOr
  change (StateT.run (if also.any (atWord · (.word false name :: ts)) = true then anyWord else ident)
    (.word false name :: ts)) = _
  rw [hany]
  cases also.contains name
  · simp [run_ident]
    cases isKeyword name <;> simp
  · simp [run_anyWord]

/-! ### Segments -/

/-- A segment that no arguments follow. -/
theorem run_pathSegment (name : String) {ts : List Token} (hangle : atOp "<" ts = false)
    (hsteps : atOp "<" (after2 ts) = false) :
    (pathSegment g false).run (.word false name :: ts) =
      if isSegmentWord name then some (bareSegment (.word false name), ts) else none := by
  unfold pathSegment
  rw [run_rest_bind]
  by_cases hpath : ["super", "self", "crate", "try"].any (atWord · (.word false name :: ts)) = true
  · have hseg : isSegmentWord name = true := by
      simp [atWord_word] at hpath
      simp [isSegmentWord]
      tauto
    rw [if_pos hpath, if_pos hseg, run_bind (run_anyWord ..)]
    rfl
  · have hseg : isSegmentWord name = (["Self"].contains name || !isKeyword name) := by
      simp [atWord_word] at hpath
      simp [isSegmentWord, hpath]
    have hword := run_identOr ["Self"] name ts
    rw [if_neg hpath, hseg]
    by_cases h : (["Self"].contains name || !isKeyword name) = true
    · rw [if_pos h] at hword ⊢
      rw [run_bind hword, run_rest_bind]
      simp [hangle, hsteps]
    · rw [if_neg h] at hword ⊢
      exact run_bind_none hword

/-- The segments after the first, with the marks between them, as parts. -/
def stepParts (names : List String) : List Node :=
  names.flatMap fun name => [.op "::", bareSegment (.word false name)]

/-- No arguments follow a segment of a plain path. -/
theorem atOp_stepTokens (names : List String) :
    atOp "<" (stepTokens names) = false ∧ atOp "<" (after2 (stepTokens names)) = false := by
  cases names with
  | nil => exact ⟨rfl, rfl⟩
  | cons name names => exact ⟨rfl, rfl⟩

/-- A loop that takes one segment in each round. -/
theorem run_loopFor_steps {step : List Node → Parser (List Node ⊕ List Node)}
    (hdone : ∀ acc, (step acc).run [] = some (.inr acc, []))
    (hstep : ∀ acc name names, (step acc).run (stepTokens (name :: names)) =
      if isSegmentWord name then
        some (.inl (bareSegment (.word false name) :: .op "::" :: acc), stepTokens names)
      else none)
    (names : List String) {fuel : Nat} (hfuel : names.length < fuel) (acc : List Node) :
    (loopFor step fuel acc).run (stepTokens names) =
      if names.all isSegmentWord then some ((stepParts names).reverse ++ acc, []) else none := by
  induction names generalizing fuel acc with
  | nil =>
    obtain ⟨fuel, rfl⟩ : ∃ k, fuel = k + 1 := ⟨fuel - 1, by omega⟩
    rw [loopFor, stepTokens, List.flatMap_nil, run_bind (hdone acc)]
    rfl
  | cons name names ih =>
    obtain ⟨fuel, rfl⟩ : ∃ k, fuel = k + 1 := ⟨fuel - 1, by omega⟩
    have hround := hstep acc name names
    rw [loopFor, List.all_cons]
    cases hname : isSegmentWord name with
    | true =>
      rw [hname, if_pos rfl] at hround
      rw [run_bind hround, ih (by simpa using hfuel), Bool.true_and]
      simp [stepParts]
    | false =>
      rw [hname, if_neg (by decide)] at hround
      rw [run_bind_none hround]
      rfl

/-- The segments after the first. -/
theorem run_pathRest (names : List String) (acc : List Node) :
    (pathRest g false acc).run (stepTokens names) =
      if names.all isSegmentWord then some ((stepParts names).reverse ++ acc, []) else none := by
  have hlength : names.length ≤ (stepTokens names).length := by
    induction names with
    | nil => simp
    | cons name names ih =>
      simp only [stepTokens, List.flatMap_cons, List.length_append, List.length_cons] at *
      omega
  unfold pathRest loop
  rw [run_rest_bind]
  refine run_loopFor_steps (fun acc => rfl) (fun acc name names => ?_) names (by omega) acc
  have hop : (op "::").run (stepTokens (name :: names)) =
    some (.op "::", .word false name :: stepTokens names) := rfl
  obtain ⟨hangle, hsteps⟩ := atOp_stepTokens names
  have hsegment := run_pathSegment g name hangle hsteps
  have hat : (atOp "::" (stepTokens (name :: names)) &&
    !atGroup .paren (after2 (stepTokens (name :: names)))) = true := rfl
  rw [run_rest_bind, if_pos hat, run_bind hop]
  cases hname : isSegmentWord name with
  | true =>
    rw [hname, if_pos rfl] at hsegment
    rw [run_bind hsegment]
    rfl
  | false =>
    rw [hname, if_neg (by decide)] at hsegment
    rw [run_bind_none hsegment]
    rfl

/-- The tree of a plain path that begins with `first`. -/
def plainPath (first : String) (names : List String) : Node :=
  .node .path [.none, .node .separated (bareSegment (.word false first) :: stepParts names)]

/-- A path from the crate. -/
theorem run_path_crate (names : List String) :
    (path g false).run (.word false "crate" :: stepTokens names) =
      if names.all isSegmentWord then some (plainPath "crate" names, []) else none := by
  obtain ⟨hangle, hsteps⟩ := atOp_stepTokens names
  have hfirst := run_pathSegment g "crate" hangle hsteps
  have hlead : (op? "::").run (.word false "crate" :: stepTokens names) =
    some (.none, .word false "crate" :: stepTokens names) := rfl
  rw [if_pos (by decide)] at hfirst
  have hrest := run_pathRest g names [bareSegment (.word false "crate")]
  unfold path
  rw [run_bind hlead, run_bind hfirst]
  by_cases h : names.all isSegmentWord = true
  · rw [if_pos h] at hrest ⊢
    rw [run_bind hrest]
    simp [plainPath]
  · rw [if_neg h] at hrest ⊢
    exact run_bind_none hrest

/-- A path from the crate as a type. -/
theorem run_type_crate (allowPlus : Bool) (names : List String) :
    (type g allowPlus).run (.word false "crate" :: stepTokens names) =
      if names.all isSegmentWord then some (.node .typePath [plainPath "crate" names], [])
      else none := by
  have hpath := run_path_crate g names
  have hbinder : (binder? g).run (.word false "crate" :: stepTokens names) =
    some (.none, .word false "crate" :: stepTokens names) := rfl
  have hpathType : (pathType g allowPlus .none).run (.word false "crate" :: stepTokens names) =
      if names.all isSegmentWord then some (.node .typePath [plainPath "crate" names], [])
      else none := by
    have hqualified : (qualifiedPath g false).run (.word false "crate" :: stepTokens names) =
      (path g false).run (.word false "crate" :: stepTokens names) := rfl
    rw [hpath] at hqualified
    unfold pathType
    by_cases h : names.all isSegmentWord = true
    · rw [if_pos h] at hqualified ⊢
      have hargs : (withParenArguments g (plainPath "crate" names)).run [] =
        some (plainPath "crate" names, []) := rfl
      rw [run_bind hqualified, run_bind hargs]
      cases allowPlus <;> rfl
    · rw [if_neg h] at hqualified ⊢
      exact run_bind_none hqualified
  unfold type
  rw [run_rest_bind, run_bind hbinder, run_rest_bind]
  exact hpathType

end Parser

/-- A word is read as an identifier unless it is a keyword. -/
theorem isSome_readIdent {name : String} (h : Ident.isWordText name = true) :
    (readIdent name).isSome = !isKeyword name := by
  have hwords : ∀ n ∈ [name], Ident.isWordText n = true := List.forall_mem_singleton.2 h
  have hlex : lex name = some [.word false name] := by
    have hpath := lex_ofSegments hwords
    rwa [ofSegments, String.intercalate_singleton] at hpath
  rw [readIdent, readText, hlex, Option.bind_some, readTokens, Parser.run_ident]
  cases isKeyword name <;> rfl

/-- **A path from the crate** is read as a type exactly where each of its names may be a segment. -/
theorem readType_ofSegments {names : List String}
    (h : ∀ n ∈ names, Ident.isWordText n = true) :
    readType (ofSegments ("crate" :: names)) =
      if names.all isSegmentWord then some (.node .typePath [Parser.plainPath "crate" names])
      else none := by
  have hwords : ∀ n ∈ "crate" :: names, Ident.isWordText n = true :=
    List.forall_mem_cons.2 ⟨by decide, h⟩
  have hlex := lex_ofSegments hwords
  obtain ⟨ts, hts⟩ : ∃ ts, ts = Token.word false "crate" :: stepTokens names := ⟨_, rfl⟩
  have hrun : ((Grammar.forTokens ts).type true).run ts =
      if names.all isSegmentWord then
        some (.node .typePath [Parser.plainPath "crate" names], [])
      else none := by
    rw [hts]
    exact Parser.run_type_crate (.ofDepth _) true names
  rw [readType, readText, hlex, Option.bind_some, readTokens, ← hts, hrun]
  by_cases hall : names.all isSegmentWord = true
  · rw [if_pos hall, if_pos hall]
  · rw [if_neg hall, if_neg hall]

end Scaffold.Syntax
