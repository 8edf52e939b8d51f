import Scaffold.Proofs.Syntax.ReadBack
import Scaffold.Source.TypeText

/-!
# Texts of types

Every gap that is closed is a blank beside a mark, so closing gaps leaves the lexemes of a text and
the blanks that keep words apart (`exists_pieces_of_closeGaps`).  What is lost is which marks stand
apart: the compact text of tokens is read as the tokens, but more of their marks may be joint
(`lex_compactText`).  A plain type is read all the same (`readType_compactText`).
-/

namespace Scaffold.Source

open Syntax

/-! ### Closing gaps -/

/-- Replacing `old` by `new` closes blanks beside marks. -/
def ClosesBlanks (old new : List Char) : Prop :=
  ∀ ⦃before text text'⦄, (∀ b, Narrows b text text') → Narrows before (old ++ text) (new ++ text')

theorem closesBlanks_of_mem_gaps : ∀ gap ∈ gaps, ClosesBlanks gap.1.toList gap.2.toList := by
  -- a blank before a mark, and one after a mark
  have before {b c : Char} {text text' : List Char} (hc : c ∈ narrowBefore)
      (h : Narrows b (c :: text) (c :: text')) : Narrows b (' ' :: c :: text) (c :: text') :=
    .close (.inr ⟨c, rfl, hc⟩) h
  have after {c : Char} {text text' : List Char} (hc : c ∈ narrowAfter)
      (h : ∀ b, Narrows b text text') : Narrows c (' ' :: text) text' :=
    .close (.inl hc) (h c)
  simp only [gaps, List.forall_mem_cons, List.not_mem_nil, false_imp_iff, implies_true, and_true]
  refine ⟨?_, ?_, ?_, ?_, ?_, ?_, ?_, ?_⟩ <;> intro b text text' h
  · exact before (by decide) (.keep (.keep (after (by decide) h)))
  · exact .keep (.keep (after (by decide) h))
  · exact before (by decide) (.keep (h _))
  · exact .keep (after (by decide) h)
  · exact before (by decide) (.keep (h _))
  · exact before (by decide) (.keep (h _))
  · exact .keep (after (by decide) h)
  · exact before (by decide) (.keep (h _))

theorem narrows_replaceFrom {old new : List Char} (hold : old ≠ []) (hgap : ClosesBlanks old new)
    (skip : Nat) (text : List Char) (before : Char) :
    Narrows before (text.drop skip) (replaceFrom old new skip text) := by
  induction text generalizing skip before with
  | nil =>
    rw [List.drop_nil]
    exact .nil
  | cons c cs ih =>
    cases skip with
    | succ skip =>
      rw [List.drop_succ_cons, replaceFrom]
      exact ih skip before
    | zero =>
      rw [List.drop_zero, replaceFrom]
      split_ifs with hprefix
      · obtain ⟨rest, hrest⟩ := List.isPrefixOf_iff_prefix.1 hprefix
        have htail : rest = cs.drop (old.length - 1) := by
          cases old with
          | nil => exact absurd rfl hold
          | cons o os =>
            obtain ⟨-, rfl⟩ := List.cons.inj hrest
            simp
        rw [← hrest]
        refine hgap fun b => ?_
        rw [htail]
        exact ih _ b
      · exact .keep (ih 0 c)

/-- Closing gaps leaves the lexemes of a text, and the blanks that are needed. -/
theorem exists_pieces_of_closeGaps {ps : List Piece} (hsound : ∀ p ∈ ps, p.lexeme.Sound)
    (hspaced : Piece.Spaced ps) :
    ∃ qs : List Piece, qs.map Piece.lexeme = ps.map Piece.lexeme ∧
      Piece.textOf qs = closeGaps (Piece.textOf ps) ∧ Piece.Spaced qs := by
  -- one replacement after the other
  have rounds (gs : List (String × String)) (hgs : gs ⊆ gaps) : ∀ ps : List Piece,
      (∀ p ∈ ps, p.lexeme.Sound) → Piece.Spaced ps →
      ∃ qs : List Piece, qs.map Piece.lexeme = ps.map Piece.lexeme ∧
        Piece.textOf qs =
          gs.foldl (fun text gap => replaceAll gap.1 gap.2 text) (Piece.textOf ps) ∧
        Piece.Spaced qs := by
    induction gs with
    | nil => exact fun ps _ hspaced => ⟨ps, rfl, rfl, hspaced⟩
    | cons gap gs ih =>
      intro ps hsound hspaced
      obtain ⟨hgap, htail⟩ := List.cons_subset.1 hgs
      have hne : gap.1.toList ≠ [] := by
        have hall : ∀ gap ∈ gaps, gap.1.toList ≠ [] := by decide
        exact hall gap hgap
      have hnarrows := narrows_replaceFrom hne (closesBlanks_of_mem_gaps gap hgap) 0
        (Piece.textOf ps) ' '
      obtain ⟨qs, hqs, htext, hspaced⟩ := exists_pieces_of_narrows hsound hspaced hnarrows
      have hsound' : ∀ q ∈ qs, q.lexeme.Sound := by
        have hlexemes : ∀ l ∈ ps.map Piece.lexeme, l.Sound := List.forall_mem_map.2 hsound
        rw [← hqs] at hlexemes
        exact List.forall_mem_map.1 hlexemes
      obtain ⟨rs, hrs, hfold, hspaced⟩ := ih htail qs hsound' hspaced
      refine ⟨rs, hrs.trans hqs, ?_, hspaced⟩
      rw [hfold, htext]
      rfl
  exact rounds gaps (List.Subset.refl _) ps hsound hspaced

/-- **The compact text of tokens** is read as the tokens, but more marks may be joint. -/
theorem lex_compactText {ts : List Token} (h : Token.Plain ts) :
    ∃ us, lex (compactText ts) = some us ∧ Token.Tightened ts us := by
  obtain ⟨ps, hps, htext, hspaced⟩ := exists_pieces h
  have hspaced : Piece.Spaced ps := by
    have hend := hspaced [] trivial rfl
    rwa [List.append_nil] at hend
  have hsound : ∀ p ∈ ps, p.lexeme.Sound := fun p hp =>
    sound_of_plain h _ (hps ▸ List.mem_map_of_mem hp)
  obtain ⟨qs, hqs, hclosed, hspaced⟩ := exists_pieces_of_closeGaps hsound hspaced
  obtain ⟨us, hlex, htight⟩ := lexChars_textOf h (hqs.trans hps) hspaced
  rw [hclosed, htext] at hlex
  refine ⟨us, ?_, htight⟩
  rwa [lex, compactText, String.toList_ofList]

/-- **A plain type is read from its compact text.** -/
theorem readType_compactText {n : Node} (h : n.IsPlain (.type true)) :
    readType (compactText n.tokens) = some n := by
  obtain ⟨us, hlex, htight⟩ := lex_compactText h.printed.plain
  rw [readType, readText, h.tokens_eq, hlex, Option.bind_some]
  exact readTokens_type h htight

/-- **The compact text of a plain type tells the type.** -/
theorem eq_of_compactText_eq {n m : Node} (hn : n.IsPlain (.type true))
    (hm : m.IsPlain (.type true)) (h : compactText n.tokens = compactText m.tokens) : n = m := by
  have hread := readType_compactText hn
  rw [h, readType_compactText hm] at hread
  exact (Option.some.inj hread).symm

end Scaffold.Source
