import Scaffold.Proofs.Naming.SnakeCase

/-!
# Snake case cuts names into words

Snake case writes a name in lower case and puts an underscore at every boundary.  Whether there is a
boundary is asked of the name as it is written, one character back and one ahead, so what is put into
the snake case at one place never decides about another.  `wordsAfter` cuts a name at its boundaries;
its snake case is these words in lower case, joined by underscores (`snakeChars_eq_intercalate`), and
no cut is next to an underscore (`isChain_wordsAfter`).  A text without upper case has no boundaries,
so it is its own snake case (`snakeChars_of_not_isUpper`).
-/

namespace Scaffold.Naming

open Text

/-! ### One character -/

/-- Whether an underscore is put before a character that follows `prev` and is followed by `next`. -/
def isCut (prev : Option Char) (c : Char) (next : Option Char) : Bool :=
  isUpper c && isBoundary prev next

/-- What becomes of one character. -/
theorem snakeChars_cons (prev : Option Char) {c : Char} (hc : isAscii c = true) (cs : List Char) :
    snakeChars prev (c :: cs) =
      (if isCut prev c cs.head? then ['_'] else []) ++ c.toLower :: snakeChars (some c) cs := by
  rw [snakeChars, isCut, lowerOf, if_pos hc]
  cases hupper : isUpper c with
  | true =>
    rw [Bool.true_and, if_pos rfl, List.append_assoc]
    rfl
  | false =>
    rw [Bool.false_and, toLower_of_not_isUpper hc hupper]
    rfl

/-- There is no cut next to an underscore. -/
theorem ne_underscore_of_isCut {p c : Char} {next : Option Char}
    (h : isCut (some p) c next = true) : p ≠ '_' ∧ c ≠ '_' := by
  obtain ⟨hupper, hboundary⟩ := Bool.and_eq_true_iff.1 h
  constructor
  · rintro rfl
    cases hboundary
  · rintro rfl
    exact absurd hupper (by decide)

theorem isUpper_toLower {c : Char} (hc : isAscii c = true) : isUpper c.toLower = false :=
  of_isAscii (P := fun c => isUpper c.toLower = false) (by decide) hc

theorem toLower_ne_underscore {c : Char} (hc : isAscii c = true) (h : c ≠ '_') :
    c.toLower ≠ '_' :=
  of_isAscii (P := fun c => c ≠ '_' → c.toLower ≠ '_') (by decide) hc h

/-! ### Words -/

/-- The words of the characters that follow `prev`, in lower case.  The first of them goes on with
the word of `prev`. -/
def wordsAfter : (prev : Option Char) → List Char → List (List Char)
  | _, [] => [[]]
  | prev, c :: cs =>
    let words := (wordsAfter (some c) cs).modifyHead (c.toLower :: ·)
    if isCut prev c cs.head? then [] :: words else words

/-- Whether a text may be cut between two words. -/
def CutApart (v w : List Char) : Prop := v.getLast? ≠ some '_' ∧ w.head? ≠ some '_'

theorem wordsAfter_ne_nil (prev : Option Char) (cs : List Char) : wordsAfter prev cs ≠ [] := by
  cases cs with
  | nil => exact List.cons_ne_nil _ _
  | cons c cs =>
    have hrest := wordsAfter_ne_nil (some c) cs
    rw [wordsAfter]
    split_ifs
    · exact List.cons_ne_nil _ _
    · simpa using hrest

/-- The words make up the name in lower case. -/
theorem flatten_wordsAfter (prev : Option Char) (cs : List Char) :
    (wordsAfter prev cs).flatten = cs.map Char.toLower := by
  induction cs generalizing prev with
  | nil => rfl
  | cons c cs ih =>
    have hwords : ((wordsAfter (some c) cs).modifyHead (c.toLower :: ·)).flatten =
        c.toLower :: cs.map Char.toLower := by
      obtain ⟨word, words, hcs⟩ := List.exists_cons_of_ne_nil (wordsAfter_ne_nil (some c) cs)
      rw [← ih (some c), hcs]
      rfl
    rw [wordsAfter]
    split_ifs
    · exact hwords
    · exact hwords

/-- **Snake case** is the words of a name, joined by underscores. -/
theorem snakeChars_eq_intercalate (prev : Option Char) {cs : List Char}
    (h : ∀ c ∈ cs, isAscii c = true) :
    snakeChars prev cs = ['_'].intercalate (wordsAfter prev cs) := by
  induction cs generalizing prev with
  | nil => rfl
  | cons c cs ih =>
    obtain ⟨hc, hcs⟩ := List.forall_mem_cons.1 h
    obtain ⟨word, words, hwords⟩ := List.exists_cons_of_ne_nil (wordsAfter_ne_nil (some c) cs)
    have hrest : c.toLower :: snakeChars (some c) cs =
        ['_'].intercalate ((c.toLower :: word) :: words) := by
      rw [ih (some c) hcs, hwords]
      cases words with
      | nil => rfl
      | cons next words => rfl
    rw [snakeChars_cons prev hc, wordsAfter, hwords, List.modifyHead_cons, hrest]
    split_ifs
    · rw [List.intercalate_cons_cons, List.nil_append]
    · rfl

/-- A cut after a word is one after a longer word. -/
theorem isChain_cons_cons {c d : Char} {word : List Char} {words : List (List Char)}
    (h : ((d :: word) :: words).IsChain CutApart) :
    ((c :: d :: word) :: words).IsChain CutApart := by
  cases words with
  | nil => exact .singleton _
  | cons next words =>
    obtain ⟨hcut, hrest⟩ := List.isChain_cons_cons.1 h
    refine List.isChain_cons_cons.2 ⟨⟨?_, hcut.2⟩, hrest⟩
    rw [List.getLast?_cons_cons]
    exact hcut.1

/-- **No cut is next to an underscore.**  The word that `p` ends goes on with the first of the words
after it. -/
theorem isChain_wordsAfter {p : Char} (hp : isAscii p = true) {cs : List Char}
    (h : ∀ c ∈ cs, isAscii c = true) :
    ((wordsAfter (some p) cs).modifyHead (p.toLower :: ·)).IsChain CutApart ∧
      ∀ word ∈ (wordsAfter (some p) cs).modifyHead (p.toLower :: ·), word ≠ [] := by
  induction cs generalizing p with
  | nil => exact ⟨.singleton _, List.forall_mem_singleton.2 (List.cons_ne_nil _ _)⟩
  | cons c cs ih =>
    obtain ⟨hc, hcs⟩ := List.forall_mem_cons.1 h
    obtain ⟨hchain, hne⟩ := ih hc hcs
    obtain ⟨word, words, hwords⟩ := List.exists_cons_of_ne_nil (wordsAfter_ne_nil (some c) cs)
    rw [hwords, List.modifyHead_cons] at hchain hne
    rw [wordsAfter, hwords, List.modifyHead_cons]
    split_ifs with hcut
    · obtain ⟨hbefore, hafter⟩ := ne_underscore_of_isCut hcut
      refine ⟨List.isChain_cons_cons.2 ⟨⟨?_, ?_⟩, hchain⟩,
        List.forall_mem_cons.2 ⟨List.cons_ne_nil _ _, hne⟩⟩
      · exact fun hlast => toLower_ne_underscore hp hbefore (Option.some.inj hlast)
      · exact fun hhead => toLower_ne_underscore hc hafter (Option.some.inj hhead)
    · exact ⟨isChain_cons_cons hchain,
        List.forall_mem_cons.2 ⟨List.cons_ne_nil _ _, (List.forall_mem_cons.1 hne).2⟩⟩

/-! ### Snake case again -/

/-- Snake case has no upper case. -/
theorem not_isUpper_of_mem_snakeChars (prev : Option Char) {cs : List Char}
    (h : ∀ c ∈ cs, isAscii c = true) : ∀ d ∈ snakeChars prev cs, isUpper d = false := by
  induction cs generalizing prev with
  | nil => exact List.forall_mem_nil _
  | cons c cs ih =>
    obtain ⟨hc, hcs⟩ := List.forall_mem_cons.1 h
    rw [snakeChars_cons prev hc]
    refine List.forall_mem_append.2 ⟨?_, List.forall_mem_cons.2 ⟨isUpper_toLower hc, ih _ hcs⟩⟩
    split_ifs
    · exact List.forall_mem_singleton.2 (by decide)
    · exact List.forall_mem_nil _

/-- **A text without upper case** is its own snake case. -/
theorem snakeChars_of_not_isUpper (prev : Option Char) {cs : List Char}
    (h : ∀ c ∈ cs, isUpper c = false) : snakeChars prev cs = cs := by
  induction cs generalizing prev with
  | nil => rfl
  | cons c cs ih =>
    obtain ⟨hc, hcs⟩ := List.forall_mem_cons.1 h
    rw [snakeChars, hc, if_neg Bool.false_ne_true, ih _ hcs, List.singleton_append]

/-- **Snake case keeps the shape of an identifier,** since nothing is put before its first
character. -/
theorem isIdentifier_snakeCase {name : String} (h : isIdentifier name = true) :
    isIdentifier (snakeCase name) = true := by
  have hascii := isAscii_of_isIdentifier h
  have hall := all_isNameChar_snakeCase h
  unfold isIdentifier at h ⊢
  unfold snakeCase at hall ⊢
  rw [String.toList_ofList] at hall ⊢
  split at h
  · rename_i c cs heq
    rw [heq] at hall hascii ⊢
    have hfirst : isCut none c cs.head? = false := Bool.and_false _
    rw [snakeChars_cons none (hascii c List.mem_cons_self), hfirst, if_neg Bool.false_ne_true,
      List.nil_append] at hall ⊢
    rw [List.all_cons, Bool.and_eq_true] at hall
    have hstart : (isAsciiLetter c || decide (c = '_')) = true →
        (isAsciiLetter c.toLower || decide (c.toLower = '_')) = true :=
      of_isAscii (P := fun c => (isAsciiLetter c || decide (c = '_')) = true →
        (isAsciiLetter c.toLower || decide (c.toLower = '_')) = true) (by decide)
        (hascii c List.mem_cons_self)
    exact Bool.and_eq_true_iff.2 ⟨hstart (Bool.and_eq_true_iff.1 h).1, hall.2⟩
  · cases h

/-- **Snake case of an identifier** is an identifier without upper case, and its own snake case.
But for underscores it is the name in lower case.  It is the words of the name in lower case, which
still have every underscore of the name, joined by underscores that are not next to another one. -/
theorem snakeCase_words {name : String} (h : isIdentifier name = true) :
    isIdentifier (snakeCase name) = true ∧
    (∀ c ∈ (snakeCase name).toList, isUpper c = false) ∧
    snakeCase (snakeCase name) = snakeCase name ∧
    (snakeCase name).toList.filter (· ≠ '_') =
      (name.toList.filter (· ≠ '_')).map Char.toLower ∧
    ∃ words : List (List Char),
      words.flatten = name.toList.map Char.toLower ∧
      (snakeCase name).toList = ['_'].intercalate words ∧
      (∀ word ∈ words, word ≠ []) ∧ words.IsChain CutApart := by
  have hascii := isAscii_of_isIdentifier h
  have htext : (snakeCase name).toList = snakeChars none name.toList := String.toList_ofList
  have hlower := not_isUpper_of_mem_snakeChars none hascii
  have hagain : snakeCase (snakeCase name) = snakeCase name := by
    rw [snakeCase, htext, snakeChars_of_not_isUpper none hlower, snakeCase]
  refine ⟨isIdentifier_snakeCase h, htext ▸ hlower, hagain, ?_, wordsAfter none name.toList,
    flatten_wordsAfter none _, htext.trans (snakeChars_eq_intercalate none hascii), ?_⟩
  · rw [htext, filter_snakeChars none hascii]
  · -- nothing is put before the first character, so the words are those that it begins
    unfold isIdentifier at h
    split at h
    · rename_i c cs heq
      rw [heq] at hascii ⊢
      obtain ⟨hc, hcs⟩ := List.forall_mem_cons.1 hascii
      obtain ⟨hchain, hne⟩ := isChain_wordsAfter hc hcs
      have hfirst : isCut none c cs.head? = false := Bool.and_false _
      rw [wordsAfter, hfirst, if_neg Bool.false_ne_true]
      exact ⟨hne, hchain⟩
    · cases h

theorem snakeCase_words_acronym :
    isIdentifier "HTTP_ServerID2" = true ∧ snakeCase "HTTP_ServerID2" = "http_server_id2" ∧
    isIdentifier "http_server_id2" = true ∧ snakeCase "http_server_id2" = "http_server_id2" ∧
    ∃ words : List (List Char), words.flatten = "http_serverid2".toList ∧
      "http_server_id2".toList = ['_'].intercalate words ∧
      (∀ word ∈ words, word ≠ []) ∧ words.IsChain CutApart := by
  have hname : isIdentifier "HTTP_ServerID2" = true := by decide
  have hsnake : snakeCase "HTTP_ServerID2" = "http_server_id2" := by decide
  obtain ⟨hidentifier, -, hagain, -, words, hflatten, hjoined, hwords⟩ := snakeCase_words hname
  rw [hsnake] at hidentifier hagain hjoined
  have hlower : "HTTP_ServerID2".toList.map Char.toLower = "http_serverid2".toList := by decide
  exact ⟨hname, hsnake, hidentifier, hagain, words, hflatten.trans hlower, hjoined, hwords⟩

end Scaffold.Naming
