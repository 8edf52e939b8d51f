import Scaffold.Proofs.Naming

/-!
# Names that have one snake case

Snake case loses how a name is written: `FooBar`, `Foo_Bar` and `fooBar` all become `foo_bar`, and
`HTTPServer` and `HttpServer` become `http_server`.  What it keeps are the letters and digits but
not their case, so only names that agree in these can have one snake case
(`bareChars_eq_of_snakeCase_eq`).  It can be read back if a name is in plain Pascal case: if it has
only letters and digits, begins in upper case, and no two characters in a row are upper case.  Then
every upper-case character except the first has an underscore before it
(`pascalChars_snakeChars`), so no two of these names have one snake case (`eq_of_snakeCase_eq`).
-/

namespace Scaffold.Naming

open Text

/-! ### What snake case keeps -/

/-- The letters and digits of a name, in lower case. -/
def bareChars (name : String) : List Char :=
  (name.toList.filter (· ≠ '_')).map Char.toLower

/-- What becomes of an upper-case character is a lower-case one, which tells what it was. -/
theorem toLower_of_isUpper {c : Char} (hc : isAscii c = true) (h : isUpper c = true) :
    c ≠ '_' ∧ c.toLower ≠ '_' ∧ c.toLower.toUpper = c :=
  of_isAscii (P := fun c => isUpper c = true → c ≠ '_' ∧ c.toLower ≠ '_' ∧ c.toLower.toUpper = c)
    (by decide) hc h

theorem toLower_of_not_isUpper {c : Char} (hc : isAscii c = true) (h : isUpper c = false) :
    c.toLower = c :=
  of_isAscii (P := fun c => isUpper c = false → c.toLower = c) (by decide) hc h

/-- Without underscores, snake case is a name in lower case. -/
theorem filter_snakeChars (prev : Option Char) {cs : List Char} (h : ∀ c ∈ cs, isAscii c = true) :
    (snakeChars prev cs).filter (· ≠ '_') = (cs.filter (· ≠ '_')).map Char.toLower := by
  induction cs generalizing prev with
  | nil => rfl
  | cons c cs ih =>
    obtain ⟨hc, hcs⟩ := List.forall_mem_cons.1 h
    have hfirst : (if isUpper c then
        (if isBoundary prev cs.head? then ['_'] else []) ++ lowerOf c else [c]).filter (· ≠ '_') =
          ([c].filter (· ≠ '_')).map Char.toLower := by
      cases hupper : isUpper c with
      | true =>
        obtain ⟨hne, hlower, -⟩ := toLower_of_isUpper hc hupper
        -- an underscore that is put before the character does not count
        rw [if_pos rfl, lowerOf, if_pos hc]
        split_ifs <;> simp [hne, hlower]
      | false =>
        have hsame := toLower_of_not_isUpper hc hupper
        rw [if_neg Bool.false_ne_true]
        by_cases hne : c = '_' <;> simp [hne, hsame]
    rw [snakeChars, List.filter_append, hfirst, ih (some c) hcs, ← List.map_append,
      ← List.filter_append, List.singleton_append]

/-- **Names that have one snake case** differ in underscores and in case only. -/
theorem bareChars_eq_of_snakeCase_eq {a b : String} (ha : isIdentifier a = true)
    (hb : isIdentifier b = true) (h : snakeCase a = snakeCase b) : bareChars a = bareChars b := by
  have hchars : snakeChars none a.toList = snakeChars none b.toList := String.ofList_injective h
  rw [bareChars, bareChars, ← filter_snakeChars none (isAscii_of_isIdentifier ha), hchars,
    filter_snakeChars none (isAscii_of_isIdentifier hb)]

/-! ### What can be read back -/

/-- Whether characters go on in plain Pascal case after `prev`. -/
def isPascalAfter : (prev : Option Char) → List Char → Bool
  | _, [] => true
  | prev, c :: cs =>
    (isAsciiLetter c || isAsciiDigit c) &&
      (if isUpper c then !prev.any isUpper else prev.isSome) && isPascalAfter (some c) cs

/-- Whether a name is in plain Pascal case. -/
def isPascalCase (name : String) : Bool := isPascalAfter none name.toList

/-- The characters of a name in plain Pascal case, read back from its snake case; `initial` tells
whether a word begins. -/
def pascalChars : (initial : Bool) → List Char → List Char
  | _, [] => []
  | initial, c :: cs =>
    if c = '_' then pascalChars true cs
    else (if initial then c.toUpper else c) :: pascalChars false cs

/-- After a letter or digit that is not in upper case, a word begins with an underscore. -/
theorem isBoundary_of_not_isUpper {p : Char} (hp : (isAsciiLetter p || isAsciiDigit p) = true)
    (hupper : isUpper p = false) (next : Option Char) : isBoundary (some p) next = true := by
  have hascii : isAscii p = true := isAscii_of_isNameChar (by rw [isNameChar, hp, Bool.true_or])
  have hclass : p ≠ '_' ∧ (isLower p || isAsciiDigit p) = true :=
    of_isAscii (P := fun p => (isAsciiLetter p || isAsciiDigit p) = true → isUpper p = false →
      p ≠ '_' ∧ (isLower p || isAsciiDigit p) = true) (by decide) hascii hp hupper
  simp only [isBoundary, if_neg hclass.1, if_pos hclass.2]

/-- **Plain Pascal case is read back** from snake case.  A word begins where there is no character
before, or after an underscore. -/
theorem pascalChars_snakeChars {prev : Option Char} {cs : List Char}
    (hprev : ∀ p ∈ prev, (isAsciiLetter p || isAsciiDigit p) = true)
    (h : isPascalAfter prev cs = true) : pascalChars prev.isNone (snakeChars prev cs) = cs := by
  induction cs generalizing prev with
  | nil => rfl
  | cons c cs ih =>
    rw [isPascalAfter, Bool.and_eq_true, Bool.and_eq_true] at h
    obtain ⟨⟨hchar, hcase⟩, hrest⟩ := h
    have hascii : isAscii c = true :=
      isAscii_of_isNameChar (by rw [isNameChar, hchar, Bool.true_or])
    have hread : pascalChars false (snakeChars (some c) cs) = cs :=
      ih (fun p hp => Option.mem_some_iff.1 hp ▸ hchar) hrest
    rw [snakeChars]
    cases hupper : isUpper c with
    | true =>
      obtain ⟨-, hlower, hback⟩ := toLower_of_isUpper hascii hupper
      -- a word begins here, whether an underscore is written or nothing stands before
      have hword : pascalChars true (lowerOf c ++ snakeChars (some c) cs) = c :: cs := by
        rw [lowerOf, if_pos hascii, List.singleton_append, pascalChars, if_neg hlower, if_pos rfl,
          hback, hread]
      cases prev with
      | none => exact hword
      | some p =>
        have hplain : isUpper p = false := by simpa [hupper] using hcase
        have hboundary := isBoundary_of_not_isUpper (hprev p rfl) hplain cs.head?
        rw [if_pos rfl, if_pos hboundary, List.append_assoc, List.singleton_append, pascalChars,
          if_pos rfl, hword]
    | false =>
      rw [hupper, if_neg Bool.false_ne_true] at hcase
      -- the first character is in upper case, so something stands before this one
      obtain ⟨p, rfl⟩ := Option.isSome_iff_exists.1 hcase
      have hne : c ≠ '_' := by
        rintro rfl
        exact absurd hchar (by decide)
      rw [if_neg Bool.false_ne_true, List.singleton_append, pascalChars, if_neg hne, hread]
      rfl

/-- **Names in plain Pascal case** have different snake cases. -/
theorem eq_of_snakeCase_eq {a b : String} (ha : isPascalCase a = true)
    (hb : isPascalCase b = true) (h : snakeCase a = snakeCase b) : a = b := by
  have hchars : snakeChars none a.toList = snakeChars none b.toList := String.ofList_injective h
  have hread {name : String} (hname : isPascalCase name = true) :
      pascalChars true (snakeChars none name.toList) = name.toList :=
    pascalChars_snakeChars (fun p hp => by cases hp) hname
  refine String.toList_injective ?_
  rw [← hread ha, hchars, hread hb]

end Scaffold.Naming
