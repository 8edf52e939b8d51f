import Scaffold.Files.System
import Mathlib.Data.List.Basic

/-!
# Where paths lead

A path that is seen from a directory has the pieces of the directory before its own
(`exists_pieces_join`).  Where everything that a path names is there, the path leads to `placeOf`:
its pieces are followed one after another.  So a way of proper names leads from the place of a
directory to the place below it by the same names (`placeOf_pathBelow`).
-/

namespace Scaffold

namespace Text

variable {sep : Char}

theorem splitAtChar_ne_nil (cs : List Char) : splitAtChar sep cs ≠ [] := by
  cases cs with
  | nil => exact List.cons_ne_nil _ _
  | cons c cs =>
    rw [splitAtChar]
    split
    · exact List.cons_ne_nil _ _
    · split_ifs <;> exact List.cons_ne_nil _ _

theorem splitAtChar_cons_self (cs : List Char) :
    splitAtChar sep (sep :: cs) = [] :: splitAtChar sep cs := by
  rw [splitAtChar]
  split
  · rename_i h
    exact absurd h (splitAtChar_ne_nil cs)
  · rename_i piece pieces h
    rw [if_pos rfl, h]

/-- A text is cut at a separator. -/
theorem splitAtChar_append (as bs : List Char) :
    splitAtChar sep (as ++ sep :: bs) = splitAtChar sep as ++ splitAtChar sep bs := by
  induction as with
  | nil => exact splitAtChar_cons_self bs
  | cons a as ih =>
    rw [List.cons_append, splitAtChar, splitAtChar, ih]
    cases h : splitAtChar sep as with
    | nil => exact absurd h (splitAtChar_ne_nil as)
    | cons piece pieces =>
      dsimp only [List.cons_append]
      split_ifs <;> rfl

theorem splitAtChar_of_not_mem {cs : List Char} (h : sep ∉ cs) : splitAtChar sep cs = [cs] := by
  induction cs with
  | nil => rfl
  | cons c cs ih =>
    rw [List.mem_cons, not_or] at h
    rw [splitAtChar, ih h.2]
    exact if_neg fun hc => h.1 hc.symm

theorem not_mem_of_mem_splitAtChar {cs piece : List Char} (h : piece ∈ splitAtChar sep cs) :
    sep ∉ piece := by
  induction cs generalizing piece with
  | nil =>
    obtain rfl := List.mem_singleton.1 h
    exact List.not_mem_nil
  | cons c cs ih =>
    rw [splitAtChar] at h
    cases hcs : splitAtChar sep cs with
    | nil => exact absurd hcs (splitAtChar_ne_nil cs)
    | cons first pieces =>
      rw [hcs] at h ih
      dsimp only at h
      split_ifs at h with hc
      · rcases List.mem_cons.1 h with rfl | h
        · exact List.not_mem_nil
        · exact ih h
      · rcases List.mem_cons.1 h with rfl | h
        · rw [List.mem_cons, not_or]
          exact ⟨fun hsep => hc hsep.symm, ih List.mem_cons_self⟩
        · exact ih (List.mem_cons_of_mem _ h)

theorem mem_of_mem_splitAtChar {cs piece : List Char} (h : piece ∈ splitAtChar sep cs) {c : Char}
    (hc : c ∈ piece) : c ∈ cs := by
  induction cs generalizing piece with
  | nil =>
    obtain rfl := List.mem_singleton.1 h
    exact hc
  | cons d cs ih =>
    rw [splitAtChar] at h
    cases hcs : splitAtChar sep cs with
    | nil => exact absurd hcs (splitAtChar_ne_nil cs)
    | cons first pieces =>
      rw [hcs] at h ih
      dsimp only at h
      split_ifs at h with hd
      · rcases List.mem_cons.1 h with rfl | h
        · exact absurd hc List.not_mem_nil
        · exact List.mem_cons_of_mem _ (ih h hc)
      · rcases List.mem_cons.1 h with rfl | h
        · rcases List.mem_cons.1 hc with rfl | hc
          · exact List.mem_cons_self
          · exact List.mem_cons_of_mem _ (ih List.mem_cons_self hc)
        · exact List.mem_cons_of_mem _ (ih (List.mem_cons_of_mem _ h) hc)

end Text

namespace Files

open Text

/-! ### Pieces -/

theorem pieces_append_slash (a b : String) : pieces (a ++ "/" ++ b) = pieces a ++ pieces b := by
  have hcut : (a ++ "/" ++ b).toList = a.toList ++ '/' :: b.toList := by
    rw [String.toList_append, String.toList_append, List.append_assoc]
    rfl
  rw [pieces, hcut, splitAtChar_append, List.map_append]
  rfl

theorem pieces_of_not_mem {name : String} (h : '/' ∉ name.toList) : pieces name = [name] := by
  rw [pieces, splitAtChar_of_not_mem h, List.map_singleton, String.ofList_toList]

theorem not_mem_of_mem_pieces {path piece : String} (h : piece ∈ pieces path) :
    '/' ∉ piece.toList := by
  obtain ⟨cs, hcs, rfl⟩ := List.mem_map.1 h
  rw [String.toList_ofList]
  exact not_mem_of_mem_splitAtChar hcs

theorem mem_of_mem_pieces {path piece : String} (h : piece ∈ pieces path) {c : Char}
    (hc : c ∈ piece.toList) : c ∈ path.toList := by
  obtain ⟨cs, hcs, rfl⟩ := List.mem_map.1 h
  rw [String.toList_ofList] at hc
  exact mem_of_mem_splitAtChar hcs hc

/-- A path without slashes at its start has the pieces of `base` before its own; an empty piece at
the end of `base` is dropped. -/
theorem exists_pieces_join (base : String) {path : String} (h : isAbsolute path = false) :
    ∃ front, pieces (join base path) = front ++ pieces path ∧
      (pieces base = front ∨ pieces base = front ++ [""]) := by
  rw [join, if_neg (by rw [h]; exact Bool.false_ne_true)]
  split_ifs with hend
  · cases hlast : base.toList.getLast? with
    | none =>
      have hempty : base = "" := String.toList_eq_nil_iff.1 (List.getLast?_eq_none_iff.1 hlast)
      subst hempty
      exact ⟨[], by rw [String.empty_append]; rfl, .inr rfl⟩
    | some c =>
      rw [hlast, Option.all_some, decide_eq_true_eq] at hend
      subst hend
      -- the slash at the end of `base` takes the place of the one between
      obtain ⟨cs, hcs⟩ := List.getLast?_eq_some_iff.1 hlast
      have hbase : base = String.ofList cs ++ "/" := by
        apply String.toList_inj.1
        rw [String.toList_append, String.toList_ofList, hcs]
        rfl
      have hpieces : pieces base = pieces (String.ofList cs) ++ [""] := by
        have hcut := pieces_append_slash (String.ofList cs) ""
        rw [String.append_empty] at hcut
        rw [hbase, hcut]
        rfl
      refine ⟨pieces (String.ofList cs), ?_, .inr hpieces⟩
      rw [hbase, pieces_append_slash]
  · exact ⟨pieces base, pieces_append_slash base path, .inl rfl⟩

theorem isAbsolute_join (base : String) {path : String} (h : isAbsolute path = false) :
    isAbsolute (join base path) = isAbsolute base := by
  rw [join, if_neg (by rw [h]; exact Bool.false_ne_true)]
  unfold isAbsolute at h ⊢
  cases hbase : base.toList with
  | nil => simp [hbase, h]
  | cons c cs =>
    split_ifs
    · rw [String.toList_append, hbase]
      rfl
    · rw [String.toList_append, String.toList_append, hbase]
      rfl

theorem utf8ByteSize_add_le_join (base : String) {path : String} (h : isAbsolute path = false) :
    base.utf8ByteSize + path.utf8ByteSize ≤ (join base path).utf8ByteSize := by
  rw [join, h, if_neg Bool.false_ne_true]
  split_ifs
  · exact Nat.le_of_eq String.utf8ByteSize_append.symm
  · rw [String.utf8ByteSize_append, String.utf8ByteSize_append]
    omega

/-! ### Names -/

/-- Whether a text names an entry of a directory. -/
def isName (name : String) : Bool := isStep name && name ≠ ".." && !name.toList.contains '/'

theorem isName_iff {name : String} :
    isName name = true ↔ isStep name = true ∧ name ≠ ".." ∧ '/' ∉ name.toList := by
  simp [isName, and_assoc]

theorem isAbsolute_of_not_mem {name : String} (h : '/' ∉ name.toList) :
    isAbsolute name = false := by
  rw [isAbsolute, decide_eq_false_iff_not]
  exact fun hhead => h (List.mem_of_head? hhead)

theorem isAbsolute_append {a : String} (h : a ≠ "") (b : String) :
    isAbsolute (a ++ b) = isAbsolute a := by
  have hne : a.toList ≠ [] := fun hnil => h (String.toList_eq_nil_iff.1 hnil)
  rw [isAbsolute, isAbsolute, String.toList_append, List.head?_append_of_ne_nil _ hne]

theorem leadsOut_of_isName {name : String} (h : isName name = true) :
    Location.leadsOut name = false := by
  obtain ⟨-, hup, hslash⟩ := isName_iff.1 h
  have hroot : name ≠ "/" := by
    rintro rfl
    exact hslash (List.mem_singleton.2 rfl)
  simp [Location.leadsOut, hup, hroot]

/-- A location with a name is not given. -/
theorem isGiven_append {name : String} (h : Location.leadsOut name = false) (place : Location)
    (names : List String) : Location.isGiven (place ++ name :: names) = false := by
  rw [Location.isGiven, List.all_append, List.all_cons, h, Bool.false_and, Bool.and_false]

/-- The pieces of a way of names are these names. -/
theorem pieces_intercalate {way : List String} (hne : way ≠ [])
    (h : ∀ name ∈ way, '/' ∉ name.toList) : pieces ("/".intercalate way) = way := by
  induction way with
  | nil => exact absurd rfl hne
  | cons name names ih =>
    obtain ⟨hname, hnames⟩ := List.forall_mem_cons.1 h
    cases names with
    | nil =>
      rw [String.intercalate_singleton]
      exact pieces_of_not_mem hname
    | cons next rest =>
      rw [String.intercalate_cons_cons, pieces_append_slash, pieces_of_not_mem hname,
        ih (List.cons_ne_nil _ _) hnames, List.singleton_append]

theorem isAbsolute_intercalate {way : List String} (h : ∀ name ∈ way, isName name = true) :
    isAbsolute ("/".intercalate way) = false := by
  cases way with
  | nil => rfl
  | cons name names =>
    obtain ⟨hstep, -, hslash⟩ := isName_iff.1 (h name List.mem_cons_self)
    have habsolute := isAbsolute_of_not_mem hslash
    cases names with
    | nil => rwa [String.intercalate_singleton]
    | cons next rest =>
      rw [String.intercalate_cons_cons, isAbsolute, String.toList_append, String.toList_append]
      rw [isAbsolute] at habsolute
      cases hcs : name.toList with
      | nil =>
        obtain rfl := String.toList_eq_nil_iff.1 hcs
        cases hstep
      | cons c cs =>
        rw [hcs] at habsolute
        exact habsolute

/-! ### Places -/

/-- Where a piece leads from a place. -/
def Location.follow (place : Location) (piece : String) : Location :=
  if !isStep piece then place else if piece = ".." then place.above else place ++ [piece]

/-- **The place that a path leads to** where all that it names is there. -/
def placeOf (path : String) : Location := (pieces path).foldl Location.follow (Location.start path)

theorem Location.follow_of_isName {place : Location} {name : String} (h : isName name = true) :
    place.follow name = place ++ [name] := by
  obtain ⟨hstep, hup, -⟩ := isName_iff.1 h
  rw [follow, hstep, if_neg (by decide), if_neg hup]

theorem Location.foldl_follow {place : Location} {way : List String}
    (h : ∀ name ∈ way, isName name = true) : way.foldl follow place = place ++ way := by
  induction way generalizing place with
  | nil => exact (List.append_nil place).symm
  | cons name names ih =>
    obtain ⟨hname, hnames⟩ := List.forall_mem_cons.1 h
    rw [List.foldl_cons, follow_of_isName hname, ih hnames, List.append_assoc,
      List.singleton_append]

/-- A path that is seen from a directory is followed from there. -/
theorem placeOf_join (base : String) {path : String} (h : isAbsolute path = false) :
    placeOf (join base path) = (pieces path).foldl Location.follow (placeOf base) := by
  obtain ⟨front, hpieces, hfront⟩ := exists_pieces_join base h
  have hstart : Location.start (join base path) = Location.start base := by
    rw [Location.start, Location.start, isAbsolute_join base h]
  rw [placeOf, placeOf, hpieces, List.foldl_append, hstart]
  rcases hfront with hfront | hfront
  · rw [hfront]
  · rw [hfront, List.foldl_concat]
    rfl

/-- A way of names leads to the place below a directory by the same names. -/
theorem placeOf_pathBelow (base : String) {way : List String} (hne : way ≠ [])
    (h : ∀ name ∈ way, isName name = true) : placeOf (pathBelow base way) = placeOf base ++ way := by
  rw [pathBelow, placeOf_join base (isAbsolute_intercalate h),
    pieces_intercalate hne fun name hname => (isName_iff.1 (h name hname)).2.2,
    Location.foldl_follow h]

theorem placeOf_join_of_isName (base : String) {name : String} (h : isName name = true) :
    placeOf (join base name) = placeOf base ++ [name] := by
  have hway := placeOf_pathBelow base (List.cons_ne_nil name [])
    (List.forall_mem_singleton.2 h)
  rwa [pathBelow, String.intercalate_singleton] at hway

/-! ### Places below directories -/

/-- Whether a place lies below a directory. -/
def Location.Holds (directory place : Location) : Prop := (directory.below? place).isSome = true

instance (directory place : Location) : Decidable (directory.Holds place) :=
  inferInstanceAs (Decidable (_ = true))

theorem Location.below?_eq_some {directory place : Location} {way : List String} :
    directory.below? place = some way ↔
      place = directory ++ way ∧ ∃ name names, way = name :: names ∧ leadsOut name = false := by
  unfold below?
  constructor
  · intro h
    split_ifs at h with hprefix
    obtain ⟨rest, rfl⟩ := List.isPrefixOf_iff_prefix.1 hprefix
    rw [List.drop_left] at h
    cases rest with
    | nil => cases h
    | cons name names =>
      dsimp only at h
      split_ifs at h with hout
      rw [Bool.not_eq_true] at hout
      obtain rfl := Option.some.inj h
      exact ⟨rfl, name, names, rfl, hout⟩
  · rintro ⟨rfl, name, names, rfl, hout⟩
    rw [if_pos (List.isPrefixOf_iff_prefix.2 (List.prefix_append _ _)), List.drop_left]
    dsimp only
    rw [hout, if_neg Bool.false_ne_true]

theorem Location.holds_iff {directory place : Location} :
    directory.Holds place ↔
      ∃ name names, place = directory ++ name :: names ∧ leadsOut name = false := by
  rw [Holds, Option.isSome_iff_exists]
  constructor
  · rintro ⟨way, h⟩
    obtain ⟨hplace, name, names, rfl, hout⟩ := below?_eq_some.1 h
    exact ⟨name, names, hplace, hout⟩
  · rintro ⟨name, names, hplace, hout⟩
    exact ⟨_, below?_eq_some.2 ⟨hplace, name, names, rfl, hout⟩⟩

/-- Two directories with a place below both are the same, or one lies below the other. -/
theorem Location.eq_or_holds {a b place : Location} (ha : a.Holds place) (hb : b.Holds place) :
    a = b ∨ a.Holds b ∨ b.Holds a := by
  obtain ⟨name, names, rfl, hname⟩ := holds_iff.1 ha
  obtain ⟨name', names', h, hname'⟩ := holds_iff.1 hb
  rcases List.append_eq_append_iff.1 h with ⟨rest, hrest, heq⟩ | ⟨rest, hrest, heq⟩
  · cases rest with
    | nil => exact .inl (by rw [hrest, List.append_nil])
    | cons c cs =>
      obtain rfl : name = c := (List.cons.inj heq).1
      exact .inr (.inl (holds_iff.2 ⟨name, cs, hrest, hname⟩))
  · cases rest with
    | nil => exact .inl (by rw [hrest, List.append_nil])
    | cons c cs =>
      obtain rfl : name' = c := (List.cons.inj heq).1
      exact .inr (.inr (holds_iff.2 ⟨name', cs, hrest, hname'⟩))

end Files

end Scaffold
