import Scaffold.Proofs.Files.Named
import Mathlib.Data.List.Dedup
import Mathlib.Data.List.Induction

/-!
# Trees of files

In a tree of files (`IsTree`) there is one entry at each location, every entry is in a directory,
and all names can be followed.  Making directories and writing files keeps a file system a tree
(`IsTree.makeDirectories`, `IsTree.write`), hence every file system that is made from the empty one
is one.

A `Listing` tells the names in each directory, in whatever order.  In a tree a name that is listed
leads to a directory exactly where a directory has that name, and the path is not too long
(`isDirectory_join_iff`).
-/

namespace Scaffold.Files

/-! ### One directory after another -/

/-- The path at the end of a way from a directory, seen from one directory after another. -/
def pathTo (base : String) (way : List String) : String := way.foldl join base

theorem pathTo_concat (base : String) (way : List String) (name : String) :
    pathTo base (way ++ [name]) = join (pathTo base way) name := by
  rw [pathTo, List.foldl_concat, pathTo]

theorem pathTo_append (base : String) (way rest : List String) :
    pathTo base (way ++ rest) = pathTo (pathTo base way) rest := List.foldl_append

/-- A path behind one that does not end in a slash. -/
theorem join_join (base : String) {a b : String} (ha : isAbsolute a = false)
    (hlast : ∃ c, a.toList.getLast? = some c ∧ c ≠ '/') (hb : isAbsolute b = false) :
    join (join base a) b = join base (a ++ "/" ++ b) := by
  obtain ⟨c, hc, hslash⟩ := hlast
  have hopen (front : String) : join (front ++ a) b = front ++ a ++ "/" ++ b := by
    have hend : (front ++ a).toList.getLast? = some c := by
      rw [String.toList_append, List.getLast?_append, hc, Option.some_or]
    rw [join, hb, if_neg Bool.false_ne_true, hend, Option.all_some, decide_eq_false hslash,
      if_neg Bool.false_ne_true]
  have hne : a ≠ "" := by
    rintro rfl
    cases hc
  have hab : isAbsolute (a ++ "/" ++ b) = false := by
    rw [String.append_assoc, isAbsolute_append hne, ha]
  rw [join.eq_def base a, join.eq_def base (a ++ "/" ++ b), ha, hab, if_neg Bool.false_ne_true,
    if_neg Bool.false_ne_true]
  split_ifs
  · rw [hopen]
    simp only [String.append_assoc]
  · rw [hopen]
    simp only [String.append_assoc]

theorem intercalate_concat {way : List String} (hne : way ≠ []) (name : String) :
    "/".intercalate (way ++ [name]) = "/".intercalate way ++ "/" ++ name := by
  induction way with
  | nil => exact absurd rfl hne
  | cons first rest ih =>
    cases rest with
    | nil => rfl
    | cons next rest =>
      rw [List.cons_append, List.cons_append, String.intercalate_cons_cons,
        String.intercalate_cons_cons, ← List.cons_append, ih (List.cons_ne_nil _ _)]
      simp only [String.append_assoc]

/-- The last name of a way ends it. -/
theorem exists_getLast?_intercalate {way : List String} (hne : way ≠ [])
    (h : ∀ name ∈ way, isName name = true) :
    ∃ c, ("/".intercalate way).toList.getLast? = some c ∧ c ≠ '/' := by
  induction way using List.reverseRecOn with
  | nil => exact absurd rfl hne
  | append_singleton way name =>
    obtain ⟨hstep, -, hslash⟩ := isName_iff.1 (h name (List.mem_append_right _ List.mem_cons_self))
    cases hlast : name.toList.getLast? with
    | none =>
      rw [String.toList_eq_nil_iff.1 (List.getLast?_eq_none_iff.1 hlast)] at hstep
      cases hstep
    | some c =>
      refine ⟨c, ?_, fun hc => hslash (hc ▸ List.mem_of_getLast? hlast)⟩
      by_cases hway : way = []
      · rw [hway, List.nil_append, String.intercalate_singleton, hlast]
      · rw [intercalate_concat hway, String.toList_append, List.getLast?_append, hlast,
          Option.some_or]

/-- One directory after another leads where the whole way leads at once. -/
theorem pathTo_eq_pathBelow (base : String) {way : List String} (hne : way ≠ [])
    (h : ∀ name ∈ way, isName name = true) : pathTo base way = pathBelow base way := by
  induction way using List.reverseRecOn with
  | nil => exact absurd rfl hne
  | append_singleton way name ih =>
    rw [List.forall_mem_append, List.forall_mem_singleton] at h
    obtain ⟨hway, hname⟩ := h
    rw [pathTo_concat, pathBelow]
    by_cases hempty : way = []
    · rw [hempty, List.nil_append, String.intercalate_singleton]
      rfl
    · rw [ih hempty hway, pathBelow, intercalate_concat hempty,
        join_join base (isAbsolute_intercalate hway) (exists_getLast?_intercalate hempty hway)
          (isAbsolute_of_not_mem (isName_iff.1 hname).2.2)]

theorem placeOf_pathTo (base : String) {way : List String}
    (h : ∀ name ∈ way, isName name = true) : placeOf (pathTo base way) = placeOf base ++ way := by
  by_cases hne : way = []
  · rw [hne, List.append_nil]
    rfl
  · rw [pathTo_eq_pathBelow base hne h, placeOf_pathBelow base hne h]

namespace FileSystem

variable {fs later : FileSystem} {place : Location} {base path name : String}

/-! ### Trees -/

/-- Whether a name can be followed: it is not too long, and has no character that no path may
have. -/
def fits (name : String) : Bool := !isLongName name && name.toList.all (·.toNat ≠ 0)

theorem fits_iff :
    fits name = true ↔ isLongName name = false ∧ ∀ c ∈ name.toList, c.toNat ≠ 0 := by
  simp [fits]

/-- **Whether the entries are a tree.** -/
structure IsTree (fs : FileSystem) : Prop where
  named : fs.IsNamed
  /-- There is one entry at each location. -/
  distinct : (fs.entries.map (·.1)).Nodup
  /-- Every entry is in a directory. -/
  held : ∀ entry ∈ fs.entries, fs.entry? entry.1.dropLast = some .directory
  fitting : ∀ entry ∈ fs.entries, ∀ name ∈ entry.1, fits name = true

theorem isTree_iff : fs.IsTree ↔ fs.IsNamed ∧ (fs.entries.map (·.1)).Nodup ∧
    (∀ entry ∈ fs.entries, fs.entry? entry.1.dropLast = some .directory) ∧
      ∀ entry ∈ fs.entries, ∀ name ∈ entry.1, fits name = true :=
  ⟨fun h => ⟨h.named, h.distinct, h.held, h.fitting⟩, fun ⟨h₁, h₂, h₃, h₄⟩ => ⟨h₁, h₂, h₃, h₄⟩⟩

instance (fs : FileSystem) : Decidable fs.IsTree := decidable_of_iff _ isTree_iff.symm

namespace IsTree

theorem empty : IsTree {} := by decide

/-- What is listed at a location is there. -/
theorem entry?_of_mem (h : fs.IsTree) {e : Entry} (hmem : (place, e) ∈ fs.entries)
    (hgiven : place.isGiven = false) : fs.entry? place = some e := by
  cases hentry : fs.entry? place with
  | none => exact absurd hentry (entry?_ne_none hmem)
  | some e' =>
    have hsame := List.inj_on_of_nodup_map h.distinct (mem_entries hentry hgiven) hmem rfl
    exact congrArg some (Prod.mk.inj hsame).2

theorem isNamed_of_directory (h : fs.IsTree) (hplace : fs.entry? place = some .directory) :
    place.IsNamed := by
  cases hgiven : place.isGiven with
  | true => exact Location.isNamed_of_isGiven hgiven
  | false => exact h.named _ (mem_entries hplace hgiven)

theorem fits_of_mem_directory (h : fs.IsTree) (hplace : fs.entry? place = some .directory) :
    ∀ name ∈ place, fits name = true := by
  intro name hname
  cases hgiven : place.isGiven with
  | true =>
    have hout : Location.leadsOut name = true := List.all_eq_true.1 hgiven name hname
    rcases Bool.or_eq_true_iff.1 hout with hup | hroot
    · rw [of_decide_eq_true hup]
      decide
    · rw [of_decide_eq_true hroot]
      decide
  | false => exact h.fitting _ (mem_entries hplace hgiven) name hname

/-- Above a directory there is a directory. -/
theorem entry?_above (h : fs.IsTree) (hplace : fs.entry? place = some .directory) :
    fs.entry? place.above = some .directory := by
  unfold Location.above
  split_ifs with hroot hgiven
  · exact hplace
  · exact entry?_of_isGiven (Location.isGiven_up hgiven)
  · exact h.held _ (mem_entries hplace (Bool.eq_false_iff.2 hgiven))

/-- A tree has directories all along a way to an entry. -/
theorem entry?_of_append (h : fs.IsTree) {rest : List String} (hrest : rest ≠ []) {e : Entry}
    (hentry : fs.entry? (place ++ rest) = some e) : fs.entry? place = some .directory := by
  induction rest using List.reverseRecOn generalizing e with
  | nil => exact absurd rfl hrest
  | append_singleton rest name ih =>
    rw [← List.append_assoc] at hentry
    have hholds : fs.entry? (place ++ rest) = some .directory := by
      cases hgiven : Location.isGiven (place ++ rest ++ [name]) with
      | true =>
        refine entry?_of_isGiven ?_
        rw [Location.isGiven, List.all_append] at hgiven
        exact (Bool.and_eq_true_iff.1 hgiven).1
      | false =>
        have hheld := h.held _ (mem_entries hentry hgiven)
        rwa [List.dropLast_concat] at hheld
    cases rest with
    | nil => rwa [List.append_nil] at hholds
    | cons first rest => exact ih (List.cons_ne_nil _ _) hholds

/-- A tree grows by an entry in a directory. -/
theorem put (h : fs.IsTree) (hplace : fs.entry? place = some .directory)
    (hname : isName name = true) (hfits : fits name = true)
    (hentry : fs.entry? (place ++ [name]) ≠ some .directory) (e : Entry) :
    (fs.put (place ++ [name]) e).IsTree := by
  have hput := entry?_put fs (isGiven_of_ne_directory hentry) e
  -- no directory is replaced, so all that was held is held
  have hkept {p : Location} (hp : fs.entry? p = some .directory) :
      FileSystem.entry? (fs.put (place ++ [name]) e) p = some .directory := by
    have hne : p ≠ place ++ [name] := by
      rintro rfl
      exact hentry hp
    rw [hput, Function.update_of_ne hne, hp]
  constructor
  case named => exact h.named.put ((h.isNamed_of_directory hplace).concat hname) e
  case distinct =>
    rw [FileSystem.put, List.map_cons, List.nodup_cons]
    constructor
    · intro hmem
      obtain ⟨entry, hkeep, hsame⟩ := List.mem_map.1 hmem
      exact bne_iff_ne.1 (List.mem_filter.1 hkeep).2 hsame
    · exact h.distinct.sublist (List.filter_sublist.map _)
  case held =>
    intro entry hmem
    apply hkept
    rcases List.mem_cons.1 hmem with rfl | hmem
    · rwa [List.dropLast_concat]
    · exact h.held entry (List.mem_filter.1 hmem).1
  case fitting =>
    intro entry hmem n hn
    rcases List.mem_cons.1 hmem with rfl | hmem
    · rcases List.mem_append.1 hn with hn | hn
      · exact h.fits_of_mem_directory hplace n hn
      · rwa [List.mem_singleton.1 hn]
    · exact h.fitting entry (List.mem_filter.1 hmem).1 n hn

theorem makeAlong (h : fs.IsTree) (hplace : fs.entry? place = some .directory)
    (hchars : ∀ c ∈ path.toList, c.toNat ≠ 0) {rest : List String}
    (hrest : ∀ piece ∈ rest, piece ∈ pieces path) : (fs.makeAlong place rest).2.IsTree := by
  fun_induction FileSystem.makeAlong fs place rest with
  | case1 fs place => exact h
  | case2 fs place piece rest hstep ih => exact ih h hplace (List.forall_mem_cons.1 hrest).2
  | case3 fs place rest hstep ih =>
    exact ih h (h.entry?_above hplace) (List.forall_mem_cons.1 hrest).2
  | case4 fs place piece rest hstep hup hlong => exact h
  | case5 fs place piece rest hstep hup hlong next hentry ih =>
    exact ih h hentry (List.forall_mem_cons.1 hrest).2
  | case6 fs place piece rest hstep hup hlong next e hne hentry => exact h
  | case7 fs place piece rest hstep hup hlong next hentry hdot => exact h
  | case8 fs place piece rest hstep hup hlong next hentry hdot ih =>
    obtain ⟨hpiece, hrest⟩ := List.forall_mem_cons.1 hrest
    have hstep : isStep piece = true := by simpa using hstep
    have hfits : fits piece = true :=
      fits_iff.2 ⟨Bool.eq_false_iff.2 hlong, fun c hc => hchars c (mem_of_mem_pieces hpiece hc)⟩
    have hne : fs.entry? next ≠ some .directory := by
      rw [hentry]
      intro hsome
      cases hsome
    refine ih (h.put hplace (isName_of_mem_pieces hpiece hstep hup) hfits hne .directory) ?_ hrest
    rw [entry?_put fs (isGiven_of_ne_directory hne), Function.update_self]

/-- **Making directories** keeps a tree one. -/
theorem makeDirectories (h : fs.IsTree) (path : String) : (fs.makeDirectories path).2.IsTree := by
  unfold FileSystem.makeDirectories
  split_ifs
  · exact h
  · cases hfault : pathFault? path with
    | some fault => exact h
    | none =>
      exact h.makeAlong (entry?_of_isGiven (Location.isGiven_start path))
        (pathFault?_eq_none_iff.1 hfault).1 fun _ hp => hp

/-- **Writing a file** keeps a tree one. -/
theorem write (h : fs.IsTree) {content : Entry} (hwrite : fs.write path content = .ok later) :
    later.IsTree := by
  obtain ⟨⟨hfault, ⟨p, hfront, hdirectory⟩, ⟨hstep, hup, hlong⟩, hentry⟩, rfl⟩ :=
    write_eq_ok.1 hwrite
  have hlast : (pieces path).getLastD "" ∈ pieces path := by
    rw [← dropLast_append_pieces path]
    simp
  have hchars := (pathFault?_eq_none_iff.1 hfault).1
  have hfits : fits ((pieces path).getLastD "") = true :=
    fits_iff.2 ⟨hlong, fun c hc => hchars c (mem_of_mem_pieces hlast hc)⟩
  rw [placeOf_eq_concat hfront hstep hup] at hentry ⊢
  exact h.put hdirectory (isName_of_mem_pieces hlast hstep hup) hfits hentry content

end IsTree

/-! ### Paths into directories -/

/-- A path that is seen from a directory is followed from where the directory is. -/
theorem locate_join_eq_ok {p q : Location} (hbase : fs.locate base = .ok p)
    (hpath : isAbsolute path = false) : fs.locate (join base path) = .ok q ↔
      pathFault? (join base path) = none ∧ (pieces path).foldlM fs.step p = .ok q := by
  obtain ⟨front, hpieces, hfront⟩ := exists_pieces_join base hpath
  have hstart : Location.start (join base path) = Location.start base := by
    rw [Location.start, Location.start, isAbsolute_join base hpath]
  have hfollow := (locate_eq_ok.1 hbase).2
  have hleads : front.foldlM fs.step (Location.start base) = .ok p := by
    rcases hfront with hfront | hfront
    · rwa [hfront] at hfollow
    · -- the empty piece at the end leads nowhere
      rw [hfront, List.foldlM_append] at hfollow
      obtain ⟨p', hp', hlast⟩ := bind_eq_ok.1 hfollow
      obtain ⟨p'', hstep, hend⟩ := bind_eq_ok.1 hlast
      obtain rfl := Except.ok.inj hend
      obtain rfl : p' = p'' := (step_eq_ok.1 hstep).2.1
      exact hp'
  rw [locate_eq_ok, hpieces, List.foldlM_append, hstart, hleads, ok_bind]

theorem toNat_ne_zero_of_mem_join (hbase : ∀ c ∈ base.toList, c.toNat ≠ 0)
    (hpath : ∀ c ∈ path.toList, c.toNat ≠ 0) : ∀ c ∈ (join base path).toList, c.toNat ≠ 0 := by
  have hslash : ∀ c ∈ "/".toList, c.toNat ≠ 0 := List.forall_mem_singleton.2 (by decide)
  unfold join
  split_ifs
  · exact hpath
  · rw [String.toList_append]
    exact List.forall_mem_append.2 ⟨hbase, hpath⟩
  · rw [String.toList_append, String.toList_append]
    exact List.forall_mem_append.2 ⟨List.forall_mem_append.2 ⟨hbase, hslash⟩, hpath⟩

theorem utf8ByteSize_lt_join (base : String) (hname : isName name = true) :
    base.utf8ByteSize < (join base name).utf8ByteSize := by
  obtain ⟨hstep, -, hslash⟩ := isName_iff.1 hname
  have hsize := utf8ByteSize_add_le_join base (isAbsolute_of_not_mem hslash)
  have hpos : name.utf8ByteSize ≠ 0 := by
    intro hzero
    rw [String.utf8ByteSize_eq_zero_iff.1 hzero] at hstep
    cases hstep
  omega

theorem utf8ByteSize_le_pathTo (base : String) {way : List String}
    (h : ∀ name ∈ way, isName name = true) :
    base.utf8ByteSize ≤ (pathTo base way).utf8ByteSize := by
  induction way generalizing base with
  | nil => exact Nat.le_refl _
  | cons name rest ih =>
    obtain ⟨hname, hrest⟩ := List.forall_mem_cons.1 h
    have hfirst := utf8ByteSize_lt_join base hname
    have hlast : (join base name).utf8ByteSize ≤ (pathTo base (name :: rest)).utf8ByteSize :=
      ih (join base name) hrest
    omega

/-- A name in a directory leads to a directory where a directory has that name, and the path is
not too long. -/
theorem IsTree.isDirectory_join_iff (h : fs.IsTree) (hbase : fs.isDirectory base = true)
    (hname : isName name = true) {e : Entry}
    (hentry : fs.entry? (placeOf base ++ [name]) = some e) :
    fs.isDirectory (join base name) = true ↔
      e = .directory ∧ isLongPath (join base name) = false := by
  obtain ⟨hlocate, hdirectory⟩ := isDirectory_iff.1 hbase
  obtain ⟨hstep, -, hslash⟩ := isName_iff.1 hname
  rw [isDirectory_iff, placeOf_join_of_isName base hname, hentry,
    locate_join_eq_ok hlocate (isAbsolute_of_not_mem hslash), pathFault?_eq_none_iff,
    pieces_of_not_mem hslash, Option.some.injEq]
  constructor
  · rintro ⟨⟨⟨-, -, hlong⟩, -⟩, he⟩
    exact ⟨he, hlong⟩
  · rintro ⟨rfl, hlong⟩
    have hmem := mem_entries hentry (isGiven_append (leadsOut_of_isName hname) _ _)
    have hfits := fits_iff.1 (h.fitting _ hmem name (List.mem_append_right _ List.mem_cons_self))
    have hchars := (pathFault?_eq_none_iff.1 (locate_eq_ok.1 hlocate).1).1
    have hne : join base name ≠ "" := by
      intro hempty
      have hsize := utf8ByteSize_lt_join base hname
      rw [hempty] at hsize
      exact absurd hsize (Nat.not_lt_zero _)
    refine ⟨⟨⟨toNat_ne_zero_of_mem_join hchars hfits.2, hne, hlong⟩, ?_⟩, rfl⟩
    have hfollowed : fs.step (placeOf base) name = .ok (placeOf base ++ [name]) := by
      refine step_eq_ok.2 ⟨hdirectory, Location.follow_of_isName hname, fun _ _ => ⟨hfits.1, ?_⟩⟩
      rw [hentry]
      rfl
    rw [List.foldlM_cons, hfollowed]
    rfl

/-! ### Listings -/

/-- The name of an entry of a directory. -/
abbrev Name := {name : String // isName name = true}

/-- **The names in each directory,** in the order in which they are listed. -/
structure Listing (fs : FileSystem) where
  names : (path : String) → List Name
  nodup : ∀ path, (names path).Nodup
  /-- All that is in a directory is listed. -/
  mem_iff : ∀ path, fs.isDirectory path = true → ∀ name : Name,
    name ∈ names path ↔ (fs.entry? (placeOf path ++ [name.1])).isSome = true

namespace Listing

/-- The name of an entry, if it is in the directory at a place. -/
def nameIn? (place there : Location) : Option Name :=
  there.getLast?.bind fun name =>
    if h : isName name = true ∧ there = place ++ [name] then some ⟨name, h.1⟩ else none

theorem nameIn?_eq_some {there : Location} {name : Name} :
    nameIn? place there = some name ↔ there = place ++ [name.1] := by
  unfold nameIn?
  rw [Option.bind_eq_some_iff]
  constructor
  · rintro ⟨n, -, hname⟩
    split_ifs at hname with h
    obtain rfl := Option.some.inj hname
    exact h.2
  · rintro rfl
    refine ⟨name.1, List.getLast?_concat, ?_⟩
    rw [dif_pos ⟨name.2, rfl⟩]

/-- Names in the order of the entries. -/
def ofEntries (fs : FileSystem) : fs.Listing where
  names path := (fs.entries.filterMap fun entry => nameIn? (placeOf path) entry.1).dedup
  nodup path := List.nodup_dedup _
  mem_iff path hpath name := by
    rw [List.mem_dedup, List.mem_filterMap]
    constructor
    · rintro ⟨⟨there, e⟩, hmem, hname⟩
      rw [← nameIn?_eq_some.1 hname]
      exact Option.isSome_iff_ne_none.2 (entry?_ne_none hmem)
    · intro hsome
      obtain ⟨e, hentry⟩ := Option.isSome_iff_exists.1 hsome
      have hgiven := isGiven_append (leadsOut_of_isName name.2) (placeOf path) []
      exact ⟨_, mem_entries hentry hgiven, nameIn?_eq_some.2 rfl⟩

/-- Names in another order. -/
def reordered {fs : FileSystem} (listing : fs.Listing) (order : List Name → List Name)
    (horder : ∀ names, (order names).Perm names) : fs.Listing where
  names path := order (listing.names path)
  nodup path := (horder _).nodup_iff.2 (listing.nodup path)
  mem_iff path hpath name := by
    rw [(horder _).mem_iff]
    exact listing.mem_iff path hpath name

end Listing

end FileSystem

end Scaffold.Files
