import Scaffold.Proofs.Files.Tree
import Scaffold.Proofs.Source.Directory
import Scaffold.Proofs.Source.Reading
import Mathlib.Data.List.Lex
import Mathlib.Data.List.Sort
import Mathlib.Data.String.Basic

/-!
# Walking through crates

A crate can be read by a walk: what is listed in a directory is taken where it is a source file, and
walked through where it is a directory.  A walk finds every file of the crate once (`mem_walk`,
`nodup_walk`), so what is found in order is the same for all listings (`inOrder_walk`), and so is
the tree that is read (`walkTree_eq`).  Its units are those of the source files below the root, in
the order of their ways (`run_ofDirectory_eq_walkTree`).
-/

namespace Scaffold.Source

open Files FileSystem

variable {fs : FileSystem} {root : String}

/-- **The walk through a crate** from the directory at the end of `way`, in the order of a listing:
source files are taken, and directories are walked through, but for the directory `bin` at the
root. -/
def walk (listing : fs.Listing) (root : String) (way : List String) : List (List String) :=
  (listing.names (pathTo root way)).flatMap fun name =>
    if fs.isDirectory (pathTo root (way ++ [name.1])) then
      if way = [] ∧ name.1 = "bin" then [] else walk listing root (way ++ [name.1])
    else if extension? name.1 = some "rs" then [way ++ [name.1]] else []
-- a directory has a longer path than the one that holds it, and no path can be too long
termination_by 4096 - (pathTo root way).utf8ByteSize
decreasing_by
  rename_i hdirectory _
  have hlong := (pathFault?_eq_none_iff.1 (locate_eq_ok.1 (isDirectory_iff.1 hdirectory).1).1).2.2
  have hsize := utf8ByteSize_lt_join (pathTo root way) name.2
  rw [← pathTo_concat] at hsize
  simp only [isLongPath, decide_eq_false_iff_not, not_le] at hlong
  omega

/-- Ways in their order, each compared name by name. -/
def inOrder (ways : List (List String)) : List (List String) :=
  ways.mergeSort fun a b => !decide (b < a)

/-- The tree of the crate in a directory, read in the order of a listing. -/
def walkTree (listing : fs.Listing) (root : String) : Except SourceFault SourceTree :=
  if !fs.isDirectory root then .error (.notADirectory root)
  else do
    let files ← (inOrder (walk listing root [])).mapM (sourceAt fs root)
    (SourceTree.ofFiles files).mapError .malformed

/-! ### Order -/

theorem mem_inOrder {ways : List (List String)} {way : List String} :
    way ∈ inOrder ways ↔ way ∈ ways := List.mem_mergeSort

/-- Ways that are found once stand in a strict order. -/
theorem pairwise_inOrder {ways : List (List String)} (h : ways.Nodup) :
    (inOrder ways).Pairwise (· < ·) := by
  have hle (a b : List String) : (!decide (b < a)) = true ↔ a ≤ b := by
    rw [Bool.not_eq_true', decide_eq_false_iff_not, not_lt]
  have hsorted : (inOrder ways).Pairwise fun a b => (!decide (b < a)) = true := by
    apply List.pairwise_mergeSort
    · intro a b c
      simp only [hle]
      exact le_trans
    · intro a b
      simp only [Bool.or_eq_true, hle]
      exact le_total a b
  have hnodup : (inOrder ways).Nodup := (List.mergeSort_perm ways _).nodup_iff.2 h
  exact hsorted.imp₂ (fun a b hab hne => lt_of_le_of_ne ((hle a b).1 hab) hne) hnodup

-- names are compared, not paths: what is in a directory comes before a file with a longer name
example : ["a", "b.rs"] < ["a.rs"] ∧ "a.rs" < "a/b.rs" := by decide

/-- Ways that are the same but for their order are the same in order. -/
theorem inOrder_eq {ways ways' : List (List String)} (h : ways.Nodup) (h' : ways'.Nodup)
    (hmem : ∀ way, way ∈ ways ↔ way ∈ ways') : inOrder ways = inOrder ways' := by
  refine (pairwise_inOrder h).eq_of_mem_iff (pairwise_inOrder h') fun way => ?_
  rw [mem_inOrder, mem_inOrder, hmem]

/-! ### The ways to files -/

/-- The way to a file from a root leads to an entry below the root. -/
theorem mem_filesBelow_iff (h : fs.IsTree) (hroot : fs.isDirectory root = true)
    {way : List String} : way ∈ fs.filesBelow root ↔
      way ≠ [] ∧ (∀ name ∈ way, isName name = true) ∧
        ∃ e, fs.entry? (placeOf root ++ way) = some e ∧ isListed root way e = true := by
  rw [filesBelow_of_isDirectory hroot, List.mem_filterMap]
  constructor
  · rintro ⟨⟨there, e⟩, hmem, hway⟩
    obtain ⟨hbelow, hlisted⟩ := Option.filter_eq_some_iff.1 hway
    obtain ⟨rfl, name, names, rfl, hout⟩ := Location.below?_eq_some.1 hbelow
    have hnames := (h.named _ hmem).of_append hout
    have hentry := h.entry?_of_mem hmem (isGiven_append hout _ _)
    exact ⟨List.cons_ne_nil _ _, hnames, e, hentry, hlisted⟩
  · rintro ⟨hne, hnames, e, hentry, hlisted⟩
    obtain ⟨name, names, rfl⟩ := List.exists_cons_of_ne_nil hne
    have hout := leadsOut_of_isName (hnames name List.mem_cons_self)
    refine ⟨_, mem_entries hentry (isGiven_append hout _ _), ?_⟩
    rw [Location.below?_eq_some.2 ⟨rfl, name, names, rfl, hout⟩, Option.filter_some, if_pos hlisted]

theorem nodup_filesBelow (h : fs.IsTree) (hroot : fs.isDirectory root = true) :
    (fs.filesBelow root).Nodup := by
  rw [filesBelow_of_isDirectory hroot]
  have hpairs : fs.entries.Pairwise fun entry entry' => entry.1 ≠ entry'.1 :=
    List.pairwise_map.1 h.distinct
  refine List.pairwise_filterMap.2 (hpairs.imp fun {entry entry'} hne way hway way' hway' => ?_)
  have hthere := (Location.below?_eq_some.1 (Option.filter_eq_some_iff.1 hway).1).1
  have hthere' := (Location.below?_eq_some.1 (Option.filter_eq_some_iff.1 hway').1).1
  rintro rfl
  exact hne (hthere.trans hthere'.symm)

/-- Which files belong to a crate. -/
theorem isOfCrate_concat {way : List String} {name : String} : isOfCrate (way ++ [name]) = true ↔
    extension? name = some "rs" ∧ way.head? ≠ some "bin" := by
  unfold isOfCrate
  rw [List.getLast?_concat, Option.bind_some, Bool.and_eq_true_iff, decide_eq_true_eq]
  refine and_congr_right fun _ => ?_
  cases way with
  | nil => simp
  | cons first way => simp

theorem isListed_concat {way : List String} {name : String} {e : Entry} :
    isListed root (way ++ [name]) e = true ↔
      (e = .directory → isLongPath (pathBelow root (way ++ [name])) = true) ∧
        (way ≠ [] → isLongPath (pathBelow root way) = false) := by
  unfold isListed
  rw [List.dropLast_concat]
  cases way with
  | nil => simp [or_iff_not_imp_left]
  | cons first way => simp [or_iff_not_imp_left]

/-- Where the path of a file is not too long, no path of a directory on the way is. -/
theorem isLongPath_of_append {way rest : List String} (hne : way ≠ [])
    (hnames : ∀ name ∈ way ++ rest, isName name = true)
    (h : isLongPath (pathBelow root (way ++ rest)) = false) :
    isLongPath (pathBelow root way) = false := by
  obtain ⟨hway, hrest⟩ := List.forall_mem_append.1 hnames
  have hsize := utf8ByteSize_le_pathTo (pathTo root way) hrest
  rw [← pathTo_append, pathTo_eq_pathBelow root hne hway,
    pathTo_eq_pathBelow root (List.append_ne_nil_of_left_ne_nil hne _) hnames] at hsize
  simp only [isLongPath, decide_eq_false_iff_not, not_le] at h ⊢
  omega

/-! ### Steps of a walk -/

theorem mem_walk_iff {listing : fs.Listing} {way found : List String} :
    found ∈ walk listing root way ↔ ∃ name ∈ listing.names (pathTo root way),
      (fs.isDirectory (pathTo root (way ++ [name.1])) = true ∧ ¬(way = [] ∧ name.1 = "bin") ∧
          found ∈ walk listing root (way ++ [name.1])) ∨
        (fs.isDirectory (pathTo root (way ++ [name.1])) = false ∧ extension? name.1 = some "rs" ∧
          found = way ++ [name.1]) := by
  rw [walk, List.mem_flatMap]
  refine exists_congr fun name => and_congr_right fun _ => ?_
  cases fs.isDirectory (pathTo root (way ++ [name.1])) with
  | true =>
    by_cases hbin : way = [] ∧ name.1 = "bin"
    · simp [hbin]
    · simp [hbin]
  | false =>
    by_cases hrust : extension? name.1 = some "rs"
    · simp [hrust]
    · simp [hrust]

/-- **Whether a walk comes to the end of a way:** there is a directory, and it is outside of the
directory `bin` at the root. -/
structure Reached (fs : FileSystem) (root : String) (way : List String) : Prop where
  names : ∀ name ∈ way, isName name = true
  directory : fs.isDirectory (pathTo root way) = true
  outside : way.head? ≠ some "bin"

namespace Reached

variable {way : List String} {name : Name} {listing : fs.Listing}

theorem start (hroot : fs.isDirectory root = true) : Reached fs root [] :=
  ⟨List.forall_mem_nil _, hroot, nofun⟩

theorem names_concat (h : Reached fs root way) (name : Name) :
    ∀ n ∈ way ++ [name.1], isName n = true :=
  List.forall_mem_append.2 ⟨h.names, List.forall_mem_singleton.2 name.2⟩

theorem next (h : Reached fs root way)
    (hdirectory : fs.isDirectory (pathTo root (way ++ [name.1])) = true)
    (hbin : ¬(way = [] ∧ name.1 = "bin")) : Reached fs root (way ++ [name.1]) := by
  refine ⟨h.names_concat name, hdirectory, ?_⟩
  cases way with
  | nil =>
    intro hhead
    exact hbin ⟨rfl, Option.some.inj hhead⟩
  | cons first way => exact h.outside

theorem mem_names_iff (h : Reached fs root way) : name ∈ listing.names (pathTo root way) ↔
    (fs.entry? (placeOf root ++ (way ++ [name.1]))).isSome = true := by
  rw [listing.mem_iff _ h.directory, placeOf_pathTo root h.names, List.append_assoc]

/-- What is at the end of a way is known as a directory if it is one, and its path not too long. -/
theorem isDirectory_iff (h : Reached fs root way) (htree : fs.IsTree) {e : Entry}
    (hentry : fs.entry? (placeOf root ++ (way ++ [name.1])) = some e) :
    fs.isDirectory (pathTo root (way ++ [name.1])) = true ↔
      e = .directory ∧ isLongPath (pathBelow root (way ++ [name.1])) = false := by
  have hne : way ++ [name.1] ≠ [] := List.append_ne_nil_of_right_ne_nil _ (List.cons_ne_nil _ _)
  rw [← List.append_assoc, ← placeOf_pathTo root h.names] at hentry
  rw [← pathTo_eq_pathBelow root hne (h.names_concat name), pathTo_concat]
  exact htree.isDirectory_join_iff h.directory name.2 hentry

theorem isLongPath_eq_false (h : Reached fs root way) (hne : way ≠ []) :
    isLongPath (pathBelow root way) = false := by
  have hlocate := (FileSystem.isDirectory_iff.1 h.directory).1
  rw [pathTo_eq_pathBelow root hne h.names] at hlocate
  exact (pathFault?_eq_none_iff.1 (locate_eq_ok.1 hlocate).1).2.2

/-- A file in a directory is listed, and not known as a directory. -/
theorem concat_mem_filesBelow_iff (h : Reached fs root way) (htree : fs.IsTree)
    (hroot : fs.isDirectory root = true) : way ++ [name.1] ∈ fs.filesBelow root ↔
      name ∈ listing.names (pathTo root way) ∧
        fs.isDirectory (pathTo root (way ++ [name.1])) = false := by
  rw [mem_filesBelow_iff htree hroot, h.mem_names_iff]
  constructor
  · rintro ⟨-, -, e, hentry, hlisted⟩
    refine ⟨Option.isSome_iff_exists.2 ⟨e, hentry⟩, Bool.eq_false_iff.2 fun hdirectory => ?_⟩
    obtain ⟨he, hlong⟩ := (h.isDirectory_iff htree hentry).1 hdirectory
    rw [(isListed_concat.1 hlisted).1 he] at hlong
    cases hlong
  · rintro ⟨hsome, hfile⟩
    obtain ⟨e, hentry⟩ := Option.isSome_iff_exists.1 hsome
    have hne : way ++ [name.1] ≠ [] := List.append_ne_nil_of_right_ne_nil _ (List.cons_ne_nil _ _)
    refine ⟨hne, h.names_concat name, e, hentry, isListed_concat.2 ⟨fun he => ?_, ?_⟩⟩
    · cases hlong : isLongPath (pathBelow root (way ++ [name.1])) with
      | true => rfl
      | false =>
        rw [(h.isDirectory_iff htree hentry).2 ⟨he, hlong⟩] at hfile
        cases hfile
    · exact h.isLongPath_eq_false

/-- A file further down is in a directory that is listed, and known as one. -/
theorem isDirectory_of_mem_filesBelow (h : Reached fs root way) (htree : fs.IsTree)
    (hroot : fs.isDirectory root = true) {rest : List String} (hrest : rest ≠ [])
    (hfile : way ++ [name.1] ++ rest ∈ fs.filesBelow root) :
    name ∈ listing.names (pathTo root way) ∧
      fs.isDirectory (pathTo root (way ++ [name.1])) = true := by
  obtain ⟨-, hnames, e, hentry, hlisted⟩ := (mem_filesBelow_iff htree hroot).1 hfile
  rw [← List.append_assoc] at hentry
  have hholds := htree.entry?_of_append hrest hentry
  have hne : way ++ [name.1] ≠ [] := List.append_ne_nil_of_right_ne_nil _ (List.cons_ne_nil _ _)
  refine ⟨h.mem_names_iff.2 (Option.isSome_iff_exists.2 ⟨_, hholds⟩),
    (h.isDirectory_iff htree hholds).2 ⟨rfl, ?_⟩⟩
  -- the directory that holds the file has no shorter path
  obtain ⟨before, last, rfl⟩ := (List.eq_nil_or_concat' rest).resolve_left hrest
  rw [← List.append_assoc] at hlisted hnames
  have hlong := (isListed_concat.1 hlisted).2 (List.append_ne_nil_of_left_ne_nil hne _)
  exact isLongPath_of_append hne (List.forall_mem_append.1 hnames).1 hlong

end Reached

/-! ### Whole walks -/

/-- **A walk finds** the files of the crate below the directory that it starts from. -/
theorem mem_walk (htree : fs.IsTree) (hroot : fs.isDirectory root = true) (listing : fs.Listing)
    {way : List String} (h : Reached fs root way) {found : List String} :
    found ∈ walk listing root way ↔ found ∈ fs.filesBelow root ∧ isOfCrate found = true ∧
      ∃ name rest, found = way ++ name :: rest := by
  induction way using @walk.induct fs root with
  | case1 way ih =>
    rw [mem_walk_iff]
    constructor
    · rintro ⟨name, hname, ⟨hdirectory, hbin, hfound⟩ | ⟨hfile, hrust, rfl⟩⟩
      · obtain ⟨hbelow, hcrate, next, rest, rfl⟩ :=
          (ih name hdirectory (h.next hdirectory hbin)).1 hfound
        exact ⟨hbelow, hcrate, name.1, next :: rest, List.append_assoc ..⟩
      · exact ⟨(h.concat_mem_filesBelow_iff htree hroot).2 ⟨hname, hfile⟩,
          isOfCrate_concat.2 ⟨hrust, h.outside⟩, name.1, [], rfl⟩
    · rintro ⟨hbelow, hcrate, first, rest, rfl⟩
      -- whether the file is in the directory itself or further down, the listing has this name
      have hnames := ((mem_filesBelow_iff htree hroot).1 hbelow).2.1
      let name : Name := ⟨first, hnames first (List.mem_append_right _ List.mem_cons_self)⟩
      refine ⟨name, ?_⟩
      cases rest with
      | nil =>
        have hends : way ++ [name.1] ∈ fs.filesBelow root := hbelow
        obtain ⟨hname, hfile⟩ := (h.concat_mem_filesBelow_iff htree hroot).1 hends
        exact ⟨hname, .inr ⟨hfile, (isOfCrate_concat.1 hcrate).1, rfl⟩⟩
      | cons second rest =>
        have hway : way ++ first :: second :: rest = way ++ [name.1] ++ second :: rest := by
          rw [List.append_assoc, List.singleton_append]
        rw [hway] at hbelow hcrate
        obtain ⟨hname, hdirectory⟩ :=
          h.isDirectory_of_mem_filesBelow htree hroot (List.cons_ne_nil _ _) hbelow
        -- a file below the directory `bin` at the root is not of the crate
        have hbin : ¬(way = [] ∧ name.1 = "bin") := by
          rintro ⟨rfl, hname⟩
          rw [hname] at hcrate
          simp [isOfCrate] at hcrate
        refine ⟨hname, .inl ⟨hdirectory, hbin, ?_⟩⟩
        rw [ih name hdirectory (h.next hdirectory hbin), hway]
        exact ⟨hbelow, hcrate, second, rest, rfl⟩

theorem prefix_of_mem_walk {listing : fs.Listing} {way found : List String}
    (h : found ∈ walk listing root way) : way <+: found := by
  induction way using @walk.induct fs root with
  | case1 way ih =>
    obtain ⟨name, -, ⟨hdirectory, hbin, hfound⟩ | ⟨-, -, rfl⟩⟩ := mem_walk_iff.1 h
    · exact (List.prefix_append _ _).trans (ih name hdirectory hfound)
    · exact List.prefix_append _ _

/-- A walk finds nothing twice. -/
theorem nodup_walk (listing : fs.Listing) (root : String) (way : List String) :
    (walk listing root way).Nodup := by
  induction way using @walk.induct fs root with
  | case1 way ih =>
    rw [walk, List.nodup_flatMap]
    constructor
    · intro name hname
      split_ifs with hdirectory hbin
      · exact List.nodup_nil
      · exact ih name hdirectory
      · exact List.nodup_singleton _
      · exact List.nodup_nil
    · -- all that is found under a name has that name in its way
      have hunder (name : Name) : ∀ found ∈ (if fs.isDirectory (pathTo root (way ++ [name.1])) then
          if way = [] ∧ name.1 = "bin" then [] else walk listing root (way ++ [name.1])
          else if extension? name.1 = some "rs" then [way ++ [name.1]] else []),
          way ++ [name.1] <+: found := by
        intro found hfound
        split_ifs at hfound
        · cases hfound
        · exact prefix_of_mem_walk hfound
        · obtain rfl := List.mem_singleton.1 hfound
          exact List.prefix_rfl
        · cases hfound
      refine (listing.nodup _).imp fun {name name'} hne found hfound hfound' => hne ?_
      have hsame := List.prefix_of_prefix_length_le (hunder name found hfound)
        (hunder name' found hfound') (by simp)
      have hlast := (List.append_right_inj way).1 (hsame.eq_of_length (by simp))
      exact Subtype.ext (List.cons.inj hlast).1

/-- The order of a listing does not matter to what a walk through the whole crate finds. -/
theorem inOrder_walk (htree : fs.IsTree) (hroot : fs.isDirectory root = true)
    (listing : fs.Listing) : inOrder (walk listing root []) = crateFiles (fs.filesBelow root) := by
  refine inOrder_eq (nodup_walk listing root []) ((nodup_filesBelow htree hroot).filter _) ?_
  intro way
  rw [mem_walk htree hroot listing (.start hroot), List.mem_filter]
  constructor
  · rintro ⟨hbelow, hcrate, -⟩
    exact ⟨hbelow, hcrate⟩
  · rintro ⟨hbelow, hcrate⟩
    obtain ⟨name, rest, rfl⟩ :=
      List.exists_cons_of_ne_nil ((mem_filesBelow_iff htree hroot).1 hbelow).1
    exact ⟨hbelow, hcrate, name, rest, rfl⟩

/-- **A walk reads the crate,** in whatever order the entries are listed. -/
theorem walkTree_eq (htree : fs.IsTree) (listing : fs.Listing) (root : String) :
    walkTree listing root = treeAt fs root := by
  unfold walkTree treeAt
  cases hroot : fs.isDirectory root with
  | false => rfl
  | true =>
    rw [Bool.not_true, if_neg Bool.false_ne_true, if_neg Bool.false_ne_true,
      inOrder_walk htree hroot listing]
    refine bind_congr fun files => ?_
    cases SourceTree.ofFiles files <;> rfl

/-! ### What is read -/

/-- Whether all files below a directory can be read. -/
def IsReadable (fs : FileSystem) (root : String) : Prop :=
  ∀ entry ∈ fs.entries, entry.2 ≠ .directory → ∀ way ∈ (placeOf root).below? entry.1,
    (fs.readText (pathBelow root way)).toOption.isSome = true

instance (fs : FileSystem) (root : String) : Decidable (IsReadable fs root) :=
  inferInstanceAs (Decidable (∀ _ ∈ _, _))

/-- **Whether a way leads to a source file:** a file with the extension `rs` that lies below the
root, but not below the directory `bin` there. -/
structure IsSource (fs : FileSystem) (root : String) (way : List String) (text : String) : Prop where
  below : (placeOf root).Holds (placeOf root ++ way)
  entry : fs.entry? (placeOf root ++ way) = some (.text text)
  name : ∃ dirs name, way = dirs ++ [name] ∧ extension? name = some "rs" ∧ dirs.head? ≠ some "bin"

theorem isSource_of_sourceAt (htree : fs.IsTree) {way : List String}
    (hway : way ∈ crateFiles (fs.filesBelow root)) {file : SourceFile}
    (hfile : sourceAt fs root way = .ok file) : IsSource fs root way file.text ∧
      file.origin = pathBelow root way ∧ file.space = modulePath ("/".intercalate way) := by
  obtain ⟨hbelow, hcrate⟩ := mem_crateFiles.1 hway
  obtain ⟨hplace, hholds⟩ := placeOf_of_mem_filesBelow htree.named hbelow
  obtain ⟨hread, hsource⟩ := sourceAt_eq_ok.1 hfile
  have hentry := (readText_eq_ok.1 hread).2
  rw [hplace] at hentry
  refine ⟨⟨hholds, hentry, ?_⟩, hsource⟩
  rcases List.eq_nil_or_concat' way with rfl | ⟨dirs, name, rfl⟩
  · cases hcrate
  · exact ⟨dirs, name, rfl, isOfCrate_concat.1 hcrate⟩

theorem IsSource.mem_crateFiles (htree : fs.IsTree) (hroot : fs.isDirectory root = true)
    (hreadable : IsReadable fs root) {way : List String} {text : String}
    (h : IsSource fs root way text) : way ∈ crateFiles (fs.filesBelow root) := by
  obtain ⟨dirs, name, rfl, hrust, hbin⟩ := h.name
  refine Source.mem_crateFiles.2 ⟨?_, isOfCrate_concat.2 ⟨hrust, hbin⟩⟩
  have hentry : fs.entry? (placeOf root ++ (dirs ++ [name])) ≠ some .directory := by
    rw [h.entry]
    exact nofun
  have hmem := mem_entries h.entry (isGiven_of_ne_directory hentry)
  -- the way from the root to the place is the one that was taken
  obtain ⟨way, hbelow⟩ := Option.isSome_iff_exists.1 h.below
  obtain ⟨hway, first, rest, hcons, hout⟩ := Location.below?_eq_some.1 hbelow
  obtain rfl := List.append_cancel_left hway
  have hnames : ∀ n ∈ dirs ++ [name], isName n = true := by
    rw [hcons] at hmem ⊢
    exact (htree.named _ hmem).of_append hout
  have hread := hreadable _ hmem nofun _ hbelow
  refine (mem_filesBelow_iff htree hroot).2
    ⟨List.append_ne_nil_of_right_ne_nil _ (List.cons_ne_nil _ _), hnames, _, h.entry,
      isListed_concat.2 ⟨nofun, fun hne => isLongPath_of_append hne hnames ?_⟩⟩
  cases htext : fs.readText (pathBelow root (dirs ++ [name])) with
  | error fault =>
    rw [htext] at hread
    cases hread
  | ok text =>
    exact (pathFault?_eq_none_iff.1 (locate_eq_ok.1 (readText_eq_ok.1 htext).1).1).2.2

/-- **Reading a crate** from a tree whose files can be read comes to the same in whatever order the
entries of directories are listed.  The tree of a crate that is read has one unit for each source
file, in the order of their ways; what a unit holds is told by the text of the file and by the module
that the way names. -/
theorem run_ofDirectory_eq_walkTree (session : Session) (root : String)
    (htree : session.files.IsTree) (hreadable : IsReadable session.files root)
    (listing : session.files.Listing) :
    (SourceTree.ofDirectory root : ExceptT SourceFault (StateM Session) SourceTree).run session =
        (walkTree listing root, session) ∧
      ∀ tree, walkTree listing root = .ok tree → ∃ ways files,
        ways.Pairwise (· < ·) ∧
        (∀ way, way ∈ ways ↔ ∃ text, IsSource session.files root way text) ∧
        List.Forall₂ (fun way file => IsSource session.files root way file.text ∧
          file.origin = pathBelow root way ∧ file.space = modulePath ("/".intercalate way))
          ways files ∧
        SourceTree.ofFiles files = .ok tree ∧
        tree.corpus.units.map (fun unit => (unit.origin, unit.nodes)) =
          files.map fun file => (file.origin, fileNodes file) := by
  refine ⟨by rw [run_ofDirectory, walkTree_eq htree], fun tree hok => ?_⟩
  rw [walkTree_eq htree] at hok
  obtain ⟨hroot, files, hfiles, hmade⟩ := treeAt_eq_ok.1 hok
  refine ⟨crateFiles (session.files.filesBelow root), files, ?sorted, ?sources, ?read, hmade,
    units_ofFiles hmade⟩
  case sorted => exact pairwise_inOrder ((nodup_filesBelow htree hroot).filter _)
  case sources =>
    intro way
    constructor
    · intro hway
      obtain ⟨file, hfile⟩ := exists_ok_of_mapM hfiles hway
      exact ⟨file.text, (isSource_of_sourceAt htree hway hfile).1⟩
    · rintro ⟨text, hsource⟩
      exact hsource.mem_crateFiles htree hroot hreadable
  case read =>
    have hpairs := (List.forall₂_and_left _ _).2 ⟨fun way hway => hway, mapM_eq_ok.1 hfiles⟩
    exact hpairs.imp fun way file ⟨hway, hfile⟩ => isSource_of_sourceAt htree hway hfile

/-- A crate with a directory and a file of the same name, a program of its own and a note. -/
def pagedSession : Session where
  files.entries :=
    [(["src"], .directory), (["src", "a"], .directory), (["src", "a.rs"], .text "struct A;"),
      (["src", "a", "b.rs"], .text "struct B;"), (["src", "a", "note.md"], .text "B"),
      (["src", "bin"], .directory), (["src", "bin", "run.rs"], .text "fn main() \x7b \x7d")]

/-- The file in the directory comes first. -/
theorem run_ofDirectory_eq_walkTree_paged : ∃ tree,
    (SourceTree.ofDirectory "src" : ExceptT SourceFault (StateM Session) SourceTree).run
      pagedSession = (.ok tree, pagedSession) ∧
    tree.corpus.units.map (·.origin) = ["src/a/b.rs", "src/a.rs"] := by
  have htree : pagedSession.files.IsTree := by decide +kernel
  have hreadable : IsReadable pagedSession.files "src" := by decide +kernel
  let listing := (Listing.ofEntries pagedSession.files).reordered List.reverse List.reverse_perm
  obtain ⟨hrun, -⟩ := run_ofDirectory_eq_walkTree pagedSession "src" htree hreadable listing
  have hways : crateFiles (pagedSession.files.filesBelow "src") = [["a", "b.rs"], ["a.rs"]] := by
    have hfiles : (pagedSession.files.filesBelow "src").filter isOfCrate =
        [["a.rs"], ["a", "b.rs"]] := by decide +kernel
    refine (pairwise_inOrder ?_).eq_of_mem_iff (by decide) fun way => ?_
    · rw [hfiles]
      decide
    · rw [mem_inOrder, hfiles]
      exact (List.Perm.swap _ _ _).mem_iff
  have hread : (walkTree listing "src").toOption.map
      (fun tree => tree.corpus.units.map (·.origin)) = some ["src/a/b.rs", "src/a.rs"] := by
    rw [walkTree_eq htree, treeAt, hways]
    decide +kernel
  cases hwalk : walkTree listing "src" with
  | error fault =>
    rw [hwalk] at hread
    cases hread
  | ok tree =>
    rw [hwalk] at hrun hread
    exact ⟨tree, hrun, Option.some.inj hread⟩

end Scaffold.Source
