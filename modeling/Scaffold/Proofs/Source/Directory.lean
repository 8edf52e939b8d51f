import Scaffold.Proofs.Files.Named
import Scaffold.Source.Directory

/-!
# Reading crates

In a session a crate is read from the files alone, and nothing changes (`run_ofDirectory`): `treeAt`
tells which tree is in a directory of a file system.

A directory whose path is too long to be followed is not known as one, and passes for a source file
if it has the name of one (`passesForSource`).  A crate with such a directory cannot be read
(`treeAt_ne_ok`).  The tree of a crate stays the same while the file system grows by other
directories below its root, and by anything elsewhere (`treeAt_of_grows`).
-/

namespace Scaffold.Source

open Files FileSystem

variable {fs later : FileSystem} {root : String}

/-- The source file at the end of a way from the root. -/
def sourceAt (fs : FileSystem) (root : String) (way : List String) : Except SourceFault SourceFile :=
  match fs.readText (pathBelow root way) with
  | .ok text => .ok ⟨modulePath ("/".intercalate way), pathBelow root way, text⟩
  | .error fault => .error (.io (pathBelow root way) fault)

/-- **The tree of the crate in a directory.** -/
def treeAt (fs : FileSystem) (root : String) : Except SourceFault SourceTree :=
  if !fs.isDirectory root then .error (.notADirectory root)
  else do
    let files ← (crateFiles (fs.filesBelow root)).mapM (sourceAt fs root)
    match SourceTree.ofFiles files with
    | .ok tree => .ok tree
    | .error origin => .error (.malformed origin)

/-- When a source file is read. -/
theorem sourceAt_eq_ok {way : List String} {file : SourceFile} : sourceAt fs root way = .ok file ↔
    fs.readText (pathBelow root way) = .ok file.text ∧ file.origin = pathBelow root way ∧
      file.space = modulePath ("/".intercalate way) := by
  unfold sourceAt
  cases hread : fs.readText (pathBelow root way) with
  | error fault =>
    constructor
    · intro h
      cases h
    · rintro ⟨h, -⟩
      cases h
  | ok text =>
    constructor
    · intro h
      obtain rfl := Except.ok.inj h
      exact ⟨rfl, rfl, rfl⟩
    · rintro ⟨htext, horigin, hspace⟩
      obtain rfl := Except.ok.inj htext
      rw [← horigin, ← hspace]

/-- When a crate is read. -/
theorem treeAt_eq_ok {tree : SourceTree} : treeAt fs root = .ok tree ↔
    fs.isDirectory root = true ∧ ∃ files, (crateFiles (fs.filesBelow root)).mapM (sourceAt fs root) =
      .ok files ∧ SourceTree.ofFiles files = .ok tree := by
  unfold treeAt
  cases hroot : fs.isDirectory root with
  | false =>
    constructor
    · intro h
      cases h
    · rintro ⟨h, -⟩
      cases h
  | true =>
    rw [Bool.not_true, if_neg Bool.false_ne_true, bind_eq_ok]
    refine (exists_congr fun files => and_congr_right fun _ => ?_).trans (and_iff_right rfl).symm
    cases SourceTree.ofFiles files with
    | error origin => exact ⟨nofun, nofun⟩
    | ok made => exact ⟨fun h => congrArg _ (Except.ok.inj h), fun h => congrArg _ (Except.ok.inj h)⟩

/-! ### Sessions -/

section Sessions

variable {ε α β : Type}

/-- A computation that only reads goes on in the same session. -/
theorem run_bind_of_reads {x : ExceptT ε (StateM Session) α} {f : α → ExceptT ε (StateM Session) β}
    {session : Session} {value : Except ε α} (rest : α → Except ε β)
    (hx : x.run session = (value, session)) (hf : ∀ a, (f a).run session = (rest a, session)) :
    (x >>= f).run session = (value >>= rest, session) := by
  have hbind : (x >>= f).run session =
      match x.run session with
      | (a, after) => (ExceptT.bindCont f a : StateM Session (Except ε β)) after := rfl
  rw [hbind, hx]
  cases value with
  | error e => rfl
  | ok a => exact hf a

theorem run_mapM_of_reads {f : α → ExceptT ε (StateM Session) β} {session : Session}
    {value : α → Except ε β} (hf : ∀ a, (f a).run session = (value a, session)) (as : List α) :
    (as.mapM f).run session = (as.mapM value, session) := by
  induction as with
  | nil => rfl
  | cons a as ih =>
    rw [List.mapM_cons, List.mapM_cons]
    refine run_bind_of_reads _ (hf a) fun b => ?_
    exact run_bind_of_reads _ ih fun bs => rfl

end Sessions

theorem run_readSource (root : String) (way : List String) (session : Session) :
    (readSource root way : ExceptT SourceFault (StateM Session) SourceFile).run session =
      (sourceAt session.files root way, session) := by
  have hread : (liftM (Workspace.readText (pathBelow root way) :
      StateM Session (Except IoFault String)) : ExceptT SourceFault (StateM Session) _).run session =
      (.ok (session.files.readText (pathBelow root way)), session) := rfl
  let source : Except IoFault String → Except SourceFault SourceFile
    | .ok text => .ok ⟨modulePath ("/".intercalate way), pathBelow root way, text⟩
    | .error fault => .error (.io (pathBelow root way) fault)
  refine run_bind_of_reads source hread fun outcome => ?_
  cases outcome <;> rfl

/-- **Reading a crate** in a session. -/
theorem run_ofDirectory (root : String) (session : Session) :
    (SourceTree.ofDirectory root : ExceptT SourceFault (StateM Session) SourceTree).run session =
      (treeAt session.files root, session) := by
  have hdirectory : (liftM (Workspace.isDirectory root : StateM Session Bool) :
      ExceptT SourceFault (StateM Session) Bool).run session =
      (.ok (session.files.isDirectory root), session) := rfl
  have hways : (liftM (Workspace.filesBelow root : StateM Session (List (List String))) :
      ExceptT SourceFault (StateM Session) _).run session =
      (.ok (session.files.filesBelow root), session) := rfl
  let made (files : List SourceFile) : Except SourceFault SourceTree :=
    match SourceTree.ofFiles files with
    | .ok tree => .ok tree
    | .error origin => .error (.malformed origin)
  let read (ways : List (List String)) : Except SourceFault SourceTree :=
    (crateFiles ways).mapM (sourceAt session.files root) >>= made
  refine run_bind_of_reads (fun isDirectory =>
    if !isDirectory then .error (.notADirectory root)
    else read (session.files.filesBelow root)) hdirectory fun isDirectory => ?_
  cases isDirectory with
  | false => rfl
  | true =>
    refine run_bind_of_reads read hways fun ways => ?_
    have hfiles := run_mapM_of_reads (run_readSource root · session) (crateFiles ways)
    refine run_bind_of_reads made hfiles fun files => ?_
    show (match SourceTree.ofFiles files with
      | .ok tree => pure tree
      | .error origin => throw (.malformed origin) :
        ExceptT SourceFault (StateM Session) SourceTree).run session = (made files, session)
    dsimp only [made]
    cases SourceTree.ofFiles files <;> rfl

/-! ### Directories that pass for source files -/

/-- The ways that belong to the crate. -/
theorem mem_crateFiles {ways : List (List String)} {way : List String} :
    way ∈ crateFiles ways ↔ way ∈ ways ∧ isOfCrate way = true := by
  rw [crateFiles, List.mem_mergeSort, List.mem_filter]

/-- **Whether a directory passes for a source file:** its name is that of one, and its path is too
long to tell that it is a directory, though the directory that holds it can be listed. -/
def passesForSource (root : String) (way : List String) : Bool :=
  isOfCrate way && isListed root way .directory

/-- **A crate cannot be read** where a directory passes for a source file. -/
theorem treeAt_ne_ok {place : Location} {way : List String}
    (hentry : fs.entry? place = some .directory) (hway : (placeOf root).below? place = some way)
    (hpasses : passesForSource root way = true) (tree : SourceTree) : treeAt fs root ≠ .ok tree := by
  obtain ⟨hcrate, hlisted⟩ := Bool.and_eq_true_iff.1 hpasses
  intro htree
  obtain ⟨hroot, files, hfiles, -⟩ := treeAt_eq_ok.1 htree
  obtain ⟨hplace, name, names, hnames, hout⟩ := Location.below?_eq_some.1 hway
  have hgiven : place.isGiven = false := by
    rw [hplace, hnames]
    exact isGiven_append hout _ _
  have hfile : way ∈ crateFiles (fs.filesBelow root) := by
    refine mem_crateFiles.2 ⟨?_, hcrate⟩
    rw [filesBelow_of_isDirectory hroot]
    refine List.mem_filterMap.2 ⟨_, mem_entries hentry hgiven, ?_⟩
    rw [hway, Option.filter_some, if_pos hlisted]
  obtain ⟨file, hfile⟩ := exists_ok_of_mapM hfiles hfile
  have hlong : isLongPath (pathBelow root way) = true := by
    simpa using (Bool.and_eq_true_iff.1 hlisted).1
  -- a path that is too long leads nowhere
  have hlocate := (readText_eq_ok.1 (sourceAt_eq_ok.1 hfile).1).1
  rw [(pathFault?_eq_none_iff.1 (locate_eq_ok.1 hlocate).1).2.2] at hlong
  cases hlong

/-! ### Growing outside of a crate -/

theorem mapM_eq_ok_of_forall {ε α β : Type} {f g : α → Except ε β} {as : List α} {bs : List β}
    (h : as.mapM f = .ok bs) (hg : ∀ a ∈ as, ∀ b, f a = .ok b → g a = .ok b) :
    as.mapM g = .ok bs := by
  rw [mapM_eq_ok] at h ⊢
  induction h with
  | nil => exact .nil
  | cons hab _ ih =>
    obtain ⟨ha, has⟩ := List.forall_mem_cons.1 hg
    exact .cons (ha _ hab) (ih has)

/-- **Whether an area leaves a crate alone:** all that it has below the root are directories that
are not there yet and do not pass for source files. -/
def Spares (fs : FileSystem) (root : String) (area : Location → Entry → Prop) : Prop :=
  ∀ p e, area p e → ∀ way, (placeOf root).below? p = some way →
    e = .directory ∧ fs.entry? p = none ∧ passesForSource root way = false

/-- **The tree of a crate stays the same** while the file system grows in an area that leaves the
crate alone. -/
theorem treeAt_of_grows {area : Location → Entry → Prop} (hgrows : fs.Grows area later)
    (hnamed : fs.IsNamed) (harea : Spares fs root area) {tree : SourceTree}
    (h : treeAt fs root = .ok tree) : treeAt later root = .ok tree := by
  obtain ⟨hdirectory, files, hfiles, htree⟩ := treeAt_eq_ok.1 h
  have hsame : crateFiles (later.filesBelow root) = crateFiles (fs.filesBelow root) := by
    unfold crateFiles
    rw [hgrows.filter_filesBelow hdirectory fun p e hp way hway hlisted => ?_]
    obtain ⟨rfl, -, hpasses⟩ := harea p e hp way hway
    rwa [passesForSource, hlisted, Bool.and_true] at hpasses
  refine treeAt_eq_ok.2 ⟨hgrows.isDirectory hdirectory, files, ?_, htree⟩
  rw [hsame]
  -- every file of the crate lies below the root and is there, so its text is outside of the area
  refine mapM_eq_ok_of_forall hfiles fun way hway file hfile => ?_
  obtain ⟨hplace, hbelow⟩ := placeOf_of_mem_filesBelow hnamed (mem_crateFiles.1 hway).1
  obtain ⟨hread, hsource⟩ := sourceAt_eq_ok.1 hfile
  have hentry := (readText_eq_ok.1 hread).2
  have houtside : ∀ e, ¬ area (placeOf (pathBelow root way)) e := by
    intro e hin
    rw [hplace] at hin hentry
    obtain ⟨way', hway'⟩ := Option.isSome_iff_exists.1 hbelow
    rw [(harea _ e hin way' hway').2.1] at hentry
    cases hentry
  exact sourceAt_eq_ok.2 ⟨hgrows.readText hread houtside, hsource⟩

end Scaffold.Source
