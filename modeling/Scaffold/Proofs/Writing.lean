import Scaffold.Proofs.ArtifactId
import Scaffold.Proofs.Effect

/-!
# Writing artifacts

Writing artifacts makes their directory and then puts each text below its identifier
(`leaves_writeArtifacts`, `entry?_settle`).  Neither makes another directory, so whether an artifact
can be written does not depend on those written before, and artifacts with different identifiers
leave the same files in any order (`entry?_foldl_settle_of_perm`).
-/

namespace Scaffold

open Files FileSystem

namespace Artifact

/-- A plain name names an entry of a directory. -/
theorem isName_of_isPlainName {id : String} (h : isPlainName id = true) : isName id = true := by
  obtain ⟨hne, hslash, -, hdot⟩ := isPlainName_iff.1 h
  have hsingle : id ≠ "." := by
    rintro rfl
    exact hdot rfl
  have hup : id ≠ ".." := by
    rintro rfl
    exact hdot rfl
  refine isName_iff.2 ⟨?_, hup, hslash⟩
  simp [isStep, hne, hsingle]

end Artifact

variable {fs later : FileSystem} {directory : String} {a b : Artifact} {as bs : List Artifact}

/-! ### One artifact -/

/-- Whether an artifact can be written into a directory. -/
def Settles (fs : FileSystem) (directory : String) (a : Artifact) : Prop :=
  Artifact.isPlainName a.id = true ∧ fs.Takes (join directory a.id)

/-- The files after an artifact has been written into a directory. -/
def settle (directory : String) (fs : FileSystem) (a : Artifact) : FileSystem :=
  match fs.readText (join directory a.id) with
  | .ok text =>
    if text = a.text then fs else fs.put (placeOf (join directory a.id)) (.text a.text)
  | .error _ => fs.put (placeOf (join directory a.id)) (.text a.text)

/-- Where an artifact is written. -/
theorem Settles.placeOf_join (h : Settles fs directory a) :
    placeOf (join directory a.id) = placeOf directory ++ [a.id] :=
  placeOf_join_of_isName directory (Artifact.isName_of_isPlainName h.1)

theorem Settles.of_sameDirectories (h : Settles fs directory a)
    (hsame : fs.SameDirectories later) : Settles later directory a :=
  ⟨h.1, h.2.of_sameDirectories hsame⟩

theorem settle_eq_or (fs : FileSystem) (directory : String) (a : Artifact) :
    fs.readText (join directory a.id) = .ok a.text ∧ settle directory fs a = fs ∨
      fs.readText (join directory a.id) ≠ .ok a.text ∧
        settle directory fs a = fs.put (placeOf (join directory a.id)) (.text a.text) := by
  unfold settle
  cases fs.readText (join directory a.id) with
  | error fault => exact .inr ⟨nofun, rfl⟩
  | ok text =>
    dsimp only
    split_ifs with htext
    · rw [htext]
      exact .inl ⟨rfl, rfl⟩
    · exact .inr ⟨fun h => htext (Except.ok.inj h), rfl⟩

/-- **The text of an artifact that has been written** is below its identifier, and all else is as
it was. -/
theorem entry?_settle (h : Settles fs directory a) :
    FileSystem.entry? (settle directory fs a) =
      Function.update fs.entry? (placeOf directory ++ [a.id]) (some (.text a.text)) := by
  rw [← h.placeOf_join]
  rcases settle_eq_or fs directory a with ⟨hread, hsettle⟩ | ⟨-, hsettle⟩
  · rw [hsettle, ← (readText_eq_ok.1 hread).2, Function.update_eq_self]
  · rw [hsettle, entry?_put fs (isGiven_of_ne_directory h.2.entry)]

theorem Settles.sameDirectories (h : Settles fs directory a) :
    fs.SameDirectories (settle directory fs a) := by
  intro p
  rw [entry?_settle h, Function.update_apply]
  split_ifs with hp
  · have hentry := h.2.entry
    rw [h.placeOf_join, ← hp] at hentry
    exact iff_of_false hentry nofun
  · exact Iff.rfl

/-- Files grow only below the directory. -/
theorem Settles.grows (h : Settles fs directory a) :
    fs.Grows (fun p _ => (placeOf directory).Holds p) (settle directory fs a) := by
  rcases settle_eq_or fs directory a with ⟨-, hsettle⟩ | ⟨-, hsettle⟩
  · rw [hsettle]
    exact .refl _ fs
  · rw [hsettle]
    refine (Grows.put h.2.entry _).mono ?_
    rintro p e ⟨rfl, -⟩
    have hout := leadsOut_of_isName (Artifact.isName_of_isPlainName h.1)
    exact Location.holds_iff.2 ⟨a.id, [], h.placeOf_join, hout⟩

/-! ### Several artifacts -/

theorem sameDirectories_foldl_settle (h : ∀ a ∈ as, Settles fs directory a) :
    fs.SameDirectories (as.foldl (settle directory) fs) := by
  induction as generalizing fs with
  | nil => exact fun _ => Iff.rfl
  | cons a as ih =>
    obtain ⟨ha, has⟩ := List.forall_mem_cons.1 h
    intro p
    have hrest := ih fun b hb => (has b hb).of_sameDirectories ha.sameDirectories
    exact (ha.sameDirectories p).trans (hrest p)

theorem grows_foldl_settle (h : ∀ a ∈ as, Settles fs directory a) :
    fs.Grows (fun p _ => (placeOf directory).Holds p) (as.foldl (settle directory) fs) := by
  induction as generalizing fs with
  | nil => exact .refl _ fs
  | cons a as ih =>
    obtain ⟨ha, has⟩ := List.forall_mem_cons.1 h
    exact ha.grows.trans (ih fun b hb => (has b hb).of_sameDirectories ha.sameDirectories)

/-- The entries with the text of an artifact below its identifier. -/
def withText (directory : String) (entries : Location → Option Entry) (a : Artifact) :
    Location → Option Entry :=
  Function.update entries (placeOf directory ++ [a.id]) (some (.text a.text))

theorem entry?_foldl_settle (h : ∀ a ∈ as, Settles fs directory a) :
    FileSystem.entry? (as.foldl (settle directory) fs) =
      as.foldl (withText directory) fs.entry? := by
  induction as generalizing fs with
  | nil => rfl
  | cons a as ih =>
    obtain ⟨ha, has⟩ := List.forall_mem_cons.1 h
    rw [List.foldl_cons, List.foldl_cons,
      ih fun b hb => (has b hb).of_sameDirectories ha.sameDirectories, entry?_settle ha]
    rfl

/-- **Artifacts with different identifiers** leave the same files in any order. -/
theorem entry?_foldl_settle_of_perm (hperm : as.Perm bs) (hnodup : (as.map (·.id)).Nodup)
    (h : ∀ a ∈ as, Settles fs directory a) :
    FileSystem.entry? (as.foldl (settle directory) fs) =
      FileSystem.entry? (bs.foldl (settle directory) fs) := by
  rw [entry?_foldl_settle h, entry?_foldl_settle fun b hb => h b (hperm.mem_iff.2 hb)]
  refine hperm.foldl_eq' (fun a ha b hb entries => ?_) _
  by_cases hab : a = b
  · rw [hab]
  · have hid : a.id ≠ b.id := fun hid => hab (List.inj_on_of_nodup_map hnodup ha hb hid)
    refine Function.update_comm ?_ _ _ entries
    intro hplace
    exact hid (List.singleton_inj.1 (List.append_cancel_left hplace))

/-! ### Runs -/

/-- **What writing artifacts leaves.** -/
def Writes (fs : FileSystem) (directory : String) (as : List Artifact) (made : FileSystem) : Prop :=
  ∃ opened, fs.makeDirectories directory = (none, opened) ∧
    (∀ a ∈ as, Settles opened directory a) ∧ made = as.foldl (settle directory) opened

/-- What may be put while artifacts are written: the directories that are made for the output, and
anything below it. -/
def outputArea (fs : FileSystem) (output : String) (place : Location) (e : Entry) : Prop :=
  fs.Made (fs.makeDirectories output).2 place ∧ e = .directory ∨ (placeOf output).Holds place

variable {made : FileSystem} {output : String}

/-- Writing artifacts lets files grow. -/
theorem Writes.grows (h : Writes fs output as made) : fs.Grows (outputArea fs output) made := by
  obtain ⟨opened, hopened, hsettles, rfl⟩ := h
  have hmade : fs.Grows (outputArea fs output) (fs.makeDirectories output).2 :=
    (grows_makeDirectories fs output).mono fun _ _ => .inl
  rw [hopened] at hmade
  exact hmade.trans ((grows_foldl_settle hsettles).mono fun _ _ => .inr)

/-- The directories that are made for the output are there afterwards. -/
theorem Writes.entry_directory {p : Location} (h : Writes fs output as made)
    (hp : FileSystem.entry? (fs.makeDirectories output).2 p = some .directory) :
    made.entry? p = some .directory := by
  obtain ⟨opened, hopened, hsettles, rfl⟩ := h
  rw [hopened] at hp
  exact (sameDirectories_foldl_settle hsettles p).1 hp

/-- A text outside of the output directory is outside of the area. -/
theorem not_outputArea {path text : String} (hread : fs.readText path = .ok text)
    (hout : ¬ (placeOf output).Holds (placeOf path)) (e : Entry) :
    ¬ outputArea fs output (placeOf path) e := by
  rintro (⟨⟨hnone, -⟩, -⟩ | hholds)
  · rw [(readText_eq_ok.1 hread).2] at hnone
    cases hnone
  · exact hout hholds

open Run

/-- Writing one file. -/
theorem Written.does_write (w : Written) (a : Artifact) (path : String) :
    (Written.add.write w a path : Run (StateM Session) Written).Does fun fs w' made =>
      fs.write path (.text a.text) = .ok made ∧ w' = { w with written := w.written ++ [path] } := by
  unfold Written.add.write
  refine ((does_writeText _ path a.text).bind fun _ => reads_emit_pure _ _).congr
    fun fs w' made => ?_
  constructor
  · rintro ⟨_, between, hwrite, rfl, rfl⟩
    exact ⟨hwrite, rfl⟩
  · rintro ⟨hwrite, rfl⟩
    exact ⟨(), made, hwrite, rfl, rfl⟩

/-- A file that has a text can be written, where its name is plain. -/
theorem settles_of_readText {text : String} (hplain : Artifact.isPlainName a.id = true)
    (hread : fs.readText (join directory a.id) = .ok text) : Settles fs directory a := by
  obtain ⟨hstep, hup, hslash⟩ := isName_iff.1 (Artifact.isName_of_isPlainName hplain)
  obtain ⟨front, hpieces, -⟩ := exists_pieces_join directory (isAbsolute_of_not_mem hslash)
  have hlast : (pieces (join directory a.id)).getLastD "" = a.id := by
    rw [hpieces, pieces_of_not_mem hslash, List.getLastD_concat]
  refine ⟨hplain, takes_of_readText hread ?_ ?_⟩
  · rw [hlast]
    exact hstep
  · rw [hlast]
    exact hup

/-- What is known of the artifacts that have been written when one more has been: it is unchanged
where its file had its text. -/
def Written.noted (fs : FileSystem) (directory : String) (w : Written) (a : Artifact) : Written :=
  if fs.readText (join directory a.id) = .ok a.text then
    { w with unchanged := w.unchanged ++ [join directory a.id] }
  else { w with written := w.written ++ [join directory a.id] }

/-- **Writing one artifact.** -/
theorem Written.does_add (w : Written) (a : Artifact) :
    (Written.add directory w a : Run (StateM Session) Written).Does fun fs w' made =>
      Settles fs directory a ∧ made = settle directory fs a ∧ w' = w.noted fs directory a := by
  unfold Written.add
  cases hplain : Artifact.isPlainName a.id with
  | false =>
    refine Does.congr (reads_throw _) fun fs w' made => iff_of_false (by simp) ?_
    rintro ⟨⟨h, -⟩, -⟩
    rw [hplain] at h
    cases h
  | true =>
    rw [Bool.not_true, if_neg Bool.false_ne_true]
    let path := join directory a.id
    let effect (outcome : Except IoFault String) (fs : FileSystem) (w' : Written)
        (made : FileSystem) : Prop :=
      outcome = .ok a.text ∧ w' = { w with unchanged := w.unchanged ++ [path] } ∧ made = fs ∨
        outcome ≠ .ok a.text ∧ fs.write path (.text a.text) = .ok made ∧
          w' = { w with written := w.written ++ [path] }
    have hread : (liftM (Workspace.readText path : StateM Session (Except IoFault String)) :
        Run (StateM Session) _).Reads fun fs outcome => outcome = fs.readText path :=
      reads_lift (·.readText path) fun _ => rfl
    refine (hread.then_does (Q := effect) fun outcome => ?_).congr fun fs w' made => ?_
    · cases outcome with
      | error fault =>
        refine (Written.does_write w a path).congr fun fs w' made => ?_
        simp [effect]
      | ok text =>
        dsimp only
        split_ifs with htext
        · subst htext
          refine Does.congr (reads_emit_pure _ _) fun fs w' made => ?_
          simp [effect, path]
        · refine (Written.does_write w a path).congr fun fs w' made => ?_
          simp [effect, htext]
    · unfold Written.noted
      constructor
      · rintro ⟨outcome, rfl, ⟨hread, hnoted, rfl⟩ | ⟨hread, hwrite, hnoted⟩⟩
        · refine ⟨settles_of_readText hplain hread, ?_, by rw [if_pos hread, hnoted]⟩
          rw [settle, hread]
          exact (if_pos rfl).symm
        · obtain ⟨htakes, rfl⟩ := write_eq_ok.1 hwrite
          refine ⟨⟨hplain, htakes⟩, ?_, by rw [if_neg hread, hnoted]⟩
          rcases settle_eq_or fs directory a with ⟨hsame, -⟩ | ⟨-, hsettle⟩
          · exact absurd hsame hread
          · exact hsettle.symm
      · rintro ⟨hsettles, rfl, rfl⟩
        rcases settle_eq_or fs directory a with ⟨hread, hsettle⟩ | ⟨hread, hsettle⟩
        · exact ⟨_, rfl, .inl ⟨hread, if_pos hread, hsettle⟩⟩
        · refine ⟨_, rfl, .inr ⟨hread, ?_, if_neg hread⟩⟩
          rw [hsettle]
          exact write_eq_ok.2 ⟨hsettles.2, rfl⟩

/-- What is known of artifacts when all have been written, one after another. -/
def Written.notedAll (directory : String) : FileSystem → Written → List Artifact → Written
  | _, w, [] => w
  | fs, w, a :: as => notedAll directory (settle directory fs a) (w.noted fs directory a) as

/-- **Writing several artifacts,** one after another. -/
theorem Written.does_foldlM_add (w : Written) :
    (as.foldlM (Written.add directory) w : Run (StateM Session) Written).Does fun fs w' made =>
      (∀ a ∈ as, Settles fs directory a) ∧ made = as.foldl (settle directory) fs ∧
        w' = notedAll directory fs w as := by
  induction as generalizing w with
  | nil =>
    refine Does.congr (reads_pure w) fun fs w' made => ?_
    constructor
    · rintro ⟨rfl, rfl⟩
      exact ⟨List.forall_mem_nil _, rfl, rfl⟩
    · rintro ⟨-, rfl, rfl⟩
      exact ⟨rfl, rfl⟩
  | cons a as ih =>
    rw [List.foldlM_cons]
    refine ((w.does_add a).bind ih).congr fun fs w' made => ?_
    constructor
    · rintro ⟨_, between, ⟨ha, rfl, rfl⟩, has, rfl, rfl⟩
      have hsame := ha.sameDirectories
      refine ⟨List.forall_mem_cons.2 ⟨ha, fun b hb => ?_⟩, rfl, rfl⟩
      exact (has b hb).of_sameDirectories fun p => (hsame p).symm
    · rintro ⟨h, rfl, rfl⟩
      obtain ⟨ha, has⟩ := List.forall_mem_cons.1 h
      exact ⟨_, _, ⟨ha, rfl, rfl⟩, fun b hb => (has b hb).of_sameDirectories ha.sameDirectories,
        rfl, rfl⟩

/-- **Writing artifacts** makes the directory and then writes each. -/
theorem does_writeArtifacts (directory : String) (as : List Artifact) :
    (writeArtifacts directory as : Run (StateM Session) Written).Does fun fs w made =>
      ∃ opened, fs.makeDirectories directory = (none, opened) ∧
        (∀ a ∈ as, Settles opened directory a) ∧ made = as.foldl (settle directory) opened ∧
        w = Written.notedAll directory opened {} as := by
  refine ((does_makeDirectories _ directory).bind fun _ =>
    Written.does_foldlM_add {}).congr fun fs w made => ?_
  constructor
  · rintro ⟨-, opened, hopened, hwritten⟩
    exact ⟨opened, hopened, hwritten⟩
  · rintro ⟨opened, hopened, hwritten⟩
    exact ⟨(), opened, hopened, hwritten⟩

theorem leaves_writeArtifacts (directory : String) (as : List Artifact) :
    (writeArtifacts directory as : Run (StateM Session) Written).Leaves fun fs made =>
      Writes fs directory as made := by
  refine (does_writeArtifacts directory as).leaves.congr fun fs made => ?_
  constructor
  · rintro ⟨w, opened, hopened, hsettles, hmade, -⟩
    exact ⟨opened, hopened, hsettles, hmade⟩
  · rintro ⟨opened, hopened, hsettles, hmade⟩
    exact ⟨_, opened, hopened, hsettles, hmade, rfl⟩

end Scaffold
