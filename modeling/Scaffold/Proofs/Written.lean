import Scaffold.Proofs.Writing

/-!
# What writing artifacts changes and reports

Whether or not artifacts can all be written, only files directly in their directory are changed
(`spares_writeArtifacts`): every step keeps to them, and making directories changes no file.

Where all are written, each artifact is looked at in the files that the ones before it left.  With
different identifiers these have not touched its file, so what is reported can be told from the
files before the first (`notedAll_eq`), and after the last each file has its text.  Writing the
artifacts again then finds nothing to do (`result_writeArtifacts`).
-/

namespace Scaffold

open Files FileSystem

/-! ### Files -/

namespace Files.FileSystem

variable {fs : FileSystem} {path : String}

/-- The file at a location, where what is there is no directory. -/
def file? (fs : FileSystem) (place : Location) : Option Entry :=
  (fs.entry? place).filter (· ≠ .directory)

theorem file?_eq_text {place : Location} {text : String} :
    fs.file? place = some (.text text) ↔ fs.entry? place = some (.text text) := by
  rw [file?, Option.filter_eq_some_iff]
  exact and_iff_left (decide_eq_true nofun)

/-- Making directories changes no file. -/
theorem file?_makeDirectories (fs : FileSystem) (path : String) (place : Location) :
    (fs.makeDirectories path).2.file? place = fs.file? place := by
  unfold file?
  -- where a directory is made there was nothing
  by_cases hmade : fs.Made (fs.makeDirectories path).2 place
  · rw [hmade.1, hmade.2]
    rfl
  · rw [(grows_makeDirectories fs path).outside place fun e he => hmade he.1]

/-- Writing a file changes no other file. -/
theorem file?_of_write {content : Entry} {made : FileSystem} (h : fs.write path content = .ok made)
    {place : Location} (hplace : place ≠ placeOf path) : made.file? place = fs.file? place := by
  obtain ⟨htakes, rfl⟩ := write_eq_ok.1 h
  unfold file?
  rw [entry?_put fs (isGiven_of_ne_directory htakes.entry), Function.update_of_ne hplace]

/-- A file that can be written is found where it is there. -/
theorem Takes.locate (h : fs.Takes path) (hthere : (fs.entry? (placeOf path)).isSome = true) :
    fs.locate path = .ok (placeOf path) := by
  obtain ⟨p, hfront, hdirectory⟩ := h.directory
  obtain ⟨hstep, hup, hlong⟩ := h.name
  have hplace := placeOf_eq_concat hfront hstep hup
  refine locate_eq_ok.2 ⟨h.fault, ?_⟩
  rw [← dropLast_append_pieces path, List.foldlM_append]
  refine bind_eq_ok.2 ⟨p, hfront, ?_⟩
  rw [hplace] at hthere ⊢
  rw [List.foldlM_cons]
  refine bind_eq_ok.2 ⟨_, step_eq_ok.2 ⟨hdirectory, ?_, fun _ _ => ⟨hlong, hthere⟩⟩, rfl⟩
  rw [Location.follow, hstep, if_neg (by decide), if_neg hup]

end Files.FileSystem

/-! ### Whatever the outcome -/

/-- Whether the same files are there, but for those directly in a directory. -/
def SameOutside (directory : String) (fs later : FileSystem) : Prop :=
  ∀ p, (∀ name, isName name = true → p ≠ placeOf directory ++ [name]) →
    later.file? p = fs.file? p

theorem SameOutside.trans {directory : String} {fs later last : FileSystem}
    (h : SameOutside directory fs later) (h' : SameOutside directory later last) :
    SameOutside directory fs last :=
  fun p hp => (h' p hp).trans (h p hp)

namespace Run

variable {α β : Type} {directory : String} {x : Run (StateM Session) α}

/-- Whether a run, stopped or not, changes only files directly in a directory. -/
def Spares (directory : String) (x : Run (StateM Session) α) : Prop :=
  ∀ session, SameOutside directory session.files (x.result session).2.files

theorem Spares.of_files (h : ∀ session, (x.result session).2.files = session.files) :
    x.Spares directory := by
  intro session p _
  rw [h session]

theorem Spares.bind {f : α → Run (StateM Session) β} (hx : x.Spares directory)
    (hf : ∀ a, (f a).Spares directory) : (x >>= f).Spares directory := by
  intro session
  have hfirst := hx session
  rw [result_bind]
  cases hresult : x.result session with
  | mk outcome between =>
    rw [hresult] at hfirst
    cases outcome with
    | error halt => exact hfirst
    | ok a => exact hfirst.trans (hf a between)

theorem Spares.foldlM {f : β → α → Run (StateM Session) β} (hf : ∀ b a, (f b a).Spares directory)
    (as : List α) (b : β) : (as.foldlM f b).Spares directory := by
  induction as generalizing b with
  | nil => exact .of_files fun _ => rfl
  | cons a as ih =>
    rw [List.foldlM_cons]
    exact (hf b a).bind ih

/-- A change of files, and a stop where it has a fault. -/
theorem Spares.change {act : StateM Session (Option IoFault)} (note : String)
    (h : ∀ session, SameOutside directory session.files (act session).2.files) :
    (Run.change note act : Run (StateM Session) Unit).Spares directory := by
  refine Spares.bind (x := liftM act) h fun fault => ?_
  cases fault with
  | none => exact .of_files fun _ => rfl
  | some fault => exact .of_files fun _ => rfl

end Run

open Run

variable {directory : String} {a : Artifact} {as : List Artifact}

theorem Written.spares_write (w : Written) (hplain : Artifact.isPlainName a.id = true) :
    (Written.add.write w a (join directory a.id) : Run (StateM Session) Written).Spares
      directory := by
  have hname := Artifact.isName_of_isPlainName hplain
  refine (Spares.change _ fun session p hp => ?_).bind fun _ => .of_files fun _ => rfl
  change (session.change (session.files.write (join directory a.id) (.text a.text))).2.files.file? p =
    session.files.file? p
  cases hwrite : session.files.write (join directory a.id) (.text a.text) with
  | error fault => rfl
  | ok made =>
    refine file?_of_write hwrite ?_
    rw [placeOf_join_of_isName directory hname]
    exact hp a.id hname

theorem Written.spares_add (w : Written) (a : Artifact) :
    (Written.add directory w a : Run (StateM Session) Written).Spares directory := by
  unfold Written.add
  cases hplain : Artifact.isPlainName a.id with
  | false => exact .of_files fun _ => rfl
  | true =>
    rw [Bool.not_true, if_neg Bool.false_ne_true]
    -- whatever has been read, at most the one file is written
    refine Spares.bind (.of_files fun _ => rfl) fun outcome => ?_
    cases outcome with
    | error fault => exact w.spares_write hplain
    | ok text =>
      dsimp only
      split_ifs
      · exact .of_files fun _ => rfl
      · exact w.spares_write hplain

/-- **Writing artifacts** changes only files directly in the directory, even where it stops. -/
theorem spares_writeArtifacts (directory : String) (as : List Artifact) :
    (writeArtifacts directory as : Run (StateM Session) Written).Spares directory := by
  refine (Spares.change _ fun session p _ => ?_).bind fun _ => .foldlM Written.spares_add as {}
  exact file?_makeDirectories session.files directory p

/-! ### What is reported -/

variable {fs : FileSystem}

/-- Whether the file of an artifact has its text. -/
def Held (fs : FileSystem) (directory : String) (a : Artifact) : Prop :=
  fs.file? (placeOf directory ++ [a.id]) = some (.text a.text)

instance : Decidable (Held fs directory a) := inferInstanceAs (Decidable (_ = _))

/-- The text of an artifact is read where its file has it. -/
theorem Settles.readText_eq_ok_iff (h : Settles fs directory a) :
    fs.readText (join directory a.id) = .ok a.text ↔ Held fs directory a := by
  rw [Held, file?_eq_text, ← h.placeOf_join, readText_eq_ok]
  refine and_iff_right_of_imp fun hentry => h.2.locate ?_
  rw [hentry]
  rfl

theorem held_settle {b : Artifact} (ha : Settles fs directory a) (hid : b.id ≠ a.id) :
    Held (settle directory fs a) directory b ↔ Held fs directory b := by
  rw [Held, Held, file?_eq_text, file?_eq_text, entry?_settle ha, Function.update_of_ne]
  exact fun hplace => hid (List.singleton_inj.1 (List.append_cancel_left hplace))

/-- The paths of artifacts in a directory. -/
def pathsIn (directory : String) (as : List Artifact) : List String :=
  as.map fun a => join directory a.id

/-- **What is reported of artifacts** with different identifiers: those whose files had their texts
are unchanged, and the others have been written. -/
theorem Written.notedAll_eq (hnodup : (as.map (·.id)).Nodup)
    (h : ∀ a ∈ as, Settles fs directory a) (w : Written) :
    notedAll directory fs w as =
      ⟨w.written ++ pathsIn directory (as.filter fun a => ¬ Held fs directory a),
        w.unchanged ++ pathsIn directory (as.filter fun a => Held fs directory a)⟩ := by
  induction as generalizing fs w with
  | nil => simp [notedAll, pathsIn]
  | cons a as ih =>
    obtain ⟨ha, has⟩ := List.forall_mem_cons.1 h
    rw [List.map_cons, List.nodup_cons] at hnodup
    -- the files of the other artifacts are as they were
    have hheld : ∀ b ∈ as, Held (settle directory fs a) directory b ↔ Held fs directory b := by
      intro b hb
      refine held_settle ha fun hid => hnodup.1 ?_
      exact hid ▸ List.mem_map_of_mem hb
    have hlater : ∀ b ∈ as, Settles (settle directory fs a) directory b :=
      fun b hb => (has b hb).of_sameDirectories ha.sameDirectories
    have hunchanged : as.filter (fun b => Held (settle directory fs a) directory b) =
        as.filter fun b => Held fs directory b :=
      List.filter_congr fun b hb => decide_eq_decide.2 (hheld b hb)
    have hwritten : as.filter (fun b => ¬ Held (settle directory fs a) directory b) =
        as.filter fun b => ¬ Held fs directory b :=
      List.filter_congr fun b hb => decide_eq_decide.2 (not_congr (hheld b hb))
    rw [notedAll, ih hnodup.2 hlater, hunchanged, hwritten, noted]
    by_cases hhere : Held fs directory a
    · rw [if_pos (ha.readText_eq_ok_iff.2 hhere)]
      simp [pathsIn, hhere]
    · rw [if_neg (mt ha.readText_eq_ok_iff.1 hhere)]
      simp [pathsIn, hhere]

/-! ### What is there afterwards -/

theorem foldl_withText_of_ne {entries : Location → Option Entry} {p : Location}
    (hp : ∀ a ∈ as, p ≠ placeOf directory ++ [a.id]) :
    as.foldl (withText directory) entries p = entries p := by
  induction as generalizing entries with
  | nil => rfl
  | cons a as ih =>
    obtain ⟨ha, has⟩ := List.forall_mem_cons.1 hp
    rw [List.foldl_cons, ih has, withText, Function.update_of_ne ha]

theorem foldl_withText_of_mem {entries : Location → Option Entry} (hnodup : (as.map (·.id)).Nodup)
    (ha : a ∈ as) :
    as.foldl (withText directory) entries (placeOf directory ++ [a.id]) = some (.text a.text) := by
  induction as generalizing entries with
  | nil => cases ha
  | cons b as ih =>
    rw [List.map_cons, List.nodup_cons] at hnodup
    rw [List.foldl_cons]
    rcases List.mem_cons.1 ha with rfl | ha
    · -- no artifact after it has this identifier
      rw [foldl_withText_of_ne, withText, Function.update_self]
      intro b hb hplace
      have hid := List.singleton_inj.1 (List.append_cancel_left hplace)
      exact hnodup.1 (hid ▸ List.mem_map_of_mem hb)
    · exact ih hnodup.2 ha

/-- Artifacts whose files have their texts leave the files as they are. -/
theorem foldl_settle_of_held (h : ∀ a ∈ as, Settles fs directory a ∧ Held fs directory a) :
    as.foldl (settle directory) fs = fs := by
  induction as with
  | nil => rfl
  | cons a as ih =>
    obtain ⟨⟨ha, hheld⟩, has⟩ := List.forall_mem_cons.1 h
    have hsettle : settle directory fs a = fs := by
      rw [settle, ha.readText_eq_ok_iff.2 hheld]
      exact if_pos rfl
    rw [List.foldl_cons, hsettle, ih has]

/-- Artifacts whose files have their texts are all unchanged, and nothing is written. -/
theorem does_writeArtifacts_of_held {session : Session}
    (hmade : session.files.makeDirectories directory = (none, session.files))
    (hnodup : (as.map (·.id)).Nodup)
    (h : ∀ a ∈ as, Settles session.files directory a ∧ Held session.files directory a) :
    ∃ again, (writeArtifacts directory as : Run (StateM Session) Written).result session =
      (.ok ⟨[], pathsIn directory as⟩, again) ∧ again.files = session.files := by
  refine (does_writeArtifacts directory as session _ _).2
    ⟨session.files, hmade, fun a ha => (h a ha).1, (foldl_settle_of_held h).symm, ?_⟩
  have hall : as.filter (fun a => Held session.files directory a) = as :=
    List.filter_eq_self.2 fun a ha => decide_eq_true (h a ha).2
  have hnone : as.filter (fun a => ¬ Held session.files directory a) = [] :=
    List.filter_eq_nil_iff.2 fun a ha => by simp [(h a ha).2]
  rw [Written.notedAll_eq hnodup fun a ha => (h a ha).1, hall, hnone]
  rfl

/-- **What writing artifacts changes and reports.**  Whatever the outcome, only files directly in the
directory are changed.  Where the identifiers are different and the run ends, each file has the text
of its artifact and no other file is changed; unchanged are reported the artifacts whose files had
their texts, written the others, both in their order; and to write them once more changes nothing. -/
theorem result_writeArtifacts {session after : Session} {outcome : Except Halt Written}
    (h : (writeArtifacts directory as : Run (StateM Session) Written).result session =
      (outcome, after)) :
    (∀ p, (∀ name, isName name = true → p ≠ placeOf directory ++ [name]) →
      after.files.file? p = session.files.file? p) ∧
    ((as.map (·.id)).Nodup → ∀ w, outcome = .ok w →
      (∀ a ∈ as, after.files.readText (join directory a.id) = .ok a.text) ∧
      (∀ p, (∀ a ∈ as, p ≠ placeOf directory ++ [a.id]) →
        after.files.file? p = session.files.file? p) ∧
      w.unchanged = pathsIn directory (as.filter fun a => Held session.files directory a) ∧
      w.written = pathsIn directory (as.filter fun a => ¬ Held session.files directory a) ∧
      ∃ again, (writeArtifacts directory as : Run (StateM Session) Written).result after =
        (.ok ⟨[], pathsIn directory as⟩, again) ∧ again.files = after.files) := by
  constructor
  · have hspares := spares_writeArtifacts directory as session
    rwa [h] at hspares
  rintro hnodup w rfl
  obtain ⟨opened, hopened, hsettles, hafter, hw⟩ :=
    (does_writeArtifacts directory as session w after.files).1 ⟨after, h, rfl⟩
  -- the directory has been made without a change of files, and stays as it has been made
  have hfiles (p : Location) : opened.file? p = session.files.file? p := by
    have hmade := file?_makeDirectories session.files directory p
    rwa [hopened] at hmade
  have hsame : opened.SameDirectories after.files :=
    hafter ▸ sameDirectories_foldl_settle hsettles
  have hagain : after.files.makeDirectories directory = (none, after.files) :=
    makeDirectories_of_directories hopened fun p hp => (hsame p).1 hp
  have hheld : ∀ a ∈ as, Settles after.files directory a ∧ Held after.files directory a := by
    intro a ha
    refine ⟨(hsettles a ha).of_sameDirectories hsame, ?_⟩
    rw [Held, file?_eq_text, hafter, entry?_foldl_settle hsettles, foldl_withText_of_mem hnodup ha]
  have hbefore (a : Artifact) : Held opened directory a ↔ Held session.files directory a := by
    rw [Held, Held, hfiles]
  rw [Written.notedAll_eq hnodup hsettles] at hw
  refine ⟨fun a ha => ?_, fun p hp => ?_, ?_, ?_, does_writeArtifacts_of_held hagain hnodup hheld⟩
  · exact (hheld a ha).1.readText_eq_ok_iff.2 (hheld a ha).2
  · have hentry : after.files.entry? p = opened.entry? p := by
      rw [hafter, entry?_foldl_settle hsettles, foldl_withText_of_ne hp]
    rw [← hfiles, file?, file?, hentry]
  · rw [hw]
    simp only [hbefore, List.nil_append]
  · rw [hw]
    simp only [hbefore, List.nil_append]

/-- A directory with a text and a file that is no text. -/
def usedOutput : Session where
  files := ⟨[(["out"], .directory), (["out", "a.rs"], .text "a"), (["out", "b.rs"], .binary),
    (["out", "c.rs"], .text "old")]⟩

/-- Artifacts of which one is there already. -/
def threeArtifacts : List Artifact := [⟨"b.rs", "b"⟩, ⟨"a.rs", "a"⟩, ⟨"d.rs", "d"⟩]

theorem result_writeArtifacts_used :
    ∃ after again,
      (writeArtifacts "out" threeArtifacts : Run (StateM Session) Written).result usedOutput =
        (.ok ⟨["out/b.rs", "out/d.rs"], ["out/a.rs"]⟩, after) ∧
      after.files.readText "out/b.rs" = .ok "b" ∧
      after.files.file? ["out", "c.rs"] = some (.text "old") ∧
      (writeArtifacts "out" threeArtifacts : Run (StateM Session) Written).result after =
        (.ok ⟨[], ["out/b.rs", "out/a.rs", "out/d.rs"]⟩, again) ∧ again.files = after.files := by
  cases hresult : (writeArtifacts "out" threeArtifacts : Run (StateM Session) Written).result
    usedOutput with
  | mk outcome after =>
    have houtcome : ((writeArtifacts "out" threeArtifacts : Run (StateM Session) Written).result
        usedOutput).1 = .ok ⟨["out/b.rs", "out/d.rs"], ["out/a.rs"]⟩ := by
      decide +kernel
    rw [hresult] at houtcome
    obtain ⟨-, hend⟩ := result_writeArtifacts hresult
    obtain ⟨htexts, hothers, -, -, again, hagain, hsame⟩ := hend (by decide) _ houtcome
    refine ⟨after, again, Prod.ext houtcome rfl, ?_, ?_, hagain, hsame⟩
    · exact htexts ⟨"b.rs", "b"⟩ List.mem_cons_self
    · rw [hothers ["out", "c.rs"] (by decide +kernel)]
      rfl

end Scaffold
