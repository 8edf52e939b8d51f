import Scaffold.Proofs.Files.Path
import Scaffold.Proofs.Stopping
import Mathlib.Logic.Function.Basic

/-!
# File systems that grow

Making directories and writing files removes nothing.  `Grows area` says so of two file systems:
what is there remains, a directory remains one, and only entries of the area are put or replaced.
So a path that leads somewhere leads there later (`Grows.locate`), a text that is outside of the
area can be read as before (`Grows.readText`), and of the files below a directory those remain the
same that the area has none of (`Grows.filter_filesBelow`).

Directories that have been made are there when they are to be made again
(`makeDirectories_of_directories`), and a file that can be written can be written as long as the
directories are the same (`Takes.of_sameDirectories`).
-/

namespace Scaffold.Files.FileSystem

variable {fs later last : FileSystem} {place : Location} {path : String}

/-! ### Entries -/

theorem lookup_filter_ne {entries : List (Location × Entry)} {p : Location} (h : p ≠ place) :
    (entries.filter (·.1 != place)).lookup p = entries.lookup p := by
  induction entries with
  | nil => rfl
  | cons entry entries ih =>
    obtain ⟨there, e⟩ := entry
    rw [List.filter_cons]
    split_ifs with hthere
    · rw [List.lookup_cons, List.lookup_cons, ih]
    · have hsame : there = place := by simpa using hthere
      have hother : (p == there) = false := by
        rw [hsame]
        exact beq_false_of_ne h
      rw [List.lookup_cons, hother, ih]

/-- What is put somewhere is there, and all else is as it was. -/
theorem entry?_put (fs : FileSystem) (h : place.isGiven = false) (e : Entry) :
    FileSystem.entry? (fs.put place e) = Function.update fs.entry? place (some e) := by
  funext p
  rw [Function.update_apply]
  unfold entry? put
  by_cases hp : p = place
  · rw [if_pos hp, hp, if_neg (by rw [h]; exact Bool.false_ne_true), List.lookup_cons, beq_self_eq_true]
  · rw [if_neg hp, List.lookup_cons, beq_false_of_ne hp, lookup_filter_ne hp]

theorem entry?_of_isGiven (h : place.isGiven = true) : fs.entry? place = some .directory := by
  unfold entry?
  rw [if_pos h]

theorem isGiven_of_ne_directory (h : fs.entry? place ≠ some .directory) :
    place.isGiven = false := by
  rw [Bool.eq_false_iff]
  intro hgiven
  exact h (entry?_of_isGiven hgiven)

theorem mem_entries {e : Entry} (h : fs.entry? place = some e) (hgiven : place.isGiven = false) :
    (place, e) ∈ fs.entries := by
  unfold entry? at h
  rw [hgiven, if_neg Bool.false_ne_true] at h
  obtain ⟨before, rest, hentries, -⟩ := List.lookup_eq_some_iff.1 h
  rw [hentries]
  exact List.mem_append_right _ List.mem_cons_self

theorem entry?_ne_none {e : Entry} (h : (place, e) ∈ fs.entries) : fs.entry? place ≠ none := by
  unfold entry?
  split_ifs
  · exact nofun
  · intro hnone
    exact absurd rfl (bne_iff_ne.1 (List.lookup_eq_none_iff.1 hnone _ h))

/-! ### Growing -/

/-- **Growing inside an area,** which tells what may be put or replaced, and where. -/
structure Grows (area : Location → Entry → Prop) (fs later : FileSystem) : Prop where
  /-- What is there remains there. -/
  present : ∀ p, (fs.entry? p).isSome = true → (later.entry? p).isSome = true
  /-- A directory remains one. -/
  directory : ∀ p, fs.entry? p = some .directory → later.entry? p = some .directory
  /-- Outside of the area nothing changes. -/
  outside : ∀ p, (∀ e, ¬ area p e) → later.entry? p = fs.entry? p
  /-- What is gathered from entries outside of the area is gathered in the same order. -/
  gathered : ∀ f : Location × Entry → Option (List String), (∀ p e, area p e → f (p, e) = none) →
    later.entries.filterMap f = fs.entries.filterMap f

namespace Grows

variable {area wider : Location → Entry → Prop}

theorem refl (area : Location → Entry → Prop) (fs : FileSystem) : fs.Grows area fs :=
  ⟨fun _ h => h, fun _ h => h, fun _ _ => rfl, fun _ _ => rfl⟩

theorem trans (h : Grows area fs later) (h' : Grows area later last) : Grows area fs last where
  present p hp := h'.present p (h.present p hp)
  directory p hp := h'.directory p (h.directory p hp)
  outside p hp := (h'.outside p hp).trans (h.outside p hp)
  gathered f hf := (h'.gathered f hf).trans (h.gathered f hf)

theorem mono (h : Grows area fs later) (hwider : ∀ p e, area p e → wider p e) :
    Grows wider fs later where
  present := h.present
  directory := h.directory
  outside p hp := h.outside p fun e harea => hp e (hwider p e harea)
  gathered f hf := h.gathered f fun p e harea => hf p e (hwider p e harea)

/-- A file system grows where something is put that is no directory yet: by what is put, and by
what that replaces. -/
theorem put (h : fs.entry? place ≠ some .directory) (e : Entry) :
    Grows (fun p e' => p = place ∧ (e' = e ∨ fs.entry? place ≠ none)) fs (fs.put place e) := by
  have hentry := entry?_put fs (isGiven_of_ne_directory h) e
  refine ⟨fun p hp => ?_, fun p hp => ?_, fun p hp => ?_, fun f hf => ?_⟩
  · rw [hentry, Function.update_apply]
    split_ifs
    · rfl
    · exact hp
  · have hne : p ≠ place := by
      rintro rfl
      exact h hp
    rw [hentry, Function.update_of_ne hne, hp]
  · rw [hentry, Function.update_of_ne fun hplace => hp e ⟨hplace, .inl rfl⟩]
  · -- the entry that is put and those that it replaces give nothing
    have hkept : ∀ entry ∈ fs.entries,
        (if (entry.1 != place) = true then f entry else none) = f entry := by
      rintro ⟨p, e'⟩ hmem
      by_cases hp : p = place
      · have hthere : fs.entry? place ≠ none := entry?_ne_none (hp ▸ hmem)
        rw [hf p e' ⟨hp, .inr hthere⟩, ite_self]
      · rw [if_pos (bne_iff_ne.2 hp)]
    rw [FileSystem.put, List.filterMap_cons, hf place e ⟨rfl, .inl rfl⟩]
    dsimp only
    rw [List.filterMap_filter]
    exact List.filterMap_congr hkept

end Grows

/-! ### Following paths -/

/-- Which paths may lead somewhere. -/
theorem pathFault?_eq_none_iff :
    pathFault? path = none ↔
      (∀ c ∈ path.toList, c.toNat ≠ 0) ∧ path ≠ "" ∧ isLongPath path = false := by
  unfold pathFault?
  split_ifs with hnul hempty hlong
  · refine iff_of_false nofun fun h => ?_
    obtain ⟨c, hc, hzero⟩ := List.any_eq_true.1 hnul
    exact h.1 c hc (of_decide_eq_true hzero)
  · exact iff_of_false nofun fun h => h.2.1 (String.isEmpty_iff.1 hempty)
  · exact iff_of_false nofun fun h => Bool.false_ne_true (h.2.2.symm.trans hlong)
  · refine iff_of_true rfl ⟨fun c hc hzero => ?_, fun hnil => ?_, Bool.eq_false_iff.2 hlong⟩
    · exact hnul (List.any_eq_true.2 ⟨c, hc, decide_eq_true hzero⟩)
    · exact hempty (String.isEmpty_iff.2 hnil)

/-- When a piece can be followed, and where it leads. -/
theorem step_eq_ok {piece : String} {p : Location} :
    fs.step place piece = .ok p ↔ fs.entry? place = some .directory ∧ place.follow piece = p ∧
      (isStep piece = true → piece ≠ ".." →
        isLongName piece = false ∧ (fs.entry? (place ++ [piece])).isSome = true) := by
  unfold step Location.follow
  by_cases hdirectory : fs.entry? place = some .directory
  · rw [if_neg (not_not_intro hdirectory)]
    cases hstep : isStep piece with
    | false => simp [hdirectory]
    | true =>
      rw [Bool.not_true, if_neg Bool.false_ne_true, if_neg Bool.false_ne_true]
      by_cases hup : piece = ".."
      · simp [hdirectory, hup]
      · rw [if_neg hup, if_neg hup]
        cases hlong : isLongName piece <;> cases hentry : fs.entry? (place ++ [piece]) <;>
          simp [hdirectory, hup]
  · rw [if_pos hdirectory]
    simp [hdirectory]

/-- Following pieces one after another leads to the place that they name. -/
theorem eq_foldl_of_foldlM_step {ps : List String} {p : Location}
    (h : ps.foldlM fs.step place = .ok p) : p = ps.foldl Location.follow place := by
  induction ps generalizing place with
  | nil => exact (Except.ok.inj h).symm
  | cons piece ps ih =>
    rw [List.foldlM_cons] at h
    obtain ⟨next, hstep, hrest⟩ := bind_eq_ok.1 h
    rw [List.foldl_cons, (step_eq_ok.1 hstep).2.1]
    exact ih hrest

theorem locate_eq_ok {p : Location} :
    fs.locate path = .ok p ↔
      pathFault? path = none ∧ (pieces path).foldlM fs.step (Location.start path) = .ok p := by
  unfold locate
  cases pathFault? path with
  | none => simp
  | some fault => simp

theorem eq_placeOf_of_locate {p : Location} (h : fs.locate path = .ok p) : p = placeOf path :=
  eq_foldl_of_foldlM_step (locate_eq_ok.1 h).2

theorem readText_eq_ok {text : String} :
    fs.readText path = .ok text ↔
      fs.locate path = .ok (placeOf path) ∧ fs.entry? (placeOf path) = some (.text text) := by
  unfold readText
  cases hlocate : fs.locate path with
  | error fault => simp [bind, Except.bind]
  | ok p =>
    obtain rfl := eq_placeOf_of_locate hlocate
    dsimp only [bind, Except.bind]
    split <;> simp_all

theorem isDirectory_iff :
    fs.isDirectory path = true ↔
      fs.locate path = .ok (placeOf path) ∧ fs.entry? (placeOf path) = some .directory := by
  unfold isDirectory
  cases hlocate : fs.locate path with
  | error fault => simp
  | ok p =>
    obtain rfl := eq_placeOf_of_locate hlocate
    simp

theorem filesBelow_of_isDirectory (h : fs.isDirectory path = true) :
    fs.filesBelow path = fs.entries.filterMap fun entry =>
      ((placeOf path).below? entry.1).filter (isListed path · entry.2) := by
  rw [filesBelow, (isDirectory_iff.1 h).1]

namespace Grows

variable {area : Location → Entry → Prop}

theorem step (h : Grows area fs later) {piece : String} {p : Location}
    (hstep : fs.step place piece = .ok p) : later.step place piece = .ok p := by
  obtain ⟨hdirectory, hp, hname⟩ := step_eq_ok.1 hstep
  refine step_eq_ok.2 ⟨h.directory _ hdirectory, hp, fun hpiece hup => ?_⟩
  obtain ⟨hlong, hsome⟩ := hname hpiece hup
  exact ⟨hlong, h.present _ hsome⟩

theorem foldlM_step (h : Grows area fs later) {ps : List String} {p : Location}
    (hps : ps.foldlM fs.step place = .ok p) : ps.foldlM later.step place = .ok p := by
  induction ps generalizing place with
  | nil => exact hps
  | cons piece ps ih =>
    rw [List.foldlM_cons] at hps ⊢
    obtain ⟨next, hstep, hrest⟩ := bind_eq_ok.1 hps
    exact bind_eq_ok.2 ⟨next, h.step hstep, ih hrest⟩

/-- **A path that leads somewhere leads there later.** -/
theorem locate (h : Grows area fs later) {p : Location} (hlocate : fs.locate path = .ok p) :
    later.locate path = .ok p := by
  obtain ⟨hfault, hfollow⟩ := locate_eq_ok.1 hlocate
  exact locate_eq_ok.2 ⟨hfault, h.foldlM_step hfollow⟩

/-- A text outside of the area is read as before. -/
theorem readText (h : Grows area fs later) {text : String} (hread : fs.readText path = .ok text)
    (hplace : ∀ e, ¬ area (placeOf path) e) : later.readText path = .ok text := by
  obtain ⟨hlocate, hentry⟩ := readText_eq_ok.1 hread
  refine readText_eq_ok.2 ⟨h.locate hlocate, ?_⟩
  rw [h.outside _ hplace, hentry]

theorem isDirectory (h : Grows area fs later) (hdirectory : fs.isDirectory path = true) :
    later.isDirectory path = true := by
  obtain ⟨hlocate, hentry⟩ := isDirectory_iff.1 hdirectory
  exact isDirectory_iff.2 ⟨h.locate hlocate, h.directory _ hentry⟩

/-- Of the files below a directory those remain the same that the area has none of. -/
theorem filter_filesBelow (h : Grows area fs later) (hdirectory : fs.isDirectory path = true)
    {keep : List String → Bool}
    (hplace : ∀ p e, area p e → ∀ way, (placeOf path).below? p = some way →
      isListed path way e = true → keep way = false) :
    (later.filesBelow path).filter keep = (fs.filesBelow path).filter keep := by
  rw [filesBelow_of_isDirectory hdirectory, filesBelow_of_isDirectory (h.isDirectory hdirectory),
    List.filter_filterMap, List.filter_filterMap]
  refine h.gathered _ fun p e harea => ?_
  dsimp only
  rw [Option.filter_filter, Option.filter_eq_none_iff]
  intro way hway hlisted
  obtain ⟨hlisted, hkeep⟩ := Bool.and_eq_true_iff.1 hlisted
  rw [hplace p e harea way hway hlisted] at hkeep
  cases hkeep

end Grows

/-! ### Making directories -/

/-- Where directories are made. -/
def Made (fs made : FileSystem) (p : Location) : Prop :=
  fs.entry? p = none ∧ made.entry? p = some .directory

theorem Made.mem_entries {p : Location} (h : fs.Made later p) :
    (p, Entry.directory) ∈ later.entries := by
  have hne : fs.entry? p ≠ some .directory := by
    rw [h.1]
    exact nofun
  exact FileSystem.mem_entries h.2 (isGiven_of_ne_directory hne)

theorem grows_makeAlong (fs : FileSystem) (place : Location) (rest : List String) :
    Grows (fun p e => fs.Made (fs.makeAlong place rest).2 p ∧ e = .directory) fs
      (fs.makeAlong place rest).2 := by
  fun_induction makeAlong fs place rest with
  | case1 fs place => exact .refl _ fs
  | case2 fs place piece rest hstep ih => exact ih
  | case3 fs place rest hstep ih => exact ih
  | case4 fs place piece rest hstep hup hlong => exact .refl _ fs
  | case5 fs place piece rest hstep hup hlong next hentry ih => exact ih
  | case6 fs place piece rest hstep hup hlong next e hne hentry => exact .refl _ fs
  | case7 fs place piece rest hstep hup hlong next hentry hdot => exact .refl _ fs
  | case8 fs place piece rest hstep hup hlong next hentry hdot ih =>
    have hne : fs.entry? next ≠ some .directory := by
      rw [hentry]
      exact nofun
    have hput := entry?_put fs (isGiven_of_ne_directory hne) .directory
    have hgrows := Grows.put hne .directory
    refine (hgrows.mono ?_).trans (ih.mono ?_)
    · rintro p e ⟨rfl, rfl | hthere⟩
      · refine ⟨⟨hentry, ih.directory _ ?_⟩, rfl⟩
        rw [hput, Function.update_self]
      · exact absurd hentry hthere
    · rintro p e ⟨⟨hnone, hmade⟩, rfl⟩
      refine ⟨⟨?_, hmade⟩, rfl⟩
      have hp : p ≠ next := by
        rintro rfl
        rw [hput, Function.update_self] at hnone
        cases hnone
      rwa [hput, Function.update_of_ne hp] at hnone

/-- Making directories changes nothing but what is missing. -/
theorem grows_makeDirectories (fs : FileSystem) (path : String) :
    Grows (fun p e => fs.Made (fs.makeDirectories path).2 p ∧ e = .directory) fs
      (fs.makeDirectories path).2 := by
  unfold makeDirectories
  split_ifs
  · exact .refl _ fs
  · cases pathFault? path with
    | some fault => exact .refl _ fs
    | none => exact grows_makeAlong fs _ _

theorem makeAlong_of_directories {rest : List String} {made : FileSystem}
    (h : fs.makeAlong place rest = (none, made))
    (hlater : ∀ p, made.entry? p = some .directory → later.entry? p = some .directory) :
    later.makeAlong place rest = (none, later) := by
  fun_induction makeAlong fs place rest with
  | case1 fs place => rfl
  | case2 fs place piece rest hstep ih =>
    rw [makeAlong, if_pos hstep]
    exact ih h
  | case3 fs place rest hstep ih =>
    rw [makeAlong, if_neg hstep, if_pos rfl]
    exact ih h
  | case4 fs place piece rest hstep hup hlong => cases h
  | case5 fs place piece rest hstep hup hlong next hentry ih =>
    have hthere : later.entry? next = some .directory := by
      refine hlater next ?_
      have hgrows := grows_makeAlong fs next rest
      rw [h] at hgrows
      exact hgrows.directory next hentry
    rw [makeAlong, if_neg hstep, if_neg hup, if_neg hlong]
    dsimp only
    rw [hthere]
    exact ih h
  | case6 fs place piece rest hstep hup hlong next e hne hentry => cases h
  | case7 fs place piece rest hstep hup hlong next hentry hdot => cases h
  | case8 fs place piece rest hstep hup hlong next hentry hdot ih =>
    have hne : fs.entry? next ≠ some .directory := by
      rw [hentry]
      exact nofun
    have hthere : later.entry? next = some .directory := by
      refine hlater next ?_
      have hgrows := grows_makeAlong (fs.put next .directory) next rest
      rw [h] at hgrows
      refine hgrows.directory next ?_
      rw [entry?_put _ (isGiven_of_ne_directory hne), Function.update_self]
    rw [makeAlong, if_neg hstep, if_neg hup, if_neg hlong]
    dsimp only
    rw [hthere]
    exact ih h

/-- **Directories that have been made** are there when they are to be made again. -/
theorem makeDirectories_of_directories {made : FileSystem}
    (h : fs.makeDirectories path = (none, made))
    (hlater : ∀ p, made.entry? p = some .directory → later.entry? p = some .directory) :
    later.makeDirectories path = (none, later) := by
  unfold makeDirectories at h ⊢
  split_ifs at h ⊢
  · rfl
  · cases hfault : pathFault? path with
    | some fault =>
      rw [hfault] at h
      cases h
    | none =>
      rw [hfault] at h
      exact makeAlong_of_directories h hlater

/-! ### Writing files -/

/-- Whether a file can be written at a path. -/
structure Takes (fs : FileSystem) (path : String) : Prop where
  fault : pathFault? path = none
  /-- All that stands before the name of the file leads to a directory. -/
  directory : ∃ p, (pieces path).dropLast.foldlM fs.step (Location.start path) = .ok p ∧
    fs.entry? p = some .directory
  name : isStep ((pieces path).getLastD "") = true ∧ (pieces path).getLastD "" ≠ ".." ∧
    isLongName ((pieces path).getLastD "") = false
  entry : fs.entry? (placeOf path) ≠ some .directory

theorem pieces_ne_nil (path : String) : pieces path ≠ [] := by
  rw [pieces, ne_eq, List.map_eq_nil_iff]
  exact Text.splitAtChar_ne_nil _

theorem dropLast_append_pieces (path : String) :
    (pieces path).dropLast ++ [(pieces path).getLastD ""] = pieces path := by
  have hlast : (pieces path).getLastD "" = (pieces path).getLast (pieces_ne_nil path) := by
    rw [List.getLastD_eq_getLast?, List.getLast?_eq_some_getLast (pieces_ne_nil path),
      Option.getD_some]
  rw [hlast, List.dropLast_append_getLast]

/-- The place of a file is told by its directory and its name. -/
theorem placeOf_eq_concat {p : Location}
    (hdirectory : (pieces path).dropLast.foldlM fs.step (Location.start path) = .ok p)
    (hstep : isStep ((pieces path).getLastD "") = true) (hup : (pieces path).getLastD "" ≠ "..") :
    placeOf path = p ++ [(pieces path).getLastD ""] := by
  rw [placeOf, ← dropLast_append_pieces path, List.foldl_append,
    ← eq_foldl_of_foldlM_step hdirectory, dropLast_append_pieces path]
  rw [List.foldl_cons, List.foldl_nil, Location.follow, hstep, if_neg (by decide), if_neg hup]

/-- **Writing a file** puts it at its place, where that can be done. -/
theorem write_eq_ok {content : Entry} :
    fs.write path content = .ok later ↔
      fs.Takes path ∧ later = fs.put (placeOf path) content := by
  unfold write
  constructor
  · intro h
    cases hfault : pathFault? path with
    | some fault =>
      rw [hfault] at h
      cases h
    | none =>
      rw [hfault] at h
      obtain ⟨p, hdirectory, h⟩ := bind_eq_ok.1 h
      dsimp only at h
      split_ifs at h with hentry hname hlong hthere
      have hstep : isStep ((pieces path).getLastD "") = true ∧ (pieces path).getLastD "" ≠ ".." := by
        simpa [not_or] using hname
      rw [not_not] at hentry
      rw [Bool.not_eq_true] at hlong
      rw [← placeOf_eq_concat hdirectory hstep.1 hstep.2] at h hthere
      exact ⟨⟨hfault, ⟨p, hdirectory, hentry⟩, ⟨hstep.1, hstep.2, hlong⟩, hthere⟩,
        (Except.ok.inj h).symm⟩
  · rintro ⟨⟨hfault, ⟨p, hdirectory, hentry⟩, ⟨hstep, hup, hlong⟩, hthere⟩, rfl⟩
    have hplace := placeOf_eq_concat hdirectory hstep hup
    have hname : (!isStep ((pieces path).getLastD "") ||
        decide ((pieces path).getLastD "" = "..")) ≠ true := by
      rw [hstep, decide_eq_false hup]
      decide
    rw [hfault]
    refine bind_eq_ok.2 ⟨p, hdirectory, ?_⟩
    dsimp only
    rw [if_neg (not_not_intro hentry), if_neg hname, hlong,
      if_neg Bool.false_ne_true, ← hplace, if_neg hthere]

/-- A file with a text can be written again. -/
theorem takes_of_readText {text : String} (hread : fs.readText path = .ok text)
    (hstep : isStep ((pieces path).getLastD "") = true) (hup : (pieces path).getLastD "" ≠ "..") :
    fs.Takes path := by
  obtain ⟨hlocate, hentry⟩ := readText_eq_ok.1 hread
  obtain ⟨hfault, hfollow⟩ := locate_eq_ok.1 hlocate
  rw [← dropLast_append_pieces path, List.foldlM_append] at hfollow
  obtain ⟨p, hfront, hlast⟩ := bind_eq_ok.1 hfollow
  rw [List.foldlM_cons] at hlast
  obtain ⟨next, hnext, -⟩ := bind_eq_ok.1 hlast
  obtain ⟨hdirectory, -, hname⟩ := step_eq_ok.1 hnext
  refine ⟨hfault, ⟨p, hfront, hdirectory⟩, ⟨hstep, hup, (hname hstep hup).1⟩, ?_⟩
  rw [hentry]
  exact nofun

/-- A way through directories leads through them wherever they are there. -/
theorem foldlM_step_of_directories {ps : List String} {p : Location}
    (hlater : ∀ q, fs.entry? q = some .directory → later.entry? q = some .directory)
    (hps : ps.foldlM fs.step place = .ok p) (hp : fs.entry? p = some .directory) :
    ps.foldlM later.step place = .ok p := by
  induction ps generalizing place with
  | nil => exact hps
  | cons piece ps ih =>
    rw [List.foldlM_cons] at hps ⊢
    obtain ⟨next, hstep, hrest⟩ := bind_eq_ok.1 hps
    -- the next place is a directory: it is followed further, or it is the last one
    have hnext : fs.entry? next = some .directory := by
      cases ps with
      | nil => rwa [Except.ok.inj hrest]
      | cons piece' ps' =>
        rw [List.foldlM_cons] at hrest
        obtain ⟨after, hstep', -⟩ := bind_eq_ok.1 hrest
        exact (step_eq_ok.1 hstep').1
    obtain ⟨hdirectory, hfollow, hname⟩ := step_eq_ok.1 hstep
    refine bind_eq_ok.2 ⟨next, step_eq_ok.2 ⟨hlater _ hdirectory, hfollow, ?_⟩, ih hrest⟩
    intro hpiece hup
    have hconcat : place ++ [piece] = next := by
      rw [← hfollow, Location.follow, hpiece, if_neg (by decide), if_neg hup]
    refine ⟨(hname hpiece hup).1, ?_⟩
    rw [hconcat, hlater _ hnext]
    rfl

/-- Whether two file systems have the same directories. -/
def SameDirectories (fs later : FileSystem) : Prop :=
  ∀ p, fs.entry? p = some .directory ↔ later.entry? p = some .directory

/-- A file can be written as long as the directories are the same. -/
theorem Takes.of_sameDirectories (h : fs.Takes path) (hsame : fs.SameDirectories later) :
    later.Takes path := by
  obtain ⟨p, hfront, hdirectory⟩ := h.directory
  have hlater := foldlM_step_of_directories (fun q hq => (hsame q).1 hq) hfront hdirectory
  exact ⟨h.fault, ⟨p, hlater, (hsame p).1 hdirectory⟩, h.name, fun he => h.entry ((hsame _).2 he)⟩

end Scaffold.Files.FileSystem
