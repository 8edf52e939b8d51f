import Scaffold.Proofs.Files.System
import Mathlib.Data.List.TakeWhile

/-!
# Names of entries

A location is told by steps that lead out of the working directory and then by names.  In a file
system that is named (`IsNamed`) all of these can be spelled in a path, so the way to a file below a
directory leads to it (`placeOf_of_mem_filesBelow`).  Making directories and writing files keeps a
file system named, hence every file system that is made from the empty one is.
-/

namespace Scaffold.Files

/-- Whether the names of a location can be spelled in a path. -/
def Location.IsNamed (place : Location) : Prop :=
  ∀ name ∈ place.dropWhile leadsOut, isName name = true

instance (place : Location) : Decidable place.IsNamed :=
  inferInstanceAs (Decidable (∀ _ ∈ _, _))

namespace Location

variable {place : Location}

theorem dropWhile_append_of_isGiven {front : Location} (h : front.isGiven = true)
    (rest : Location) : (front ++ rest).dropWhile leadsOut = rest.dropWhile leadsOut := by
  have hfront : front.dropWhile leadsOut = [] :=
    List.dropWhile_eq_nil_iff.2 (List.all_eq_true.1 h)
  rw [List.dropWhile_append, hfront, List.isEmpty_nil, if_pos rfl]

theorem dropWhile_append_of_not_isGiven {front : Location} (h : front.isGiven = false)
    (rest : Location) : (front ++ rest).dropWhile leadsOut = front.dropWhile leadsOut ++ rest := by
  have hfront : front.dropWhile leadsOut ≠ [] := by
    rw [ne_eq, List.dropWhile_eq_nil_iff]
    intro hall
    rw [isGiven, List.all_eq_true.2 hall] at h
    cases h
  rw [List.dropWhile_append, if_neg (by rw [List.isEmpty_iff]; exact hfront)]

/-- The names of a way below a directory are names of the place that it leads to. -/
theorem IsNamed.of_append {directory : Location} {name : String} {names : List String}
    (h : IsNamed (directory ++ name :: names)) (hout : leadsOut name = false) :
    ∀ n ∈ name :: names, isName n = true := by
  intro n hn
  apply h n
  cases hgiven : directory.isGiven with
  | true => rwa [dropWhile_append_of_isGiven hgiven, List.dropWhile_cons_of_neg (by rw [hout]; decide)]
  | false =>
    rw [dropWhile_append_of_not_isGiven hgiven]
    exact List.mem_append_right _ hn

theorem isNamed_of_isGiven (h : place.isGiven = true) : place.IsNamed := by
  intro name hname
  rw [List.dropWhile_eq_nil_iff.2 (List.all_eq_true.1 h)] at hname
  exact absurd hname List.not_mem_nil

theorem isGiven_start (path : String) : (start path).isGiven = true := by
  unfold start
  split_ifs <;> rfl

theorem isGiven_up (h : place.isGiven = true) : isGiven (place ++ [".."]) = true := by
  rw [isGiven, List.all_append]
  exact Bool.and_eq_true_iff.2 ⟨h, rfl⟩

theorem IsNamed.concat (h : place.IsNamed) {name : String} (hname : isName name = true) :
    IsNamed (place ++ [name]) := by
  intro n hn
  cases hgiven : place.isGiven with
  | true =>
    rw [dropWhile_append_of_isGiven hgiven] at hn
    rwa [List.mem_singleton.1 (List.dropWhile_subset _ hn)]
  | false =>
    rw [dropWhile_append_of_not_isGiven hgiven, List.mem_append, List.mem_singleton] at hn
    rcases hn with hn | rfl
    · exact h n hn
    · exact hname

theorem IsNamed.above (h : place.IsNamed) : place.above.IsNamed := by
  unfold Location.above
  split_ifs with hroot hgiven
  · exact h
  · exact isNamed_of_isGiven (isGiven_up hgiven)
  · intro n hn
    cases hfront : isGiven place.dropLast with
    | true => exact isNamed_of_isGiven hfront n hn
    | false =>
      have hne : place ≠ [] := by
        rintro rfl
        cases hfront
      apply h n
      rw [← List.dropLast_append_getLast hne, dropWhile_append_of_not_isGiven hfront]
      exact List.mem_append_left _ hn

end Location

/-- A piece of a path that leads down is a name. -/
theorem isName_of_mem_pieces {path piece : String} (h : piece ∈ pieces path)
    (hstep : isStep piece = true) (hup : piece ≠ "..") : isName piece = true :=
  isName_iff.2 ⟨hstep, hup, not_mem_of_mem_pieces h⟩

theorem Location.IsNamed.foldl_follow {place : Location} (h : place.IsNamed) {path : String}
    {ps : List String} (hps : ∀ piece ∈ ps, piece ∈ pieces path) :
    Location.IsNamed (ps.foldl Location.follow place) := by
  induction ps generalizing place with
  | nil => exact h
  | cons piece ps ih =>
    obtain ⟨hpiece, hps⟩ := List.forall_mem_cons.1 hps
    rw [List.foldl_cons]
    refine ih ?_ hps
    unfold Location.follow
    split_ifs with hstep hup
    · exact h
    · exact h.above
    · have hstep : isStep piece = true := by simpa using hstep
      exact h.concat (isName_of_mem_pieces hpiece hstep hup)

theorem isNamed_placeOf (path : String) : (placeOf path).IsNamed :=
  (Location.isNamed_of_isGiven (Location.isGiven_start path)).foldl_follow fun _ h => h

namespace FileSystem

variable {fs later : FileSystem} {path : String}

/-- **Whether the names of all entries** can be spelled in a path. -/
def IsNamed (fs : FileSystem) : Prop := ∀ entry ∈ fs.entries, entry.1.IsNamed

instance (fs : FileSystem) : Decidable fs.IsNamed :=
  inferInstanceAs (Decidable (∀ _ ∈ _, _))

/-- The way to a file below a directory is made of names, and leads to a place below it. -/
theorem placeOf_of_mem_filesBelow (h : fs.IsNamed) {way : List String}
    (hway : way ∈ fs.filesBelow path) :
    placeOf (pathBelow path way) = placeOf path ++ way ∧ (placeOf path).Holds (placeOf path ++ way) := by
  unfold filesBelow at hway
  cases hlocate : fs.locate path with
  | error fault =>
    rw [hlocate] at hway
    exact absurd hway List.not_mem_nil
  | ok place =>
    obtain rfl := eq_placeOf_of_locate hlocate
    rw [hlocate] at hway
    obtain ⟨⟨there, e⟩, hmem, hlisted⟩ := List.mem_filterMap.1 hway
    obtain ⟨hbelow, -⟩ := Option.filter_eq_some_iff.1 hlisted
    obtain ⟨rfl, name, names, rfl, hout⟩ := Location.below?_eq_some.1 hbelow
    have hnames := (h _ hmem).of_append hout
    exact ⟨placeOf_pathBelow path (List.cons_ne_nil _ _) hnames,
      Location.holds_iff.2 ⟨name, names, rfl, hout⟩⟩

theorem IsNamed.put (h : fs.IsNamed) {place : Location} (hplace : place.IsNamed) (e : Entry) :
    (fs.put place e).IsNamed := by
  intro entry hentry
  rcases List.mem_cons.1 hentry with rfl | hentry
  · exact hplace
  · exact h entry (List.mem_filter.1 hentry).1

theorem IsNamed.makeAlong (h : fs.IsNamed) {place : Location} (hplace : place.IsNamed)
    {rest : List String} (hrest : ∀ piece ∈ rest, piece ∈ pieces path) :
    (fs.makeAlong place rest).2.IsNamed := by
  fun_induction FileSystem.makeAlong fs place rest with
  | case1 fs place => exact h
  | case2 fs place piece rest hstep ih => exact ih h hplace (List.forall_mem_cons.1 hrest).2
  | case3 fs place rest hstep ih => exact ih h hplace.above (List.forall_mem_cons.1 hrest).2
  | case4 fs place piece rest hstep hup hlong => exact h
  | case5 fs place piece rest hstep hup hlong next hentry ih =>
    obtain ⟨hpiece, hrest⟩ := List.forall_mem_cons.1 hrest
    have hstep : isStep piece = true := by simpa using hstep
    exact ih h (hplace.concat (isName_of_mem_pieces hpiece hstep hup)) hrest
  | case6 fs place piece rest hstep hup hlong next e hne hentry => exact h
  | case7 fs place piece rest hstep hup hlong next hentry hdot => exact h
  | case8 fs place piece rest hstep hup hlong next hentry hdot ih =>
    obtain ⟨hpiece, hrest⟩ := List.forall_mem_cons.1 hrest
    have hstep : isStep piece = true := by simpa using hstep
    have hnext : Location.IsNamed next := hplace.concat (isName_of_mem_pieces hpiece hstep hup)
    exact ih (h.put hnext .directory) hnext hrest

/-- Making directories keeps a file system named. -/
theorem IsNamed.makeDirectories (h : fs.IsNamed) (path : String) :
    (fs.makeDirectories path).2.IsNamed := by
  unfold FileSystem.makeDirectories
  split_ifs
  · exact h
  · cases pathFault? path with
    | some fault => exact h
    | none =>
      exact h.makeAlong (Location.isNamed_of_isGiven (Location.isGiven_start path)) fun _ hp => hp

/-- Writing a file keeps a file system named. -/
theorem IsNamed.write (h : fs.IsNamed) {content : Entry} (hwrite : fs.write path content = .ok later) :
    later.IsNamed := by
  obtain ⟨-, rfl⟩ := write_eq_ok.1 hwrite
  exact h.put (isNamed_placeOf path) content

end FileSystem

end Scaffold.Files
