import Scaffold.Proofs.Files.System
import Mathlib.Data.List.TakeWhile

/-!
# Detours

A path may go into a directory and back again any number of times.  Such a path leads where it leads
without the detours (`locate_detour`), as long as it is not too long to be followed.  What is seen
from its parent is behind the same detours (`parent?_detour`, `join_detour`).
-/

namespace Scaffold.Files

/-- The pieces of a path, joined again, are the path. -/
theorem intercalate_pieces (path : String) : "/".intercalate (pieces path) = path := by
  have hcut (cs : List Char) : ['/'].intercalate (Text.splitAtChar '/' cs) = cs := by
    induction cs with
    | nil => rfl
    | cons c cs ih =>
      rw [Text.splitAtChar]
      cases h : Text.splitAtChar '/' cs with
      | nil => exact absurd h (Text.splitAtChar_ne_nil cs)
      | cons piece pieces =>
        rw [h] at ih
        dsimp only
        split_ifs with hc
        · rw [List.intercalate_cons_cons, ih, hc]
          rfl
        · cases pieces with
          | nil =>
            rw [List.intercalate_singleton] at ih ⊢
            rw [ih]
          | cons next pieces =>
            rw [List.intercalate_cons_cons] at ih ⊢
            rw [← ih]
            rfl
  apply String.toList_inj.1
  rw [String.toList_intercalate, pieces, List.map_map]
  have hid : String.toList ∘ String.ofList = id := funext fun cs => String.toList_ofList
  rw [hid, List.map_id]
  exact hcut path.toList

/-- The parent of an entry that is seen from a directory. -/
theorem parent?_append {base name : String} (hname : isName name = true)
    (hfirst : (pieces base).head? ≠ some "") (hlast : ∀ piece ∈ (pieces base).getLast?,
      isStep piece = true) : parent? (base ++ "/" ++ name) = some base := by
  obtain ⟨hstep, -, hslash⟩ := isName_iff.1 hname
  have hpieces : pieces (base ++ "/" ++ name) = pieces base ++ [name] := by
    rw [pieces_append_slash, pieces_of_not_mem hslash]
  have hback := intercalate_pieces base
  unfold parent?
  rw [hpieces]
  cases hbase : pieces base with
  | nil => exact absurd hbase (FileSystem.pieces_ne_nil base)
  | cons first rest =>
    rw [hbase] at hfirst hlast hback
    have hnonempty : first.isEmpty = false := by
      rw [Bool.eq_false_iff, ne_eq, String.isEmpty_iff]
      rintro rfl
      exact hfirst rfl
    have hkept : (rest.reverse.dropWhile fun piece => !isStep piece) = rest.reverse := by
      cases hrest : rest.reverse with
      | nil => rfl
      | cons piece before =>
        have hpiece : isStep piece = true := by
          apply hlast
          rw [List.reverse_eq_cons_iff.1 hrest, ← List.cons_append]
          exact List.getLast?_concat
        rw [List.dropWhile_cons_of_neg (by rw [hpiece]; decide)]
    rw [List.cons_append]
    dsimp only
    rw [List.reverse_concat, List.dropWhile_cons_of_neg (by rw [hstep]; decide)]
    dsimp only
    rw [hkept, List.reverse_reverse, hnonempty, Bool.false_and, if_neg Bool.false_ne_true, hback]

/-! ### Going back and forth -/

/-- A way from the working directory into another and back, one time and `n` times more. -/
def detour (name : String) : (n : Nat) → String
  | 0 => name ++ "/.."
  | n + 1 => name ++ "/../" ++ detour name n

variable {fs : FileSystem} {name path : String}

theorem pieces_detour_zero (hname : isName name = true) : pieces (detour name 0) = [name, ".."] := by
  have hcut : detour name 0 = name ++ "/" ++ ".." := by
    apply String.toList_inj.1
    simp [detour]
  rw [hcut, pieces_append_slash, pieces_of_not_mem (isName_iff.1 hname).2.2]
  rfl

theorem pieces_detour_succ (hname : isName name = true) (n : Nat) :
    pieces (detour name (n + 1)) = name :: ".." :: pieces (detour name n) := by
  have hcut : detour name (n + 1) = name ++ "/" ++ (".." ++ "/" ++ detour name n) := by
    apply String.toList_inj.1
    simp [detour, List.append_assoc]
  rw [hcut, pieces_append_slash, pieces_append_slash, pieces_of_not_mem (isName_iff.1 hname).2.2]
  rfl

theorem utf8ByteSize_detour (name : String) (n : Nat) :
    (detour name n).utf8ByteSize + 1 = (n + 1) * (name.utf8ByteSize + 4) := by
  have hback : "/../".utf8ByteSize = 4 := by decide
  have hup : "/..".utf8ByteSize = 3 := by decide
  induction n with
  | zero =>
    rw [detour, String.utf8ByteSize_append, hup]
    omega
  | succ n ih =>
    rw [detour, String.utf8ByteSize_append, String.utf8ByteSize_append, hback,
      Nat.add_mul (n + 1) 1, ← ih]
    omega

theorem follow_detour (hname : isName name = true) (n : Nat) :
    (pieces (detour name n)).foldl Location.follow [] = [] := by
  have hout := leadsOut_of_isName hname
  have hback : Location.follow (Location.follow [] name) ".." = [] := by
    have hroot : name ≠ "/" := by
      rintro rfl
      cases hout
    rw [Location.follow_of_isName hname]
    simp [Location.follow, isStep, Location.above, Location.isGiven, hout, hroot]
  induction n with
  | zero =>
    rw [pieces_detour_zero hname]
    exact hback
  | succ n ih =>
    rw [pieces_detour_succ hname, List.foldl_cons, List.foldl_cons, hback]
    exact ih

theorem start_detour (hname : isName name = true) (n : Nat) :
    Location.start (detour name n ++ "/" ++ path) = [] := by
  obtain ⟨hstep, -, hslash⟩ := isName_iff.1 hname
  have hne : name ≠ "" := by
    rintro rfl
    cases hstep
  have hcons (rest : String) : isAbsolute (name ++ rest) = false := by
    rw [isAbsolute_append hne, isAbsolute_of_not_mem hslash]
  have habsolute : isAbsolute (detour name n ++ "/" ++ path) = false := by
    cases n with
    | zero =>
      rw [detour, String.append_assoc, String.append_assoc]
      exact hcons _
    | succ n =>
      rw [detour, String.append_assoc, String.append_assoc, String.append_assoc]
      exact hcons _
  rw [Location.start, habsolute, if_neg Bool.false_ne_true]

/-- **What is seen after a detour** is where it is seen without. -/
theorem placeOf_detour (hname : isName name = true) (hpath : isAbsolute path = false) (n : Nat) :
    placeOf (detour name n ++ "/" ++ path) = placeOf path := by
  rw [placeOf, placeOf, start_detour hname, pieces_append_slash, List.foldl_append,
    follow_detour hname, Location.start, hpath, if_neg Bool.false_ne_true]

theorem getLast?_detour (name : String) (n : Nat) : (detour name n).toList.getLast? = some '.' := by
  induction n with
  | zero =>
    rw [detour, String.toList_append]
    exact List.getLast?_append_of_ne_nil _ (List.cons_ne_nil _ _)
  | succ n ih => rw [detour, String.toList_append, List.getLast?_append, ih, Option.some_or]

theorem join_detour (name : String) (n : Nat) (hpath : isAbsolute path = false) :
    join (detour name n) path = detour name n ++ "/" ++ path := by
  have hdot : decide (('.' : Char) = '/') = false := by decide
  rw [join, hpath, if_neg Bool.false_ne_true, getLast?_detour, Option.all_some, hdot,
    if_neg Bool.false_ne_true]

/-- A detour is the parent of what is seen after it. -/
theorem parent?_detour (hname : isName name = true) (n : Nat) {entry : String}
    (hentry : isName entry = true) : parent? (detour name n ++ "/" ++ entry) = some (detour name n) := by
  have hne : name ≠ "" := by
    rintro rfl
    cases hname
  have hlast : (pieces (detour name n)).getLast? = some ".." := by
    induction n with
    | zero =>
      rw [pieces_detour_zero hname]
      rfl
    | succ n ih =>
      rw [pieces_detour_succ hname, List.getLast?_cons, List.getLast?_cons, ih]
      rfl
  refine parent?_append hentry ?_ ?_
  · cases n with
    | zero =>
      rw [pieces_detour_zero hname]
      exact fun h => hne (Option.some.inj h)
    | succ n =>
      rw [pieces_detour_succ hname]
      exact fun h => hne (Option.some.inj h)
  · rw [hlast]
    rintro piece ⟨⟩
    rfl

/-! ### Following detours -/

namespace FileSystem

theorem forall_mem_detour {P : Char → Prop} (hname : ∀ c ∈ name.toList, P c) (hslash : P '/')
    (hdot : P '.') (n : Nat) : ∀ c ∈ (detour name n).toList, P c := by
  have hup : ∀ c ∈ "/..".toList, P c := by
    have hchars : "/..".toList = ['/', '.', '.'] := rfl
    simp [hchars, hslash, hdot]
  have hback : ∀ c ∈ "/../".toList, P c := by
    have hchars : "/../".toList = ['/', '.', '.', '/'] := rfl
    simp [hchars, hslash, hdot]
  induction n with
  | zero =>
    rw [detour, String.toList_append, List.forall_mem_append]
    exact ⟨hname, hup⟩
  | succ n ih =>
    rw [detour, String.toList_append, String.toList_append, List.forall_mem_append,
      List.forall_mem_append]
    exact ⟨⟨hname, hback⟩, ih⟩

theorem foldlM_step_detour (hname : isName name = true) (hlong : isLongName name = false)
    (hentry : fs.entry? [name] = some .directory) (n : Nat) :
    (pieces (detour name n)).foldlM fs.step [] = .ok [] := by
  have hout := leadsOut_of_isName hname
  have hinto : fs.step [] name = .ok [name] := by
    refine step_eq_ok.2 ⟨rfl, Location.follow_of_isName hname, fun _ _ => ⟨hlong, ?_⟩⟩
    rw [List.nil_append, hentry]
    rfl
  have hback : fs.step [name] ".." = .ok [] := by
    refine step_eq_ok.2 ⟨hentry, ?_, fun _ hup => absurd rfl hup⟩
    have hfollow := follow_detour hname 0
    rw [pieces_detour_zero hname, List.foldl_cons, List.foldl_cons,
      Location.follow_of_isName hname] at hfollow
    exact hfollow
  induction n with
  | zero =>
    rw [pieces_detour_zero hname, List.foldlM_cons, hinto, ok_bind, List.foldlM_cons, hback]
    rfl
  | succ n ih =>
    rw [pieces_detour_succ hname, List.foldlM_cons, hinto, ok_bind, List.foldlM_cons, hback,
      ok_bind, ih]

/-- **A path after a detour** leads where it leads without, unless it is too long. -/
theorem locate_detour (hname : isName name = true) (hlong : isLongName name = false)
    (hchars : ∀ c ∈ name.toList, c.toNat ≠ 0) (hentry : fs.entry? [name] = some .directory)
    (hpath : isAbsolute path = false) {n : Nat} {p : Location} (hlocate : fs.locate path = .ok p)
    (hsize : isLongPath (detour name n ++ "/" ++ path) = false) :
    fs.locate (detour name n ++ "/" ++ path) = .ok p := by
  obtain ⟨hfault, hfollow⟩ := locate_eq_ok.1 hlocate
  obtain ⟨hnul, hne, -⟩ := pathFault?_eq_none_iff.1 hfault
  have hdetour := forall_mem_detour (P := fun c => c.toNat ≠ 0) hchars (by decide) (by decide) n
  refine locate_eq_ok.2 ⟨pathFault?_eq_none_iff.2 ⟨?_, ?_, hsize⟩, ?_⟩
  · rw [String.toList_append, String.toList_append, List.forall_mem_append,
      List.forall_mem_append]
    exact ⟨⟨hdetour, List.forall_mem_singleton.2 (by decide)⟩, hnul⟩
  · intro hnil
    exact hne (String.append_eq_empty_iff.1 hnil).2
  · rw [start_detour hname, pieces_append_slash, List.foldlM_append,
      foldlM_step_detour hname hlong hentry, ok_bind]
    rw [Location.start, hpath, if_neg Bool.false_ne_true] at hfollow
    exact hfollow

/-- A text after a detour. -/
theorem readText_detour (hname : isName name = true) (hlong : isLongName name = false)
    (hchars : ∀ c ∈ name.toList, c.toNat ≠ 0) (hentry : fs.entry? [name] = some .directory)
    (hpath : isAbsolute path = false) {n : Nat} {text : String}
    (hread : fs.readText path = .ok text)
    (hsize : isLongPath (detour name n ++ "/" ++ path) = false) :
    fs.readText (detour name n ++ "/" ++ path) = .ok text := by
  obtain ⟨hlocate, htext⟩ := readText_eq_ok.1 hread
  rw [readText_eq_ok, placeOf_detour hname hpath]
  exact ⟨locate_detour hname hlong hchars hentry hpath hlocate hsize, htext⟩

/-- A directory after a detour. -/
theorem isDirectory_detour (hname : isName name = true) (hlong : isLongName name = false)
    (hchars : ∀ c ∈ name.toList, c.toNat ≠ 0) (hentry : fs.entry? [name] = some .directory)
    (hpath : isAbsolute path = false) {n : Nat} (hdirectory : fs.isDirectory path = true)
    (hsize : isLongPath (detour name n ++ "/" ++ path) = false) :
    fs.isDirectory (detour name n ++ "/" ++ path) = true := by
  obtain ⟨hlocate, hthere⟩ := isDirectory_iff.1 hdirectory
  rw [isDirectory_iff, placeOf_detour hname hpath]
  exact ⟨locate_detour hname hlong hchars hentry hpath hlocate hsize, hthere⟩

end FileSystem

end Scaffold.Files
