import Scaffold.Text.Segments
import Mathlib.Data.List.Induction

/-!
# Paths and their segments

The segments of a path make up the path (`ofSegments_segments`), and a path that is written from
segments without colons falls into these segments again (`segments_ofSegments`).
-/

namespace Scaffold.Text

theorem splitColons_of_not_mem {cs : List Char} (h : ':' ∉ cs) : splitColons cs = [cs] := by
  induction cs with
  | nil => rw [splitColons]
  | cons c cs ih =>
    rw [List.mem_cons, not_or] at h
    cases cs with
    | nil => rw [splitColons]
    | cons d ds =>
      rw [splitColons, if_neg (fun hc => h.1 hc.1.symm), ih h.2]

/-- A text is cut after a segment without colons. -/
theorem splitColons_append {cs : List Char} (h : ':' ∉ cs) (rest : List Char) :
    splitColons (cs ++ ':' :: ':' :: rest) = cs :: splitColons rest := by
  induction cs with
  | nil => rw [List.nil_append, splitColons, if_pos ⟨rfl, rfl⟩]
  | cons c cs ih =>
    rw [List.mem_cons, not_or] at h
    cases cs with
    | nil =>
      rw [List.cons_append, List.nil_append, splitColons, if_neg (fun hc => h.1 hc.1.symm)]
      rw [← List.nil_append (':' :: ':' :: rest), ih (by simp)]
    | cons d ds =>
      rw [List.cons_append, List.cons_append, splitColons, if_neg (fun hc => h.1 hc.1.symm),
        ← List.cons_append, ih h.2]

/-- A path that is written from segments without colons is cut into them from the left as well. -/
theorem map_splitColons_ofSegments {names : List String} (hne : names ≠ [])
    (h : ∀ name ∈ names, ':' ∉ name.toList) :
    (splitColons (ofSegments names).toList).map String.ofList = names := by
  induction names with
  | nil => exact absurd rfl hne
  | cons name names ih =>
    obtain ⟨hname, hnames⟩ := List.forall_mem_cons.1 h
    cases names with
    | nil =>
      rw [ofSegments, String.intercalate_singleton, splitColons_of_not_mem hname]
      simp
    | cons next rest =>
      have htail := ih (by simp) hnames
      rw [ofSegments] at htail
      have hcolons : "::".toList = [':', ':'] := rfl
      rw [ofSegments, String.intercalate_cons_cons, String.toList_append, String.toList_append,
        hcolons, List.append_assoc, List.cons_append, List.cons_append, List.nil_append,
        splitColons_append hname, List.map_cons, htail, String.ofList_toList]

theorem splitColons_ne_nil (cs : List Char) : splitColons cs ≠ [] := by
  fun_cases splitColons cs with
  | _ => simp_all

/-- Every text has a segment. -/
theorem segments_ne_nil (path : String) : segments path ≠ [] := by
  rw [segments, ne_eq, List.map_eq_nil_iff, List.reverse_eq_nil_iff]
  exact splitColons_ne_nil _

/-- A path with one more segment. -/
theorem ofSegments_concat {names : List String} (h : names ≠ []) (name : String) :
    ofSegments (names ++ [name]) = ofSegments names ++ "::" ++ name := by
  rw [ofSegments, ofSegments, String.intercalate_append_of_ne_nil h (by simp),
    String.intercalate_singleton]

theorem ofSegments_singleton (name : String) : ofSegments [name] = name :=
  String.intercalate_singleton

/-- A text without colons is one segment. -/
theorem segments_of_not_mem {name : String} (h : ':' ∉ name.toList) : segments name = [name] := by
  rw [segments, splitColons_of_not_mem (by simpa using h)]
  simp

/-- **What is added to a path** after `::` is a segment of its own, whatever the path. -/
theorem segments_append (path : String) {name : String} (h : ':' ∉ name.toList) :
    segments (path ++ "::" ++ name) = segments path ++ [name] := by
  have hreverse : (path ++ "::" ++ name).toList.reverse =
      name.toList.reverse ++ ':' :: ':' :: path.toList.reverse := by
    simp
  rw [segments, hreverse, splitColons_append (by simpa using h)]
  simp [segments]

/-- The path that `names` lead to from a path. -/
def below (path : String) (names : List String) : String :=
  names.foldl (fun path name => path ++ "::" ++ name) path

theorem segments_below (path : String) {names : List String}
    (h : ∀ name ∈ names, ':' ∉ name.toList) :
    segments (below path names) = segments path ++ names := by
  induction names generalizing path with
  | nil => exact (List.append_nil _).symm
  | cons name names ih =>
    obtain ⟨hname, hnames⟩ := List.forall_mem_cons.1 h
    rw [below, List.foldl_cons, ← below, ih _ hnames, segments_append path hname, List.append_assoc,
      List.singleton_append]

theorem ofSegments_append {path : List String} (hne : path ≠ []) (names : List String) :
    ofSegments (path ++ names) = below (ofSegments path) names := by
  induction names generalizing path with
  | nil => exact congrArg ofSegments (List.append_nil path)
  | cons name names ih =>
    rw [below, List.foldl_cons, ← below, ← ofSegments_concat hne, ← ih (by simp), List.append_assoc,
      List.singleton_append]

/-- **A path falls into its segments,** where none of them holds a colon. -/
theorem segments_ofSegments {names : List String} (hne : names ≠ [])
    (h : ∀ name ∈ names, ':' ∉ name.toList) : segments (ofSegments names) = names := by
  obtain ⟨name, names, rfl⟩ := List.exists_cons_of_ne_nil hne
  obtain ⟨hname, hnames⟩ := List.forall_mem_cons.1 h
  rw [← List.singleton_append, ofSegments_append (List.cons_ne_nil name []),
    segments_below _ hnames, ofSegments_singleton, segments_of_not_mem hname]

/-- The pieces of a text that is cut from the left make up the text. -/
theorem ofSegments_splitColons (cs : List Char) :
    ofSegments ((splitColons cs).reverse.map fun piece => String.ofList piece.reverse) =
      String.ofList cs.reverse := by
  have hne (cs : List Char) :
      ((splitColons cs).reverse.map fun piece => String.ofList piece.reverse) ≠ [] := by
    simpa using splitColons_ne_nil cs
  fun_induction splitColons cs with
  | case1 => rfl
  | case2 c => rw [List.reverse_singleton, List.map_singleton, ofSegments_singleton]
  | case3 c d cs hcolons ih =>
    obtain ⟨rfl, rfl⟩ := hcolons
    rw [List.reverse_cons, List.map_append, List.map_singleton, ofSegments_concat (hne cs), ih]
    apply String.toList_injective
    simp
  | case4 c d cs hcolons hnil => exact absurd hnil (splitColons_ne_nil _)
  | case5 c d cs hcolons piece pieces hpieces ih =>
    rw [hpieces, List.reverse_cons, List.map_append, List.map_singleton] at ih
    rw [List.reverse_cons, List.map_append, List.map_singleton]
    generalize (pieces.reverse.map fun piece => String.ofList piece.reverse) = before at ih ⊢
    apply String.toList_injective
    have hlist := congrArg String.toList ih
    cases before with
    | nil =>
      rw [List.nil_append, ofSegments_singleton] at hlist ⊢
      obtain rfl : piece = d :: cs := by simpa using hlist
      simp
    | cons first rest =>
      rw [ofSegments_concat (List.cons_ne_nil _ _)] at hlist ⊢
      simpa using congrArg (· ++ [c]) hlist

/-- **The segments of a path** make up the path. -/
theorem ofSegments_segments (path : String) : ofSegments (segments path) = path := by
  rw [segments, ofSegments_splitColons, List.reverse_reverse, String.ofList_toList]

end Scaffold.Text
