import Scaffold.Proofs.Source.Table

/-!
# Reading the files of a crate

A crate is read exactly where every file of it is (`exists_ofFiles_iff`), and its corpus has one
unit for each file, with the nodes that the file states (`units_ofFiles`): what becomes of a file
does not depend on the files around it.
-/

namespace Scaffold.Source

open Syntax

/-- The nodes that a file adds to the corpus. -/
def fileNodes (file : SourceFile) : List CorpusNode :=
  (crateFacts [file]).filterMap Fact.corpusNode?

theorem crateFacts_eq_flatMap (files : List SourceFile) :
    crateFacts files = files.flatMap fun file => crateFacts [file] := by
  have hsingle (file : SourceFile) : crateFacts [file] =
      ((readFile file.text).map (fileFacts (Text.segments file.space))).getD [] := by
    rw [crateFacts, List.flatMap_singleton]
  simp only [hsingle]
  rfl

/-- The nodes of a crate are those of its files. -/
theorem mem_fileNodes_iff {files : List SourceFile} {n : CorpusNode} :
    .node n ∈ crateFacts files ↔ ∃ file ∈ files, n ∈ fileNodes file := by
  have hnode (file : SourceFile) : n ∈ fileNodes file ↔ .node n ∈ crateFacts [file] := by
    constructor
    · intro h
      obtain ⟨f, hf, heq⟩ := List.mem_filterMap.1 h
      cases f with
      | node m =>
        obtain rfl := Option.some.inj heq
        exact hf
      | _ => cases heq
    · intro h
      exact List.mem_filterMap.2 ⟨_, h, rfl⟩
  rw [crateFacts_eq_flatMap, List.mem_flatMap]
  simp only [hnode]

/-- A file is added where it can be read. -/
theorem exists_addFile_iff (tree : SourceTree) {file : SourceFile} :
    (∃ next, tree.addFile file = .ok next) ↔ (readFile file.text).isSome = true := by
  unfold SourceTree.addFile
  cases hread : readFile file.text with
  | none =>
    constructor
    · rintro ⟨next, hnext⟩
      cases hnext
    · intro h
      cases h
  | some node => exact ⟨fun _ => rfl, fun _ => ⟨_, rfl⟩⟩

/-- **A crate is read** where all of its files are, whatever their order. -/
theorem exists_ofFiles_iff {files : List SourceFile} :
    (∃ tree, SourceTree.ofFiles files = .ok tree) ↔
      ∀ file ∈ files, (readFile file.text).isSome = true := by
  have run (start : SourceTree) : (∃ tree, files.foldlM SourceTree.addFile start = .ok tree) ↔
      ∀ file ∈ files, (readFile file.text).isSome = true := by
    induction files generalizing start with
    | nil => exact ⟨fun _ => nofun, fun _ => ⟨start, rfl⟩⟩
    | cons file files ih =>
      rw [List.foldlM_cons, List.forall_mem_cons, ← exists_addFile_iff start]
      cases hfile : start.addFile file with
      | error origin =>
        constructor
        · rintro ⟨tree, htree⟩
          cases htree
        · rintro ⟨⟨next, hnext⟩, -⟩
          cases hnext
      | ok next =>
        have hrest := ih next
        constructor
        · intro htree
          exact ⟨⟨next, rfl⟩, hrest.1 htree⟩
        · intro h
          exact hrest.2 h.2
  rw [← run {}]
  constructor
  · rintro ⟨tree, htree⟩
    cases hfold : files.foldlM SourceTree.addFile {} with
    | error origin =>
      rw [SourceTree.ofFiles, hfold] at htree
      cases htree
    | ok read => exact ⟨read, rfl⟩
  · rintro ⟨read, hread⟩
    refine ⟨{ read with symbols := read.symbols.attach }, ?_⟩
    rw [SourceTree.ofFiles, hread]
    rfl

theorem units_of_foldlM {files : List SourceFile} {start tree : SourceTree}
    (h : files.foldlM SourceTree.addFile start = .ok tree) :
    tree.corpus.units.map (fun unit => (unit.origin, unit.nodes)) =
      start.corpus.units.map (fun unit => (unit.origin, unit.nodes)) ++
        files.map fun file => (file.origin, fileNodes file) := by
  induction files generalizing start with
  | nil =>
    cases h
    rw [List.map_nil, List.append_nil]
  | cons file files ih =>
    rw [List.foldlM_cons] at h
    cases hfile : start.addFile file with
    | error origin =>
      rw [hfile] at h
      cases h
    | ok next =>
      rw [hfile] at h
      rw [ih h, corpus_of_addFile hfile, Corpus.push, List.map_append, List.append_assoc]
      rfl

/-- **The units of a crate:** one for each file, with the nodes of that file. -/
theorem units_ofFiles {files : List SourceFile} {tree : SourceTree}
    (h : SourceTree.ofFiles files = .ok tree) :
    tree.corpus.units.map (fun unit => (unit.origin, unit.nodes)) =
      files.map fun file => (file.origin, fileNodes file) := by
  unfold SourceTree.ofFiles at h
  cases hfold : files.foldlM SourceTree.addFile {} with
  | error origin =>
    rw [hfold] at h
    cases h
  | ok read =>
    rw [hfold] at h
    cases h
    exact units_of_foldlM hfold

/-- A node of a crate stands in a unit. -/
theorem exists_unit_of_mem_crateFacts {files : List SourceFile} {tree : SourceTree}
    (h : SourceTree.ofFiles files = .ok tree) {n : CorpusNode} (hn : .node n ∈ crateFacts files) :
    ∃ unit ∈ tree.corpus.units, n ∈ unit.nodes := by
  obtain ⟨file, hfile, hmem⟩ := mem_fileNodes_iff.1 hn
  have hpair : (file.origin, fileNodes file) ∈
      tree.corpus.units.map fun unit => (unit.origin, unit.nodes) := by
    rw [units_ofFiles h]
    exact List.mem_map.2 ⟨file, hfile, rfl⟩
  obtain ⟨unit, hunit, heq⟩ := List.mem_map.1 hpair
  refine ⟨unit, hunit, ?_⟩
  rw [(Prod.mk.inj heq).2]
  exact hmem

end Scaffold.Source
