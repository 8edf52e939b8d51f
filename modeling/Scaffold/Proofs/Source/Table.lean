import Scaffold.Proofs.Text.Segments
import Scaffold.Source.Tree

/-!
# What a symbol table holds

The table of a crate is filled with one fact after another, so what it holds under a key is read
off the list of facts: the import of a name is the last binding of that name
(`importOf_addAll`), the globs of a module are its glob bindings in their order
(`globsOf_addAll`).  Attaching the accessors touches members of types alone.

`symbols_of_ofFiles` ties the table of a tree to the facts of its files.
-/

namespace Scaffold.Source

open Syntax

/-! ### Association lists -/

section Association

variable {κ α : Type} [BEq κ] [LawfulBEq κ]

theorem lookup_setKey (key k : κ) (value : α) (table : List (κ × α)) :
    (setKey key value table).lookup k = if k == key then some value else table.lookup k := by
  induction table with
  | nil => cases h : k == key <;> simp [setKey, List.lookup_cons, h]
  | cons entry rest ih =>
    obtain ⟨k', v⟩ := entry
    by_cases hk : k' = key
    · subst hk
      cases h : k == k' <;> simp [setKey, List.lookup_cons, h]
    · cases h : k == k' with
      | true =>
        obtain rfl := eq_of_beq h
        simp [setKey, hk]
      | false => simp [setKey, List.lookup_cons, hk, h, ih]

theorem lookup_alterKey (key k : κ) (default : α) (f : α → α) (table : List (κ × α)) :
    (alterKey key default f table).lookup k =
      if k == key then some (f ((table.lookup key).getD default)) else table.lookup k :=
  lookup_setKey ..

/-- Changing the values of some keys by the identity only makes the keys appear. -/
theorem lookup_foldl_alterKey_id (keys : List κ) (k : κ) (default : α) (table : List (κ × α)) :
    (keys.foldl (fun t key => alterKey key default id t) table).lookup k =
      if k ∈ keys then some ((table.lookup k).getD default) else table.lookup k := by
  induction keys generalizing table with
  | nil => simp
  | cons key keys ih =>
    rw [List.foldl_cons, ih, lookup_alterKey]
    by_cases h : k = key
    · subst h
      by_cases hmem : k ∈ keys <;> simp [hmem]
    · by_cases hmem : k ∈ keys <;> simp [h, hmem]

end Association

namespace SymbolTable

/-! ### The views of a table -/

/-- The target that a name has among the imports of a module. -/
def importOf (t : SymbolTable) (space : ModulePath) (name : String) : Option UsePath :=
  (t.modules.lookup space).bind (·.imports.lookup name)

/-- The globs of a module. -/
def globsOf (t : SymbolTable) (space : ModulePath) : List UsePath :=
  ((t.modules.lookup space).map (·.globs)).getD []

/-! ### Single additions -/

theorem hasModule_addModule (t : SymbolTable) (path p : ModulePath) :
    (t.addModule path).hasModule p = (t.hasModule p || (withAncestors path).contains p) := by
  unfold hasModule addModule
  rw [lookup_foldl_alterKey_id]
  by_cases h : p ∈ withAncestors path <;> simp [h]

theorem importOf_addModule (t : SymbolTable) (path space : ModulePath) (name : String) :
    (t.addModule path).importOf space name = t.importOf space name := by
  unfold importOf addModule
  rw [lookup_foldl_alterKey_id]
  by_cases h : space ∈ withAncestors path
  · cases hl : t.modules.lookup space <;> simp [h]
  · simp [h]

theorem globsOf_addModule (t : SymbolTable) (path space : ModulePath) :
    (t.addModule path).globsOf space = t.globsOf space := by
  unfold globsOf addModule
  rw [lookup_foldl_alterKey_id]
  by_cases h : space ∈ withAncestors path
  · cases hl : t.modules.lookup space <;> simp [h]
  · simp [h]

theorem importOf_addImport (t : SymbolTable) (s space : ModulePath) (bound name : String)
    (path : UsePath) :
    (t.addImport s bound path).importOf space name =
      if s = space ∧ bound = name then some path else t.importOf space name := by
  unfold importOf addImport
  simp only [lookup_alterKey]
  by_cases hs : space = s
  · subst hs
    by_cases hn : name = bound
    · simp [lookup_setKey, hn]
    · cases hl : t.modules.lookup space <;> simp [lookup_setKey, hn, Ne.symm hn]
  · simp [hs, Ne.symm hs]

theorem globsOf_addImport (t : SymbolTable) (s space : ModulePath) (bound : String)
    (path : UsePath) : (t.addImport s bound path).globsOf space = t.globsOf space := by
  unfold globsOf addImport
  simp only [lookup_alterKey]
  by_cases hs : space = s
  · subst hs
    cases hl : t.modules.lookup space <;> simp
  · simp [hs]

theorem importOf_addGlob (t : SymbolTable) (s space : ModulePath) (path : UsePath)
    (name : String) : (t.addGlob s path).importOf space name = t.importOf space name := by
  unfold importOf addGlob
  simp only [lookup_alterKey]
  by_cases hs : space = s
  · subst hs
    cases hl : t.modules.lookup space <;> simp
  · simp [hs]

theorem globsOf_addGlob (t : SymbolTable) (s space : ModulePath) (path : UsePath) :
    (t.addGlob s path).globsOf space = t.globsOf space ++ if s = space then [path] else [] := by
  unfold globsOf addGlob
  simp only [lookup_alterKey]
  by_cases hs : space = s
  · subst hs
    cases hl : t.modules.lookup space <;> simp
  · simp [hs, Ne.symm hs]

end SymbolTable

/-! ### Facts -/

/-- What a fact brings into the scope of a module under a name. -/
def Fact.boundTo? (space : ModulePath) (name : String) : Fact → Option UsePath
  | .binding s rooted (.name bound path) =>
    if s = space ∧ bound = name then some ⟨path, rooted⟩ else none
  | _ => none

/-- The glob that a fact gives to a module. -/
def Fact.globIn? (space : ModulePath) : Fact → Option UsePath
  | .binding s rooted (.glob path) => if s = space then some ⟨path, rooted⟩ else none
  | _ => none

namespace SymbolTable

theorem importOf_add (t : SymbolTable) (f : Fact) (space : ModulePath) (name : String) :
    (t.add f).importOf space name = (f.boundTo? space name).or (t.importOf space name) := by
  cases f with
  | module_ path => exact importOf_addModule ..
  | type s n kind fields => exact importOf_addModule ..
  | binding s rooted b =>
    cases b with
    | name bound path =>
      rw [add, importOf_addImport, Fact.boundTo?]
      split_ifs <;> rfl
    | glob path => exact importOf_addGlob ..
  | impl impl => rfl
  | node n => rfl

theorem globsOf_add (t : SymbolTable) (f : Fact) (space : ModulePath) :
    (t.add f).globsOf space = t.globsOf space ++ (f.globIn? space).toList := by
  cases f with
  | module_ path => simpa [add, Fact.globIn?] using globsOf_addModule ..
  | type s n kind fields =>
    have none : Fact.globIn? space (.type s n kind fields) = none := rfl
    rw [none, Option.toList_none, List.append_nil]
    exact globsOf_addModule ..
  | binding s rooted b =>
    cases b with
    | name bound path => simpa [add, Fact.globIn?] using globsOf_addImport ..
    | glob path =>
      rw [add, globsOf_addGlob, Fact.globIn?]
      split_ifs <;> rfl
  | impl impl => simp [add, addImpl, Fact.globIn?, globsOf]
  | node n => simp [add, Fact.globIn?]

/-- **The import of a name is its last binding** among the facts, or what the table had. -/
theorem importOf_addAll (t : SymbolTable) (facts : List Fact) (space : ModulePath)
    (name : String) :
    (t.addAll facts).importOf space name =
      (facts.reverse.findSome? (Fact.boundTo? space name)).or (t.importOf space name) := by
  induction facts generalizing t with
  | nil => rfl
  | cons f facts ih =>
    rw [addAll, List.foldl_cons, ← addAll, ih, importOf_add, List.reverse_cons,
      List.findSome?_append, Option.or_assoc]
    cases h : f.boundTo? space name <;> simp [h]

/-- **The globs of a module are its glob bindings,** in their order. -/
theorem globsOf_addAll (t : SymbolTable) (facts : List Fact) (space : ModulePath) :
    (t.addAll facts).globsOf space = t.globsOf space ++ facts.filterMap (Fact.globIn? space) := by
  induction facts generalizing t with
  | nil => simp [addAll]
  | cons f facts ih =>
    rw [addAll, List.foldl_cons, ← addAll, ih, globsOf_add, List.append_assoc]
    cases h : f.globIn? space <;> simp [h]

/-! ### Modules and types -/

/-- The ancestors of a path of names are its beginnings. -/
theorem mem_withAncestors_iff {path : ModulePath} (h : path.head? ≠ some "")
    (hcolon : ∀ name ∈ path, ':' ∉ name.toList) (hne : path ≠ []) {p : ModulePath} :
    p ∈ withAncestors path ↔ ∃ i < path.length, p = path.take (i + 1) := by
  have hnames : (Text.splitColons (Text.ofSegments path).toList).map String.ofList = path :=
    Text.map_splitColons_ofSegments hne hcolon
  have hbeginning : ∀ i < path.length,
      Text.segments (Text.ofSegments ((path.take (i + 1)).dropWhile (· = ""))) =
        path.take (i + 1) := by
    intro i hi
    obtain ⟨first, rest, rfl⟩ := List.exists_cons_of_ne_nil hne
    have hfirst : first ≠ "" := fun heq => h (by rw [heq, List.head?_cons])
    rw [List.take_succ_cons, List.dropWhile_cons_of_neg (by simpa using hfirst),
      ← List.take_succ_cons]
    refine Text.segments_ofSegments (by simp) fun name hname => ?_
    exact hcolon name (List.mem_of_mem_take hname)
  unfold withAncestors
  rw [hnames, List.mem_map]
  constructor
  · rintro ⟨i, hi, rfl⟩
    have hlt := List.mem_range.1 hi
    exact ⟨i, hlt, hbeginning i hlt⟩
  · rintro ⟨i, hi, rfl⟩
    exact ⟨i, List.mem_range.2 hi, hbeginning i hi⟩

theorem hasModule_addImport (t : SymbolTable) (space : ModulePath) (bound : String)
    (path : UsePath) (p : ModulePath) :
    (t.addImport space bound path).hasModule p = (t.hasModule p || p == space) := by
  unfold hasModule addImport
  rw [lookup_alterKey]
  by_cases h : p = space <;> simp [h]

theorem hasModule_addGlob (t : SymbolTable) (space : ModulePath) (path : UsePath)
    (p : ModulePath) : (t.addGlob space path).hasModule p = (t.hasModule p || p == space) := by
  unfold hasModule addGlob
  rw [lookup_alterKey]
  by_cases h : p = space <;> simp [h]

theorem hasType_addType (t : SymbolTable) (space : ModulePath) (name : String) (kind : TypeKind)
    (fields : List MemberEntry) (p : ModulePath) :
    (t.addType space name kind fields).hasType p = (t.hasType p || p == space ++ [name]) := by
  have hmodule : (t.addModule space).types = t.types := rfl
  unfold hasType addType
  rw [lookup_setKey, hmodule]
  by_cases h : p = space ++ [name] <;> simp [h]

/-- A module stays a module when a fact is added. -/
theorem hasModule_add {t : SymbolTable} {p : ModulePath} (h : t.hasModule p = true) (f : Fact) :
    (t.add f).hasModule p = true := by
  cases f with
  | module_ path => rw [add, hasModule_addModule, h, Bool.true_or]
  | type space name kind fields =>
    have hmodule : (t.add (.type space name kind fields)).hasModule p =
      (t.addModule space).hasModule p := rfl
    rw [hmodule, hasModule_addModule, h, Bool.true_or]
  | binding space rooted b =>
    cases b with
    | name bound path => rw [add, hasModule_addImport, h, Bool.true_or]
    | glob path => rw [add, hasModule_addGlob, h, Bool.true_or]
  | impl impl => exact h
  | node n => exact h

/-- A type stays a type when a fact is added. -/
theorem hasType_add {t : SymbolTable} {p : ModulePath} (h : t.hasType p = true) (f : Fact) :
    (t.add f).hasType p = true := by
  cases f with
  | type space name kind fields => rw [add, hasType_addType, h, Bool.true_or]
  | binding space rooted b => cases b <;> exact h
  | _ => exact h

theorem hasModule_addAll {t : SymbolTable} {p : ModulePath} (h : t.hasModule p = true)
    (facts : List Fact) : (t.addAll facts).hasModule p = true := by
  induction facts generalizing t with
  | nil => exact h
  | cons f facts ih => exact ih (hasModule_add h f)

theorem hasType_addAll {t : SymbolTable} {p : ModulePath} (h : t.hasType p = true)
    (facts : List Fact) : (t.addAll facts).hasType p = true := by
  induction facts generalizing t with
  | nil => exact h
  | cons f facts ih => exact ih (hasType_add h f)

/-- **A type that is stated** is in the table. -/
theorem hasType_of_mem {facts : List Fact} {space : ModulePath} {name : String} {kind : TypeKind}
    {fields : List MemberEntry} (h : .type space name kind fields ∈ facts) (t : SymbolTable) :
    (t.addAll facts).hasType (space ++ [name]) = true := by
  obtain ⟨before, after, rfl⟩ := List.append_of_mem h
  have hsplit : t.addAll (before ++ .type space name kind fields :: after) =
      (((t.addAll before).add (.type space name kind fields)).addAll after) :=
    List.foldl_append ..
  rw [hsplit]
  refine hasType_addAll ?_ after
  rw [add, hasType_addType, beq_self_eq_true, Bool.or_true]

/-- The modules around a type that is stated are in the table. -/
theorem hasModule_of_mem {facts : List Fact} {space : ModulePath} {name : String} {kind : TypeKind}
    {fields : List MemberEntry} (h : .type space name kind fields ∈ facts)
    (hspace : space.head? ≠ some "") (hcolon : ∀ n ∈ space, ':' ∉ n.toList) (t : SymbolTable)
    {i : Nat} (hi : i < space.length) :
    (t.addAll facts).hasModule (space.take (i + 1)) = true := by
  obtain ⟨before, after, rfl⟩ := List.append_of_mem h
  have hsplit : t.addAll (before ++ .type space name kind fields :: after) =
      (((t.addAll before).add (.type space name kind fields)).addAll after) :=
    List.foldl_append ..
  have hne : space ≠ [] := List.ne_nil_of_length_pos (Nat.zero_lt_of_lt hi)
  have hmem : space.take (i + 1) ∈ withAncestors space :=
    (mem_withAncestors_iff hspace hcolon hne).2 ⟨i, hi, rfl⟩
  have hmodule (u : SymbolTable) : (u.add (.type space name kind fields)).hasModule =
    (u.addModule space).hasModule := rfl
  rw [hsplit]
  refine hasModule_addAll ?_ after
  rw [hmodule, hasModule_addModule, List.contains_iff_mem.2 hmem, Bool.or_true]

/-! ### Attaching accessors -/

theorem modules_attachOne (t : SymbolTable) (impl : PendingImpl) :
    (t.attachOne impl).modules = t.modules := by
  unfold attachOne
  split
  · split <;> rfl
  · rfl

/-- Under each path there is the entry of before, with new members at most. -/
theorem exists_of_lookup_attachOne {t : SymbolTable} {impl : PendingImpl} {p : ModulePath}
    {entry : TypeEntry} (h : (t.attachOne impl).types.lookup p = some entry) :
    ∃ old, t.types.lookup p = some old ∧ entry.name = old.name ∧ entry.space = old.space ∧
      ∀ m ∈ entry.members, m ∈ old.members ∨ m ∈ impl.members := by
  have hkept : t.types.lookup p = some entry → ∃ old, t.types.lookup p = some old ∧
      entry.name = old.name ∧ entry.space = old.space ∧
      ∀ m ∈ entry.members, m ∈ old.members ∨ m ∈ impl.members :=
    fun hold => ⟨entry, hold, rfl, rfl, fun m hm => .inl hm⟩
  unfold attachOne at h
  split at h
  · rename_i path _
    split at h
    · rename_i old hold
      rw [lookup_setKey] at h
      split_ifs at h with heq
      · obtain rfl := eq_of_beq heq
        obtain rfl := Option.some.inj h
        exact ⟨old, hold, rfl, rfl, fun m hm => List.mem_append.1 hm⟩
      · exact hkept h
    · exact hkept h
  · exact hkept h

theorem modules_attach (t : SymbolTable) : t.attach.modules = t.modules := by
  have run (impls : List PendingImpl) (u : SymbolTable) :
      (impls.foldl attachOne u).modules = u.modules := by
    induction impls generalizing u with
    | nil => rfl
    | cons impl impls ih => rw [List.foldl_cons, ih, modules_attachOne]
  exact run t.pending _

theorem hasModule_attach (t : SymbolTable) (p : ModulePath) :
    t.attach.hasModule p = t.hasModule p := by
  unfold hasModule
  rw [modules_attach]

theorem hasType_attachOne (t : SymbolTable) (impl : PendingImpl) (p : ModulePath) :
    (t.attachOne impl).hasType p = t.hasType p := by
  unfold attachOne
  split
  · rename_i path _
    split
    · rename_i entry hentry
      unfold hasType
      rw [lookup_setKey]
      by_cases h : p = path
      · simp [h, hentry]
      · simp [h]
    · rfl
  · rfl

theorem hasType_attach (t : SymbolTable) (p : ModulePath) : t.attach.hasType p = t.hasType p := by
  have run (impls : List PendingImpl) (u : SymbolTable) :
      (impls.foldl attachOne u).hasType p = u.hasType p := by
    induction impls generalizing u with
    | nil => rfl
    | cons impl impls ih => rw [List.foldl_cons, ih, hasType_attachOne]
  exact run t.pending _

theorem importOf_attach (t : SymbolTable) (space : ModulePath) (name : String) :
    t.attach.importOf space name = t.importOf space name := by
  unfold importOf
  rw [modules_attach]

theorem globsOf_attach (t : SymbolTable) (space : ModulePath) :
    t.attach.globsOf space = t.globsOf space := by
  unfold globsOf
  rw [modules_attach]

end SymbolTable

/-! ### The facts of a crate -/

/-- The facts of source files, file by file; a file that cannot be read states none. -/
def crateFacts (files : List SourceFile) : List Fact :=
  files.flatMap fun file =>
    ((readFile file.text).map (fileFacts (Text.segments file.space))).getD []

/-- A name or glob that a use declaration brings into the scope of a module. -/
structure Use where
  space : ModulePath
  /-- Whether `::` stands before the path. -/
  rooted : Bool
  binding : Binding
  deriving DecidableEq

/-- What a fact brings into scope. -/
def Fact.use? : Fact → Option Use
  | .binding space rooted b => some ⟨space, rooted, b⟩
  | _ => none

/-- What the use declarations of a crate bring into scope, file by file. -/
def crateUses (files : List SourceFile) : List Use := (crateFacts files).filterMap Fact.use?

theorem Fact.boundTo?_eq_some_iff {f : Fact} {space : ModulePath} {name : String}
    {target : UsePath} :
    f.boundTo? space name = some target ↔
      f.use? = some ⟨space, target.rooted, .name name target.segments⟩ := by
  obtain ⟨segments, rooted⟩ := target
  cases f with
  | binding s r b =>
    cases b with
    | name bound path =>
      simp only [boundTo?, use?, Option.ite_none_right_eq_some, Option.some.injEq, UsePath.mk.injEq,
        Use.mk.injEq, Binding.name.injEq]
      tauto
    | glob path => simp [boundTo?, use?]
  | _ => simp [boundTo?, use?]

theorem Fact.globIn?_eq_some_iff {f : Fact} {space : ModulePath} {target : UsePath} :
    f.globIn? space = some target ↔
      f.use? = some ⟨space, target.rooted, .glob target.segments⟩ := by
  obtain ⟨segments, rooted⟩ := target
  cases f with
  | binding s r b =>
    cases b with
    | name bound path => simp [globIn?, use?]
    | glob path =>
      simp only [globIn?, use?, Option.ite_none_right_eq_some, Option.some.injEq, UsePath.mk.injEq,
        Use.mk.injEq, Binding.glob.injEq]
      tauto
  | _ => simp [globIn?, use?]

/-- The symbol table of a crate that states the given facts. -/
def tableOf (facts : List Fact) : SymbolTable := (SymbolTable.addAll {} facts).attach

theorem SymbolTable.addAll_append (t : SymbolTable) (facts more : List Fact) :
    t.addAll (facts ++ more) = (t.addAll facts).addAll more :=
  List.foldl_append ..

/-- A file is added exactly where it can be read, and its facts are added with it. -/
theorem symbols_of_addFile {tree next : SourceTree} {file : SourceFile}
    (h : tree.addFile file = .ok next) :
    next.symbols = tree.symbols.addAll (crateFacts [file]) := by
  unfold SourceTree.addFile at h
  unfold crateFacts
  rw [List.flatMap_singleton]
  cases hread : readFile file.text with
  | none => rw [hread] at h; cases h
  | some node => rw [hread] at h; cases h; rfl

/-- The symbols after some files, where all of them can be read. -/
theorem symbols_of_foldlM {files : List SourceFile} {start tree : SourceTree}
    (h : files.foldlM SourceTree.addFile start = .ok tree) :
    tree.symbols = start.symbols.addAll (crateFacts files) := by
  induction files generalizing start with
  | nil => cases h; rfl
  | cons file files ih =>
    rw [List.foldlM_cons] at h
    cases hfile : start.addFile file with
    | error origin => rw [hfile] at h; cases h
    | ok next =>
      rw [hfile] at h
      rw [ih h, symbols_of_addFile hfile, ← SymbolTable.addAll_append, crateFacts, crateFacts,
        ← List.flatMap_append, List.singleton_append, crateFacts]

theorem corpus_of_addFile {tree next : SourceTree} {file : SourceFile}
    (h : tree.addFile file = .ok next) :
    next.corpus = tree.corpus.push file.origin
      ((crateFacts [file]).filterMap Fact.corpusNode?) := by
  unfold SourceTree.addFile at h
  unfold crateFacts
  rw [List.flatMap_singleton]
  cases hread : readFile file.text with
  | none => rw [hread] at h; cases h
  | some node => rw [hread] at h; cases h; rfl

/-- The nodes of the corpus are facts of the files. -/
theorem mem_crateFacts_of_foldlM {files : List SourceFile} {start tree : SourceTree}
    (h : files.foldlM SourceTree.addFile start = .ok tree) {unit : SourceUnit}
    (hunit : unit ∈ tree.corpus.units) {n : CorpusNode} (hn : n ∈ unit.nodes) :
    unit ∈ start.corpus.units ∨ .node n ∈ crateFacts files := by
  induction files generalizing start with
  | nil => cases h; exact .inl hunit
  | cons file files ih =>
    rw [List.foldlM_cons] at h
    cases hfile : start.addFile file with
    | error origin => rw [hfile] at h; cases h
    | ok next =>
      rw [hfile] at h
      have hfacts : crateFacts (file :: files) = crateFacts [file] ++ crateFacts files := by
        rw [crateFacts, crateFacts, crateFacts, ← List.flatMap_append, List.singleton_append]
      rw [hfacts, List.mem_append]
      rcases ih h with hstart | hrest
      · rw [corpus_of_addFile hfile] at hstart
        rcases List.mem_append.1 hstart with hold | hnew
        · exact .inl hold
        · rw [List.mem_singleton] at hnew
          rw [hnew] at hn
          obtain ⟨f, hf, hnode⟩ := List.mem_filterMap.1 hn
          cases f with
          | node m =>
            obtain rfl := Option.some.inj hnode
            exact .inr (.inl hf)
          | _ => cases hnode
      · exact .inr (.inr hrest)

theorem mem_crateFacts_of_unit {files : List SourceFile} {tree : SourceTree}
    (h : SourceTree.ofFiles files = .ok tree) {unit : SourceUnit}
    (hunit : unit ∈ tree.corpus.units) {n : CorpusNode} (hn : n ∈ unit.nodes) :
    .node n ∈ crateFacts files := by
  unfold SourceTree.ofFiles at h
  cases hfold : files.foldlM SourceTree.addFile {} with
  | error origin => rw [hfold] at h; cases h
  | ok read =>
    rw [hfold] at h
    cases h
    exact (mem_crateFacts_of_foldlM hfold hunit hn).resolve_left (by simp)

/-- **The table of a tree** is the one that the facts of its files fill. -/
theorem symbols_of_ofFiles {files : List SourceFile} {tree : SourceTree}
    (h : SourceTree.ofFiles files = .ok tree) : tree.symbols = tableOf (crateFacts files) := by
  unfold SourceTree.ofFiles at h
  cases hfold : files.foldlM SourceTree.addFile {} with
  | error origin => rw [hfold] at h; cases h
  | ok read =>
    rw [hfold] at h
    cases h
    exact congrArg SymbolTable.attach (symbols_of_foldlM hfold)

/-! ### Imports and globs of a crate -/

section Crate

variable {files : List SourceFile} {tree : SourceTree} {space : ModulePath} {name : String}

theorem importOf_ofFiles (h : SourceTree.ofFiles files = .ok tree) :
    tree.symbols.importOf space name =
      (crateFacts files).reverse.findSome? (Fact.boundTo? space name) := by
  rw [symbols_of_ofFiles h, tableOf, SymbolTable.importOf_attach, SymbolTable.importOf_addAll]
  exact Option.or_none

/-- A type that a file states is in the table. -/
theorem hasType_ofFiles (h : SourceTree.ofFiles files = .ok tree) {kind : TypeKind}
    {fields : List MemberEntry} (htype : .type space name kind fields ∈ crateFacts files) :
    tree.symbols.hasType (space ++ [name]) = true := by
  rw [symbols_of_ofFiles h, tableOf]
  exact (SymbolTable.hasType_attach ..).trans (SymbolTable.hasType_of_mem htype {})

/-- The modules around a type that a file states are in the table. -/
theorem hasModule_ofFiles (h : SourceTree.ofFiles files = .ok tree) {kind : TypeKind}
    {fields : List MemberEntry} (htype : .type space name kind fields ∈ crateFacts files)
    (hspace : space.head? ≠ some "") (hcolon : ∀ n ∈ space, ':' ∉ n.toList) {i : Nat}
    (hi : i < space.length) : tree.symbols.hasModule (space.take (i + 1)) = true := by
  rw [symbols_of_ofFiles h, tableOf]
  exact (SymbolTable.hasModule_attach ..).trans
    (SymbolTable.hasModule_of_mem htype hspace hcolon {} hi)

/-- A name that no use declaration of a module binds has no import there. -/
theorem importOf_eq_none (h : SourceTree.ofFiles files = .ok tree)
    (hfree : ∀ rooted path, ⟨space, rooted, .name name path⟩ ∉ crateUses files) :
    tree.symbols.importOf space name = none := by
  rw [importOf_ofFiles h, List.findSome?_eq_none_iff]
  intro f hf
  rw [Option.eq_none_iff_forall_ne_some]
  intro target htarget
  rw [Fact.boundTo?_eq_some_iff] at htarget
  exact hfree _ _ (List.mem_filterMap.2 ⟨f, List.mem_reverse.1 hf, htarget⟩)

/-- A name that is bound to one path alone has this path for its import. -/
theorem importOf_eq_some (h : SourceTree.ofFiles files = .ok tree) {target : UsePath}
    (hbound : ⟨space, target.rooted, .name name target.segments⟩ ∈ crateUses files)
    (honly : ∀ rooted path, ⟨space, rooted, .name name path⟩ ∈ crateUses files →
      (⟨path, rooted⟩ : UsePath) = target) :
    tree.symbols.importOf space name = some target := by
  rw [importOf_ofFiles h]
  obtain ⟨f, hf, huse⟩ := List.mem_filterMap.1 hbound
  cases hfind : (crateFacts files).reverse.findSome? (Fact.boundTo? space name) with
  | none =>
    have hnone := List.findSome?_eq_none_iff.1 hfind f (List.mem_reverse.2 hf)
    rw [Fact.boundTo?_eq_some_iff.2 huse] at hnone
    cases hnone
  | some found =>
    obtain ⟨g, hg, hfound⟩ := List.exists_of_findSome?_eq_some hfind
    rw [Fact.boundTo?_eq_some_iff] at hfound
    exact congrArg some
      (honly _ _ (List.mem_filterMap.2 ⟨g, List.mem_reverse.1 hg, hfound⟩))

/-- A module without glob declarations has no globs. -/
theorem globsOf_eq_nil (h : SourceTree.ofFiles files = .ok tree)
    (hfree : ∀ rooted path, ⟨space, rooted, .glob path⟩ ∉ crateUses files) :
    tree.symbols.globsOf space = [] := by
  rw [symbols_of_ofFiles h, tableOf, SymbolTable.globsOf_attach, SymbolTable.globsOf_addAll]
  refine List.append_eq_nil_iff.2 ⟨rfl, List.filterMap_eq_nil_iff.2 fun f hf => ?_⟩
  rw [Option.eq_none_iff_forall_ne_some]
  intro target htarget
  rw [Fact.globIn?_eq_some_iff] at htarget
  exact hfree _ _ (List.mem_filterMap.2 ⟨f, hf, htarget⟩)

end Crate

end Scaffold.Source
