import Scaffold.Proofs.Command.Effect
import Scaffold.Proofs.Files.Detour

/-!
# Generators one by one

`generate` makes everything that a manifest names, and three more commands run one generator each.
Run one after another in any order, with the inputs of the manifest, these leave the same files as
`generate` (`singles_agree`): no command changes what another reads, since files grow only below the
output directory and by the directories on the way there (`Writes.grows`), and the artifacts of all
generators have different identifiers, so it does not matter which is written first.  Only a
directory on the way that passes for a source file can stop the commands (`singles_stop_roundabout`).
-/

namespace Scaffold.Command

open Files FileSystem Run

/-- A command that runs one generator. -/
inductive Single where
  | api
  | sources (kind : SourceGenerator)
  deriving DecidableEq, Repr

/-- The commands that run one generator each. -/
def singles : List Single := [.api, .sources .mappings, .sources .handlers]

/-- The arguments of a command that runs one generator. -/
def Single.arguments (schema sources output manifest : String) : Single → List String
  | .api =>
    ["api", longOption "schema" schema, longOption "output" output, longOption "manifest" manifest]
  | .sources kind =>
    [kind.name, longOption "source" sources, longOption "output" output,
      longOption "manifest" manifest]

/-- The arguments of the command that generates everything. -/
def generateArguments (output manifest : String) : List String :=
  ["generate", longOption "output" output, longOption "manifest" manifest]

/-- **Whether an output directory is apart from the inputs:** it holds none of them, and is neither
the root of the sources nor below it. -/
structure OutputApart (output manifest schema sources : String) : Prop where
  not_manifest : ¬ (placeOf output).Holds (placeOf manifest)
  not_schema : ¬ (placeOf output).Holds (placeOf schema)
  not_sources : ¬ (placeOf output).Holds (placeOf sources)
  not_root : placeOf output ≠ placeOf sources
  not_below : ¬ (placeOf sources).Holds (placeOf output)

/-- **Whether making the output directory makes no source file:** none of the directories that are
made on the way passes for one. -/
def MakesNoSource (fs : FileSystem) (output sources : String) : Prop :=
  ∀ p way, fs.Made (fs.makeDirectories output).2 p → (placeOf sources).below? p = some way →
    Source.passesForSource sources way = false

/-! ### One command -/

/-- **Whether a generation is what a command makes.** -/
def Single.IsMade (single : Single) (g : Generation) (fs : FileSystem) (s : Settings)
    (schema sources : String) : Prop :=
  match single with
  | .api => Generation.IsApi g fs s schema
  | .sources kind => Generation.IsOfSources kind.make g fs s sources

variable {schema sources output manifest : String} {fs made : FileSystem}

/-- A command that runs one generator ends well where its generator does and the artifacts can be
written. -/
theorem Single.execute_done_iff (single : Single) (session : Session) :
    (∃ after, (execute (single.arguments schema sources output manifest) :
        StateM Session Outcome).run session = (.done, after) ∧ after.files = made) ↔
      ∃ s g, SettingsAt session.files manifest s ∧
        single.IsMade g session.files s schema sources ∧
        Writes session.files output g.artifacts made := by
  cases single with
  | api =>
    exact Command.execute_done_iff (ofArguments_api schema output manifest)
      (does_runApi schema output manifest) session made
  | sources kind =>
    exact Command.execute_done_iff (ofArguments_sources sources output manifest kind)
      (does_runSources sources output manifest kind) session made

theorem execute_generate_done_iff (session : Session) :
    (∃ after, (execute (generateArguments output manifest) : StateM Session Outcome).run session =
        (.done, after) ∧ after.files = made) ↔
      ∃ (m : Manifest) (g : Generation), m.IsAt session.files manifest ∧ m.validate = .ok () ∧
        Project.Makes m.inputs m.settings session.files g ∧
        Writes session.files output g.artifacts made :=
  execute_done_iff (ofArguments_generate output manifest) (does_runGenerate output manifest)
    session made

/-! ### One after another -/

/-- Writing below an output directory that is apart from the inputs leaves the sources alone. -/
theorem OutputApart.spares (h : OutputApart output manifest schema sources)
    (hmade : MakesNoSource fs output sources) :
    Source.Spares fs sources (outputArea fs output) := by
  rintro p e (⟨hp, rfl⟩ | hp) way hway
  · exact ⟨rfl, hp.1, hmade p way hp hway⟩
  · have hsources : (placeOf sources).Holds p := Option.isSome_iff_exists.2 ⟨way, hway⟩
    exfalso
    rcases Location.eq_or_holds hp hsources with heq | hholds | hholds
    · exact h.not_root heq
    · exact h.not_sources hholds
    · exact h.not_below hholds

theorem SettingsAt.of_grows {later : FileSystem} {s : Settings} (h : SettingsAt fs manifest s)
    (hgrows : fs.Grows (outputArea fs output) later)
    (hout : ¬ (placeOf output).Holds (placeOf manifest)) : SettingsAt later manifest s := by
  obtain ⟨m, hm, hvalid, hs⟩ := h
  obtain ⟨text, -, hread, -⟩ := id hm
  exact ⟨m, hm.of_grows hgrows (not_outputArea hread hout), hvalid, hs⟩

/-- **What a command makes stays the same** while artifacts are written. -/
theorem Single.IsMade.of_grows {later : FileSystem} {s : Settings} {single : Single}
    {g : Generation} (h : single.IsMade g fs s schema sources)
    (hgrows : fs.Grows (outputArea fs output) later) (hnamed : fs.IsNamed)
    (hapart : OutputApart output manifest schema sources)
    (hmade : MakesNoSource fs output sources) :
    single.IsMade g later s schema sources := by
  cases single with
  | api =>
    obtain ⟨text, -, hread, -⟩ := id h
    exact Generation.IsApi.of_grows h hgrows (not_outputArea hread hapart.not_schema)
  | sources kind =>
    exact Generation.IsOfSources.of_grows h hgrows hnamed (hapart.spares hmade)

theorem run_mapM_cons {α β : Type} {f : α → StateM Session β} {a : α} {as : List α} {b : β}
    {bs : List β} {session between after : Session} (ha : (f a).run session = (b, between))
    (has : (as.mapM f).run between = (bs, after)) :
    ((a :: as).mapM f).run session = (b :: bs, after) := by
  rw [List.mapM_cons, StateT.run_bind, ha]
  show (as.mapM f >>= fun bs => pure (b :: bs) : StateM Session (List β)).run between = _
  rw [StateT.run_bind, has]
  rfl

theorem exists_of_run_mapM_cons {α β : Type} {f : α → StateM Session β} {a : α} {as : List α}
    {outcomes : List β} {session after : Session}
    (h : ((a :: as).mapM f).run session = (outcomes, after)) :
    ∃ b between bs, (f a).run session = (b, between) ∧ (as.mapM f).run between = (bs, after) ∧
      outcomes = b :: bs := by
  cases ha : (f a).run session with
  | mk b between =>
    cases has : (as.mapM f).run between with
    | mk bs after' =>
      obtain ⟨rfl, rfl⟩ := Prod.mk.inj (h.symm.trans (run_mapM_cons ha has))
      exact ⟨b, between, bs, rfl, has, rfl⟩

/-- **Commands that run one generator each, one after another.**  The first makes the output
directory, which is there for the others. -/
theorem run_singles {s : Settings} {generations : Single → Generation}
    (hsettings : SettingsAt fs manifest s) (hnamed : fs.IsNamed)
    (hisMade : ∀ single : Single, single.IsMade (generations single) fs s schema sources)
    (hapart : OutputApart output manifest schema sources)
    (hmade : MakesNoSource fs output sources)
    (order : List Single) (session : Session) {opened : FileSystem}
    (hsession : fs.Grows (outputArea fs output) session.files)
    (hgrows : fs.Grows (outputArea fs output) opened)
    (hopened : session.files.makeDirectories output = (none, opened))
    (hsettles : ∀ single ∈ order, ∀ a ∈ (generations single).artifacts, Settles opened output a) :
    ∃ after, ((order.map (Single.arguments schema sources output manifest)).mapM execute :
        StateM Session (List Outcome)).run session = (order.map fun _ => .done, after) ∧
      after.files = if order = [] then session.files else
        (order.flatMap fun single => (generations single).artifacts).foldl (settle output)
          opened := by
  induction order generalizing session opened with
  | nil => exact ⟨session, rfl, rfl⟩
  | cons single order ih =>
    obtain ⟨hfirst, hrest⟩ := List.forall_mem_cons.1 hsettles
    let artifacts := (generations single).artifacts
    have hsame : opened.SameDirectories (artifacts.foldl (settle output) opened) :=
      sameDirectories_foldl_settle hfirst
    obtain ⟨between, hrun, hfiles⟩ := (single.execute_done_iff session).2
      ⟨s, generations single, hsettings.of_grows hsession hapart.not_manifest,
        (hisMade single).of_grows hsession hnamed hapart hmade, opened, hopened, hfirst, rfl⟩
    have hbetween : fs.Grows (outputArea fs output) between.files := by
      rw [hfiles]
      exact hgrows.trans ((grows_foldl_settle hfirst).mono fun _ _ => .inr)
    have hthere : between.files.makeDirectories output = (none, between.files) := by
      rw [hfiles]
      exact makeDirectories_of_directories hopened fun p hp => (hsame p).1 hp
    have hsettled : ∀ single ∈ order, ∀ a ∈ (generations single).artifacts,
        Settles between.files output a := by
      intro single' hsingle' a ha
      rw [hfiles]
      exact (hrest single' hsingle' a ha).of_sameDirectories hsame
    obtain ⟨after, hruns, hafter⟩ := ih between hbetween hbetween hthere hsettled
    refine ⟨after, run_mapM_cons hrun hruns, ?_⟩
    rw [hafter, if_neg (List.cons_ne_nil _ _), List.flatMap_cons, List.foldl_append, ← hfiles]
    split_ifs with hnil
    · rw [hnil]
      rfl
    · rfl

/-! ### All commands -/

theorem Outcome.exitCode_eq_zero_iff {outcome : Outcome} :
    outcome.exitCode = 0 ↔ outcome = .done := by
  cases outcome with
  | done => exact iff_of_true rfl rfl
  | misused => exact iff_of_false nofun nofun
  | stopped halt => cases halt <;> exact iff_of_false nofun nofun

/-- What a project with both inputs makes are the artifacts of its generators, one after another. -/
theorem artifacts_of_makes {s : Settings} {g : Generation}
    (h : Project.Makes ⟨some schema, some sources⟩ s fs g) :
    ∃ generations : Single → Generation,
      (∀ single : Single, single.IsMade (generations single) fs s schema sources) ∧
      g.artifacts = singles.flatMap (fun single => (generations single).artifacts) ∧
      (g.artifacts.map (·.id)).Nodup := by
  obtain ⟨-, c, c', ⟨api, hapi, hadds⟩, ⟨mappings, handlers, c₁, hmappings, hhandlers, hadds₁,
    hadds₂⟩, rfl⟩ := h
  let generations : Single → Generation
    | .api => api
    | .sources .mappings => mappings
    | .sources .handlers => handlers
  refine ⟨generations, ?_, ?_, c'.registry.nodup⟩
  · rintro (_ | _ | _)
    · exact hapi
    · exact hmappings
    · exact hhandlers
  · show c'.registry.artifacts =
      api.artifacts ++ (mappings.artifacts ++ (handlers.artifacts ++ []))
    rw [hadds₂.artifacts, hadds₁.artifacts, hadds.artifacts, List.append_nil, List.append_assoc]
    rfl

/-- **The commands that run one generator each agree with `generate`.**  Let the output directory be
apart from the manifest and its inputs, and let none of the directories that are made for it pass
for a source file.  If `generate` ends well, so do the three commands with the inputs
that the manifest names, run one after another in any order from the same session, and at every
place they leave the same entry as `generate`. -/
theorem singles_agree (session : Session) (output manifest schema sources : String)
    (hnamed : session.files.IsNamed)
    (hinputs : ((Manifest.load manifest : Run (StateM Session) Manifest).result session).1.map
      (·.inputs) = .ok ⟨some schema, some sources⟩)
    (hapart : OutputApart output manifest schema sources)
    (hmade : MakesNoSource session.files output sources)
    (hdone : ((execute (generateArguments output manifest) :
      StateM Session Outcome).run session).1.exitCode = 0)
    (order : List Single) (horder : order.Perm singles) :
    ∃ outcomes after,
      ((order.map (Single.arguments schema sources output manifest)).mapM execute :
        StateM Session (List Outcome)).run session = (outcomes, after) ∧
      (∀ outcome ∈ outcomes, outcome.exitCode = 0) ∧
      ∀ place, after.files.entry? place =
        ((execute (generateArguments output manifest) :
          StateM Session Outcome).run session).2.files.entry? place := by
  -- what `generate` has read and made
  cases hrun : (execute (generateArguments output manifest) :
      StateM Session Outcome).run session with
  | mk outcome generated =>
    rw [hrun] at hdone
    obtain rfl := Outcome.exitCode_eq_zero_iff.1 hdone
    obtain ⟨m, g, hm, hvalid, hmakes, opened, hopened, hsettles, hgenerated⟩ :=
      (execute_generate_done_iff session).1 ⟨generated, hrun, rfl⟩
    have hboth : m.inputs = ⟨some schema, some sources⟩ := by
      cases hload : (Manifest.load manifest : Run (StateM Session) Manifest).result session with
      | mk loaded after =>
        rw [hload] at hinputs
        obtain ⟨m', rfl, hm'⟩ := map_eq_ok.1 hinputs
        have hat := ((Manifest.reads_load manifest session m' _).1 ⟨after, hload, rfl⟩).1
        rw [hm.unique hat, hm']
    rw [hboth] at hmakes
    obtain ⟨generations, hisMade, hartifacts, hnodup⟩ := artifacts_of_makes hmakes
    -- the commands read what `generate` has read, and their artifacts are among its artifacts
    have hsettings : SettingsAt session.files manifest m.settings :=
      ⟨m, hm, (Manifest.validate_eq_ok.1 hvalid).2.2, rfl⟩
    have hperm := horder.flatMap_right fun single => (generations single).artifacts
    rw [← hartifacts] at hperm
    have hopen : session.files.Grows (outputArea session.files output) opened := by
      have hgrows : session.files.Grows (outputArea session.files output)
          (session.files.makeDirectories output).2 :=
        (grows_makeDirectories session.files output).mono fun _ _ => .inl
      rwa [hopened] at hgrows
    obtain ⟨after, hruns, hafter⟩ := run_singles hsettings hnamed hisMade hapart hmade order
      session (.refl _ _) hopen hopened fun single hsingle a ha =>
        hsettles a (hperm.mem_iff.1 (List.mem_flatMap.2 ⟨single, hsingle, ha⟩))
    refine ⟨_, after, hruns, ?_, ?_⟩
    · intro outcome houtcome
      obtain ⟨_, -, rfl⟩ := List.mem_map.1 houtcome
      rfl
    · have hne : order ≠ [] := by
        rintro rfl
        cases horder.length_eq
      intro place
      rw [hafter, if_neg hne, hgenerated]
      exact congrFun (entry?_foldl_settle_of_perm hperm.symm hnodup hsettles).symm place

/-- A project without entities and source files. -/
def bareProject : Session where
  files := { entries := [
    (["stencil.toml"], .text "[inputs]\nschema = \"api.json\"\nsources = \"src\"\n"),
    (["api.json"], .text "[]"),
    (["src"], .directory),
    (["src", "notes.txt"], .text "")] }

theorem singles_agree_bareProject :
    ∃ outcomes after,
      (([.sources .handlers, .api, .sources .mappings].map
        (Single.arguments "api.json" "src" "out" "stencil.toml")).mapM execute :
        StateM Session (List Outcome)).run bareProject = (outcomes, after) ∧
      (∀ outcome ∈ outcomes, outcome.exitCode = 0) ∧
      ∀ place, after.files.entry? place =
        ((execute (generateArguments "out" "stencil.toml") :
          StateM Session Outcome).run bareProject).2.files.entry? place := by
  have hmade : ∀ entry ∈ (bareProject.files.makeDirectories "out").2.entries,
      entry.2 = .directory → (placeOf "src").below? entry.1 = none := by decide
  refine singles_agree bareProject "out" "stencil.toml" "api.json" "src" (by decide)
    (by decide +kernel) ?_ (fun p way hp hway => ?_) (by decide +kernel) _ (by decide)
  · constructor <;> decide
  · rw [hmade _ hp.mem_entries rfl] at hway
    cases hway

/-! ### Directories made on the way -/

/-- A path after a long detour through the sources. -/
def longPath (path : String) : String := detour "src" 581 ++ "/" ++ path

/-- An output directory beside the sources, on a way through them. -/
def roundabout : String := "src/generated_sources.rs/../../out"

theorem placeOf_longPath {path : String} (h : isAbsolute path = false) :
    placeOf (longPath path) = placeOf path :=
  placeOf_detour (by decide) h 581

theorem utf8ByteSize_longPath (path : String) :
    (longPath path).utf8ByteSize = 4074 + path.utf8ByteSize := by
  have hdetour := utf8ByteSize_detour "src" 581
  have hname : "src".utf8ByteSize = 3 := by decide
  have hslash : "/".utf8ByteSize = 1 := by decide
  rw [longPath, String.utf8ByteSize_append, String.utf8ByteSize_append, hslash]
  rw [hname] at hdetour
  omega

theorem isLongPath_longPath {path : String} :
    isLongPath (longPath path) = decide (22 ≤ path.utf8ByteSize) := by
  rw [isLongPath, utf8ByteSize_longPath]
  apply decide_eq_decide.2
  omega

theorem readText_longPath {path text : String} (hpath : isAbsolute path = false)
    (hread : bareProject.files.readText path = .ok text) (hsize : path.utf8ByteSize < 22) :
    bareProject.files.readText (longPath path) = .ok text := by
  refine readText_detour (by decide) (by decide) (by simp) rfl hpath hread ?_
  rw [← longPath, isLongPath_longPath, decide_eq_false_iff_not, not_le]
  exact hsize

theorem longPath_ne_empty (path : String) : longPath path ≠ "" := by
  intro hempty
  have hsize := utf8ByteSize_longPath path
  rw [hempty] at hsize
  have hzero : "".utf8ByteSize = 0 := rfl
  omega

/-- The manifest of the project. -/
def longManifest : Manifest := ⟨⟨some (longPath "api.json"), some (longPath "src")⟩, {}⟩

theorem longManifest_isAt : longManifest.IsAt bareProject.files (longPath "stencil.toml") := by
  have hparsed : (Manifest.read "[inputs]\nschema = \"api.json\"\nsources = \"src\"\n").map
      (fun m => (m.inputs, m.settings)) = some (⟨some "api.json", some "src"⟩, {}) := by
    decide +kernel
  obtain ⟨⟨inputs, settings⟩, hread, hparts⟩ := Option.map_eq_some_iff.1 hparsed
  obtain ⟨rfl, rfl⟩ := Prod.mk.inj hparts
  refine ⟨_, _, readText_longPath (by decide) rfl (by decide), hread, ?_⟩
  have hparent : parent? (longPath "stencil.toml") = some (detour "src" 581) :=
    parent?_detour (by decide) 581 (by decide)
  have hjoin {path : String} (h : isAbsolute path = false) :
      join (detour "src" 581) path = longPath path := join_detour "src" 581 h
  have hrooted (base : String) : Inputs.rootedAt ⟨some "api.json", some "src"⟩ base =
      ⟨some (join base "api.json"), some (join base "src")⟩ := rfl
  rw [Manifest.seenFrom, hparent]
  dsimp only
  rw [hrooted, hjoin (by decide), hjoin (by decide), longManifest]

theorem isDirectory_longPath {fs : FileSystem} (hentry : fs.entry? ["src"] = some .directory)
    (hdirectory : fs.isDirectory "src" = true) : fs.isDirectory (longPath "src") = true := by
  refine isDirectory_detour (by decide) (by decide) (by simp) hentry (by decide) hdirectory ?_
  rw [← longPath, isLongPath_longPath]
  decide

/-- The tree of the project. -/
def bareTree : Source.SourceTree := { symbols := ({} : Source.SymbolTable).attach }

theorem treeAt_longPath : Source.treeAt bareProject.files (longPath "src") = .ok bareTree := by
  have hdirectory : bareProject.files.isDirectory (longPath "src") = true :=
    isDirectory_longPath rfl rfl
  have hplace : placeOf (longPath "src") = ["src"] := placeOf_longPath (by decide)
  have hways : bareProject.files.filesBelow (longPath "src") = [["notes.txt"]] := by
    rw [filesBelow_of_isDirectory hdirectory, hplace]
    rfl
  have hcrate : Source.crateFiles [["notes.txt"]] = [] := by
    rw [Source.crateFiles, List.filter_eq_nil_iff.2 (by decide), List.mergeSort_nil]
  rw [Source.treeAt, hdirectory, hways, hcrate]
  rfl

/-- The project makes the repositories and the mappings, which are files of their own. -/
theorem makes_longManifest :
    ∃ g, Project.Makes longManifest.inputs longManifest.settings bareProject.files g ∧
      g.artifacts.map (·.id) = ["repositories.generated.rs", "mappings.generated.rs"] := by
  have hapi : (Generation.api {} []).map (·.artifacts.map (·.id)) =
      .ok ["repositories.generated.rs"] := by decide +kernel
  have hmappings : (Generation.mappings {} bareTree.host bareTree.corpus).map
      (·.artifacts.map (·.id)) = .ok ["mappings.generated.rs"] := by decide +kernel
  have hhandlers : (Generation.handlers {} bareTree.host bareTree.corpus).map
      (·.artifacts.map (·.id)) = .ok [] := by decide +kernel
  obtain ⟨api, hapi, hids₁⟩ := map_eq_ok.1 hapi
  obtain ⟨mappings, hmappings, hids₂⟩ := map_eq_ok.1 hmappings
  obtain ⟨handlers, hhandlers, hids₃⟩ := map_eq_ok.1 hhandlers
  have hids : (api.artifacts ++ mappings.artifacts ++ handlers.artifacts).map (·.id) =
      ["repositories.generated.rs", "mappings.generated.rs"] := by
    rw [List.map_append, List.map_append, hids₁, hids₂, hids₃]
    rfl
  have hschema : bareProject.files.readText (longPath "api.json") = .ok "[]" :=
    readText_longPath (by decide) rfl (by decide)
  have hread : Schema.read "[]" = .ok [] := rfl
  obtain ⟨g, hmakes, hartifacts⟩ := Project.exists_makes {} Settings.validate_default
    ⟨"[]", [], hschema, hread, hapi⟩ ⟨bareTree, treeAt_longPath, hmappings⟩
    ⟨bareTree, treeAt_longPath, hhandlers⟩ (by
      rw [hids]
      decide)
  exact ⟨g, hmakes, by rw [hartifacts, hids]⟩

theorem writes_roundabout {as : List Artifact}
    (h : as.map (·.id) = ["repositories.generated.rs", "mappings.generated.rs"]) :
    ∃ made, Writes bareProject.files roundabout as made := by
  let opened := (bareProject.files.makeDirectories roundabout).2
  have hnone : (bareProject.files.makeDirectories roundabout).1 = none := rfl
  have hwrite : ∀ id ∈ ["repositories.generated.rs", "mappings.generated.rs"],
      Artifact.isPlainName id = true ∧
        (opened.write (join roundabout id) .binary).map (fun _ => ()) = .ok () := by
    decide
  refine ⟨_, opened, Prod.ext hnone rfl, fun a ha => ?_, rfl⟩
  obtain ⟨hplain, hwritten⟩ := hwrite a.id (h ▸ List.mem_map_of_mem ha)
  obtain ⟨made, hmade, -⟩ := map_eq_ok.1 hwritten
  exact ⟨hplain, (write_eq_ok.1 hmade).1⟩

theorem longManifest_validate : longManifest.validate = .ok () := by
  refine Manifest.validate_eq_ok.2 ⟨rfl, ?_, Settings.validate_default⟩
  have hpaths : longManifest.inputs.paths = [longPath "api.json", longPath "src"] := rfl
  rw [hpaths, ← Bool.not_eq_true, List.contains_iff_mem, List.mem_pair, not_or]
  exact ⟨(longPath_ne_empty _).symm, (longPath_ne_empty _).symm⟩

/-- The directory on the way to the output passes for a source file. -/
theorem passesForSource_longPath :
    Source.passesForSource (longPath "src") ["generated_sources.rs"] = true := by
  have hsize := utf8ByteSize_add_le_join (longPath "src")
    (by decide : isAbsolute "generated_sources.rs" = false)
  have hname : "generated_sources.rs".utf8ByteSize = 20 := by decide
  have hsources : "src".utf8ByteSize = 3 := by decide
  rw [utf8ByteSize_longPath, hname, hsources] at hsize
  have hlarge : 4096 ≤ (join (longPath "src") "generated_sources.rs").utf8ByteSize := by omega
  have hlong : isLongPath (pathBelow (longPath "src") ["generated_sources.rs"]) = true :=
    decide_eq_true hlarge
  have hcrate : Source.isOfCrate ["generated_sources.rs"] = true := by decide
  rw [Source.passesForSource, hcrate, isListed, hlong]
  rfl

theorem treeAt_ne_ok_roundabout {as : List Artifact} {made : FileSystem}
    (h : Writes bareProject.files roundabout as made) (tree : Source.SourceTree) :
    Source.treeAt made (longPath "src") ≠ .ok tree := by
  have hentry : made.entry? ["src", "generated_sources.rs"] = some .directory :=
    h.entry_directory rfl
  refine Source.treeAt_ne_ok hentry ?_ passesForSource_longPath tree
  rw [placeOf_longPath (by decide)]
  decide

/-- **A directory may pass for a source file** once it has been made on the way to an output
directory that is apart from the inputs.  Then `generate`, which has read the sources before, ends
well, and the commands that run one generator each do not. -/
theorem singles_stop_roundabout :
    bareProject.files.IsNamed ∧
    ((Manifest.load (longPath "stencil.toml") : Run (StateM Session) Manifest).result
      bareProject).1.map (·.inputs) = .ok ⟨some (longPath "api.json"), some (longPath "src")⟩ ∧
    OutputApart roundabout (longPath "stencil.toml") (longPath "api.json") (longPath "src") ∧
    ((execute (generateArguments roundabout (longPath "stencil.toml")) :
      StateM Session Outcome).run bareProject).1.exitCode = 0 ∧
    ¬ ∃ outcomes after,
      ((singles.map (Single.arguments (longPath "api.json") (longPath "src") roundabout
        (longPath "stencil.toml"))).mapM execute : StateM Session (List Outcome)).run bareProject =
          (outcomes, after) ∧
      ∀ outcome ∈ outcomes, outcome.exitCode = 0 := by
  obtain ⟨g, hmakes, hids⟩ := makes_longManifest
  obtain ⟨made, hwrites⟩ := writes_roundabout hids
  refine ⟨by decide, ?_, ?_, ?_, ?_⟩
  · obtain ⟨after, hload, -⟩ :=
      (Manifest.reads_load (longPath "stencil.toml") bareProject longManifest _).2
        ⟨longManifest_isAt, rfl⟩
    rw [hload]
    rfl
  · have hmanifest : placeOf (longPath "stencil.toml") = ["stencil.toml"] :=
      placeOf_longPath (by decide)
    have hschema : placeOf (longPath "api.json") = ["api.json"] := placeOf_longPath (by decide)
    have hsources : placeOf (longPath "src") = ["src"] := placeOf_longPath (by decide)
    constructor
    · rw [hmanifest]
      decide
    · rw [hschema]
      decide
    all_goals
      rw [hsources]
      decide
  · obtain ⟨after, hdone, -⟩ := (execute_generate_done_iff bareProject).2
      ⟨_, g, longManifest_isAt, longManifest_validate, hmakes, hwrites⟩
    rw [hdone]
    rfl
  · rintro ⟨outcomes, after, hrun, hzero⟩
    obtain ⟨_, s₁, later, hfirst, hrest, rfl⟩ := exists_of_run_mapM_cons hrun
    obtain ⟨_, s₂, last, hsecond, -, rfl⟩ := exists_of_run_mapM_cons hrest
    obtain ⟨hzero₁, hzero⟩ := List.forall_mem_cons.1 hzero
    obtain ⟨hzero₂, -⟩ := List.forall_mem_cons.1 hzero
    obtain rfl := Outcome.exitCode_eq_zero_iff.1 hzero₁
    obtain rfl := Outcome.exitCode_eq_zero_iff.1 hzero₂
    obtain ⟨_, _, -, -, hwrites₁⟩ := (Single.api.execute_done_iff bareProject).1 ⟨s₁, hfirst, rfl⟩
    obtain ⟨_, _, -, ⟨tree, htree, -⟩, -⟩ :=
      ((Single.sources .mappings).execute_done_iff s₁).1 ⟨s₂, hsecond, rfl⟩
    exact treeAt_ne_ok_roundabout hwrites₁ tree htree

end Scaffold.Command
