import Scaffold.Build
import Scaffold.Proofs.Writing

/-!
# What builds do to files

A manifest, a schema and sources are read where they are (`Manifest.IsAt`, `Generation.IsApi`,
`Generation.IsOfSources`).  A project is generated from what its inputs make, in one registry
(`reads_generate`), and a build then writes the artifacts (`does_carryOut`).
-/

namespace Scaffold

open Files FileSystem Run

variable {fs later : FileSystem}

/-- The settings that hold where nothing is set can be used. -/
theorem Settings.validate_default : ({} : Settings).validate = .ok () := by decide +kernel

/-! ### Manifests -/

namespace Manifest

/-- A manifest with the paths of its inputs as seen from where its file is. -/
def seenFrom (path : String) (m : Manifest) : Manifest :=
  match parent? path with
  | some base => { m with inputs := m.inputs.rootedAt base }
  | none => m

/-- **Whether a manifest is the one in a file.** -/
def IsAt (m : Manifest) (fs : FileSystem) (path : String) : Prop :=
  ∃ text written, fs.readText path = .ok text ∧ read text = some written ∧
    m = written.seenFrom path

theorem IsAt.unique {m m' : Manifest} {path : String} (h : m.IsAt fs path)
    (h' : m'.IsAt fs path) : m = m' := by
  obtain ⟨text, written, hread, hwritten, rfl⟩ := h
  obtain ⟨text', written', hread', hwritten', rfl⟩ := h'
  obtain rfl := Except.ok.inj (hread.symm.trans hread')
  obtain rfl := Option.some.inj (hwritten.symm.trans hwritten')
  rfl

theorem IsAt.of_grows {area : Location → Entry → Prop} {m : Manifest} {path : String}
    (h : m.IsAt fs path) (hgrows : fs.Grows area later) (hplace : ∀ e, ¬ area (placeOf path) e) :
    m.IsAt later path := by
  obtain ⟨text, written, hread, hwritten, hm⟩ := h
  exact ⟨text, written, hgrows.readText hread hplace, hwritten, hm⟩

theorem reads_ofText (text : String) :
    (ofText text : Run (StateM Session) Manifest).Reads fun _ m => read text = some m := by
  unfold ofText
  cases read text with
  | none => exact (reads_throw _).congr fun _ _ => iff_of_false id nofun
  | some m => exact (reads_pure m).congr fun _ _ => by rw [Option.some.injEq, eq_comm]

theorem reads_load (path : String) :
    (load path : Run (StateM Session) Manifest).Reads fun fs m => m.IsAt fs path := by
  have hseen (m : Manifest) :
      (match parent? path with
        | some base => pure { m with inputs := m.inputs.rootedAt base }
        | none => pure m : Run (StateM Session) Manifest).Reads fun _ m' => m' = m.seenFrom path := by
    unfold seenFrom
    cases parent? path with
    | none => exact reads_pure _
    | some base => exact reads_pure _
  refine ((reads_readText _ path).bind fun text =>
    (reads_ofText text).bind fun written => hseen written).congr fun fs m => ?_
  constructor
  · rintro ⟨text, hread, written, hwritten, hm⟩
    exact ⟨text, written, hread, hwritten, hm⟩
  · rintro ⟨text, written, hread, hwritten, hm⟩
    exact ⟨text, hread, written, hwritten, hm⟩

theorem validate_eq_ok {m : Manifest} :
    m.validate = .ok () ↔
      m.inputs.isEmpty = false ∧ m.inputs.paths.contains "" = false ∧
        m.settings.validate = .ok () := by
  unfold validate
  cases hempty : m.inputs.isEmpty with
  | true => simp
  | false =>
    rw [if_neg Bool.false_ne_true]
    cases hpath : m.inputs.paths.contains "" with
    | true => simp
    | false =>
      rw [if_neg Bool.false_ne_true]
      cases m.settings.validate <;> simp

end Manifest

/-! ### Generators -/

namespace Generation

variable {g : Generation} {s : Settings} {path : String}

/-- **Whether a generation is made of the schema in a file.** -/
def IsApi (g : Generation) (fs : FileSystem) (s : Settings) (path : String) : Prop :=
  ∃ text entities, fs.readText path = .ok text ∧ Schema.read text = .ok entities ∧
    api s entities = .ok g

/-- **Whether a generation is made of the sources in a directory** by a generator. -/
def IsOfSources (make : Settings → Host → Corpus → Except Stop Generation) (g : Generation)
    (fs : FileSystem) (s : Settings) (root : String) : Prop :=
  ∃ tree, Source.treeAt fs root = .ok tree ∧ make s tree.host tree.corpus = .ok g

theorem IsApi.of_grows {area : Location → Entry → Prop} (h : g.IsApi fs s path)
    (hgrows : fs.Grows area later) (hplace : ∀ e, ¬ area (placeOf path) e) :
    g.IsApi later s path := by
  obtain ⟨text, entities, hread, hentities, hmade⟩ := h
  exact ⟨text, entities, hgrows.readText hread hplace, hentities, hmade⟩

theorem IsOfSources.of_grows {make : Settings → Host → Corpus → Except Stop Generation}
    {area : Location → Entry → Prop} {root : String} (h : IsOfSources make g fs s root)
    (hgrows : fs.Grows area later) (hnamed : fs.IsNamed) (harea : Source.Spares fs root area) :
    IsOfSources make g later s root := by
  obtain ⟨tree, htree, hmade⟩ := h
  exact ⟨tree, Source.treeAt_of_grows hgrows hnamed harea htree, hmade⟩

end Generation

/-! ### Projects -/

theorem Registry.artifacts_of_foldlM {as : List Artifact} {r r' : Registry}
    (h : as.foldlM insert r = .ok r') : r'.artifacts = r.artifacts ++ as := by
  induction as generalizing r with
  | nil =>
    obtain rfl := Except.ok.inj h
    exact (List.append_nil _).symm
  | cons a as ih =>
    rw [List.foldlM_cons] at h
    obtain ⟨next, hnext, hrest⟩ := bind_eq_ok.1 h
    rw [ih hrest, artifacts_of_insert hnext, List.append_assoc, List.singleton_append]

namespace Project

/-- Whether a registry has the artifacts of another and then those of a generation. -/
def Collection.Adds (c : Collection) (g : Generation) (c' : Collection) : Prop :=
  ∃ r, g.artifacts.foldlM Registry.insert c.registry = .ok r ∧ c' = ⟨r, c.failures ++ g.failures⟩

theorem Collection.Adds.artifacts {c c' : Collection} {g : Generation} (h : c.Adds g c') :
    c'.registry.artifacts = c.registry.artifacts ++ g.artifacts := by
  obtain ⟨r, hr, rfl⟩ := h
  exact Registry.artifacts_of_foldlM hr

theorem Collection.reads_foldlM_addArtifact (generator : String) (as : List Artifact)
    (c : Collection) :
    (as.foldlM (addArtifact generator) c : Run (StateM Session) Collection).Reads fun _ c' =>
      ∃ r, as.foldlM Registry.insert c.registry = .ok r ∧ c' = ⟨r, c.failures⟩ := by
  induction as generalizing c with
  | nil =>
    refine (reads_pure c).congr fun _ c' => ?_
    constructor
    · rintro rfl
      exact ⟨c'.registry, rfl, rfl⟩
    · rintro ⟨r, hr, rfl⟩
      obtain rfl := Except.ok.inj hr
      rfl
  | cons a as ih =>
    have hadd : (c.addArtifact generator a : Run (StateM Session) Collection).Reads fun _ c' =>
        ∃ r, c.registry.insert a = .ok r ∧ { c with registry := r } = c' := by
      unfold addArtifact
      refine (isQuiet_emit _).then_reads (((reads_ofFailure _ _).bind fun r =>
        reads_pure _).congr fun _ c' => ?_)
      exact exists_congr fun r => and_congr_right fun _ => eq_comm
    rw [List.foldlM_cons, List.foldlM_cons]
    refine (hadd.bind ih).congr fun _ c' => ?_
    constructor
    · rintro ⟨_, ⟨r, hr, rfl⟩, hrest⟩
      obtain ⟨r', hr', hc'⟩ := hrest
      exact ⟨r', bind_eq_ok.2 ⟨r, hr, hr'⟩, hc'⟩
    · rintro ⟨r', hr', hc'⟩
      obtain ⟨r, hr, hrest⟩ := bind_eq_ok.1 hr'
      exact ⟨_, ⟨r, hr, rfl⟩, r', hrest, hc'⟩

/-- **Adding what a generator has made** in a registry. -/
theorem Collection.reads_add (c : Collection) (generator : String) (g : Generation) :
    (c.add generator g : Run (StateM Session) Collection).Reads fun _ c' => c.Adds g c' := by
  unfold add
  exact (isQuiet_forM (fun f => isQuiet_emit _) g.failures).then_reads
    (reads_foldlM_addArtifact generator g.artifacts _)

/-- A collection can take artifacts with identifiers that are new and different. -/
theorem Collection.exists_adds {c : Collection} {g : Generation}
    (h : ((c.registry.artifacts ++ g.artifacts).map (·.id)).Nodup) : ∃ c', c.Adds g c' := by
  obtain ⟨r, after, -, hresult, -, -⟩ := result_add "" h {}
  exact ⟨_, ((c.reads_add "" g {} _ _).1 ⟨after, hresult, rfl⟩).1⟩

variable (s : Settings)

theorem reads_addSchema (c : Collection) (path : String) :
    (addSchema s c path : Run (StateM Session) Collection).Reads fun fs c' =>
      ∃ g, Generation.IsApi g fs s path ∧ c.Adds g c' := by
  unfold addSchema
  have hadd (entities : List Entity) : (do
      Run.emit (event .debug "loaded schema"
        [("entities", .int entities.length), ("schema", .text path)])
      c.add "api" (← Run.ofStop ["API generation failed"] (Generation.api s entities)) :
      Run (StateM Session) Collection).Reads fun _ c' =>
        ∃ g, Generation.api s entities = .ok g ∧ c.Adds g c' :=
    (isQuiet_emit _).then_reads ((reads_ofStop _ _).bind fun g => c.reads_add "api" g)
  refine ((reads_readText _ path).bind fun text =>
    (reads_ofFailure _ (Schema.read text)).bind hadd).congr fun fs c' => ?_
  constructor
  · rintro ⟨text, hread, entities, hentities, g, hg, hadds⟩
    exact ⟨g, ⟨text, entities, hread, hentities, hg⟩, hadds⟩
  · rintro ⟨g, ⟨text, entities, hread, hentities, hg⟩, hadds⟩
    exact ⟨text, hread, entities, hentities, g, hg, hadds⟩

theorem reads_addSources (c : Collection) (root : String) :
    (addSources s c root : Run (StateM Session) Collection).Reads fun fs c' =>
      ∃ mappings handlers c₁, Generation.IsOfSources Generation.mappings mappings fs s root ∧
        Generation.IsOfSources Generation.handlers handlers fs s root ∧
        c.Adds mappings c₁ ∧ c₁.Adds handlers c' := by
  unfold addSources
  have hadd (tree : Source.SourceTree) : (do
      Run.emit (event .debug "loaded sources"
        [("files", .int tree.corpus.units.length), ("sources", .text root)])
      let c ← c.add "mapping" (← Run.ofStop ["Mapping generation failed"]
        (Generation.mappings s tree.host tree.corpus))
      c.add "handler" (← Run.ofStop ["Handler generation failed"]
        (Generation.handlers s tree.host tree.corpus)) :
      Run (StateM Session) Collection).Reads fun _ c' =>
        ∃ mappings, Generation.mappings s tree.host tree.corpus = .ok mappings ∧
          ∃ c₁, c.Adds mappings c₁ ∧
            ∃ handlers, Generation.handlers s tree.host tree.corpus = .ok handlers ∧
              c₁.Adds handlers c' :=
    (isQuiet_emit _).then_reads ((reads_ofStop _ _).bind fun mappings =>
      (c.reads_add "mapping" mappings).bind fun c₁ =>
        (reads_ofStop _ _).bind fun handlers => c₁.reads_add "handler" handlers)
  refine ((reads_readCrate _ root).bind hadd).congr fun fs c' => ?_
  constructor
  · rintro ⟨tree, htree, mappings, hmappings, c₁, hadds, handlers, hhandlers, hadds'⟩
    exact ⟨mappings, handlers, c₁, ⟨tree, htree, hmappings⟩, ⟨tree, htree, hhandlers⟩, hadds,
      hadds'⟩
  · rintro ⟨mappings, handlers, c₁, ⟨tree, htree, hmappings⟩, ⟨tree', htree', hhandlers⟩, hadds,
      hadds'⟩
    obtain rfl := Except.ok.inj (htree.symm.trans htree')
    exact ⟨tree, htree, mappings, hmappings, c₁, hadds, handlers, hhandlers, hadds'⟩

/-- Whether a collection has what the schema of a project makes. -/
def Collection.AddsSchema (c : Collection) (fs : FileSystem) (s : Settings) (c' : Collection) :
    Option String → Prop
  | none => c' = c
  | some path => ∃ g, Generation.IsApi g fs s path ∧ c.Adds g c'

/-- Whether a collection has what the sources of a project make. -/
def Collection.AddsSources (c : Collection) (fs : FileSystem) (s : Settings) (c' : Collection) :
    Option String → Prop
  | none => c' = c
  | some root =>
    ∃ mappings handlers c₁, Generation.IsOfSources Generation.mappings mappings fs s root ∧
      Generation.IsOfSources Generation.handlers handlers fs s root ∧
      c.Adds mappings c₁ ∧ c₁.Adds handlers c'

/-- **Whether a project makes a generation** of its inputs. -/
def Makes (inputs : Inputs) (s : Settings) (fs : FileSystem) (g : Generation) : Prop :=
  s.validate = .ok () ∧ ∃ c c', Collection.AddsSchema {} fs s c inputs.schema ∧
    c.AddsSources fs s c' inputs.sources ∧ g = ⟨c'.registry.artifacts, c'.failures⟩

/-- A project with both inputs makes what its generators make, if their artifacts have different
identifiers. -/
theorem exists_makes {schema sources : String} {api mappings handlers : Generation}
    (hs : s.validate = .ok ()) (hapi : Generation.IsApi api fs s schema)
    (hmappings : Generation.IsOfSources Generation.mappings mappings fs s sources)
    (hhandlers : Generation.IsOfSources Generation.handlers handlers fs s sources)
    (hnodup : ((api.artifacts ++ mappings.artifacts ++ handlers.artifacts).map (·.id)).Nodup) :
    ∃ g, Makes ⟨some schema, some sources⟩ s fs g ∧
      g.artifacts = api.artifacts ++ mappings.artifacts ++ handlers.artifacts := by
  have hfirst : ((api.artifacts ++ mappings.artifacts).map (·.id)).Nodup := by
    rw [List.map_append] at hnodup
    exact hnodup.of_append_left
  obtain ⟨c₁, hadds₁⟩ := Collection.exists_adds (c := {}) (g := api) (by
    rw [List.map_append] at hfirst
    exact hfirst.of_append_left)
  have hc₁ : c₁.registry.artifacts = api.artifacts := hadds₁.artifacts
  obtain ⟨c₂, hadds₂⟩ := Collection.exists_adds (c := c₁) (g := mappings) (by rwa [hc₁])
  have hc₂ := hadds₂.artifacts
  rw [hc₁] at hc₂
  obtain ⟨c₃, hadds₃⟩ := Collection.exists_adds (c := c₂) (g := handlers) (by rwa [hc₂])
  have hc₃ := hadds₃.artifacts
  rw [hc₂] at hc₃
  exact ⟨⟨c₃.registry.artifacts, c₃.failures⟩, ⟨hs, c₁, c₃, ⟨api, hapi, hadds₁⟩,
    ⟨mappings, handlers, c₂, hmappings, hhandlers, hadds₂, hadds₃⟩, rfl⟩, hc₃⟩

/-- **Generating a project.** -/
theorem reads_generate (inputs : Inputs) :
    (generate inputs s : Run (StateM Session) Generation).Reads fun fs g =>
      Makes inputs s fs g := by
  have hschema (c : Collection) : (inputs.schema.toList.foldlM (addSchema s) c :
      Run (StateM Session) Collection).Reads fun fs c' => c.AddsSchema fs s c' inputs.schema := by
    cases inputs.schema with
    | none => exact reads_pure c
    | some path =>
      simp only [Option.toList_some, List.foldlM_cons, List.foldlM_nil, bind_pure]
      exact reads_addSchema s c path
  have hsources (c : Collection) : (inputs.sources.toList.foldlM (addSources s) c :
      Run (StateM Session) Collection).Reads fun fs c' => c.AddsSources fs s c' inputs.sources := by
    cases inputs.sources with
    | none => exact reads_pure c
    | some root =>
      simp only [Option.toList_some, List.foldlM_cons, List.foldlM_nil, bind_pure]
      exact reads_addSources s c root
  unfold generate
  refine ((reads_ofFailure _ _).bind fun _ => (hschema {}).bind fun c =>
    (hsources c).bind fun c' => reads_emit_pure _ _).congr fun fs g => ?_
  constructor
  · rintro ⟨⟨⟩, hvalid, c, hc, c', hc', rfl⟩
    exact ⟨hvalid, c, c', hc, hc', rfl⟩
  · rintro ⟨hvalid, c, c', hc, hc', rfl⟩
    exact ⟨(), hvalid, c, hc, c', hc', rfl⟩

end Project

/-! ### Builds -/

namespace Build

theorem reads_setManifest (b : Build) (path : String) :
    (b.setManifest path : Run (StateM Session) Build).Reads fun fs b' =>
      ∃ m : Manifest, m.IsAt fs path ∧ m.validate = .ok () ∧
        b' = { b with inputs := m.inputs, settings := m.settings, manifest := some path } := by
  unfold setManifest
  refine (Manifest.reads_load path).bind (Q := fun m _ b' => m.validate = .ok () ∧
    b' = { b with inputs := m.inputs, settings := m.settings, manifest := some path }) fun m => ?_
  cases m.validate with
  | ok u => exact (reads_pure _).congr fun _ _ => (and_iff_right rfl).symm
  | error p => exact (reads_throw _).congr fun _ _ => iff_of_false id fun h => nomatch h.1

/-- **Carrying out a build** that has a directory and prints no directives. -/
theorem does_carryOut {b : Build} {directory : String} (hout : b.outDir = some directory)
    (hdirects : b.directs = false) :
    (b.carryOut none : Run (StateM Session) Generation).Does fun fs g made =>
      b.inputs.isEmpty = false ∧ Project.Makes b.inputs b.settings fs g ∧
        Writes fs directory g.artifacts made ∧ (b.deniesFailures = true → g.isClean = true) := by
  have hend (g : Generation) (w : Written) : (do
      Run.emit ⟨.info, target, some "artifacts written",
        [("written", .int w.written.length), ("unchanged", .int w.unchanged.length),
          ("out_dir", .text directory)]⟩
      if b.deniesFailures && !g.isClean then
        Run.stop [.note (toString g.failures.length ++
          " entities or candidates failed to generate")]
      else pure g : Run (StateM Session) Generation).Reads fun _ g' =>
        (b.deniesFailures = true → g.isClean = true) ∧ g' = g := by
    refine (isQuiet_emit _).then_reads ?_
    split_ifs with hdenies
    · rw [Bool.and_eq_true, Bool.not_eq_true'] at hdenies
      refine (reads_throw _).congr fun _ _ => iff_of_false id ?_
      rintro ⟨hclean, -⟩
      rw [hclean hdenies.1] at hdenies
      cases hdenies.2
    · refine (reads_pure g).congr fun _ _ => (and_iff_right fun hdeny => ?_).symm
      simpa [hdeny] using hdenies
  unfold carryOut
  cases hempty : b.inputs.isEmpty with
  | true =>
    rw [if_pos rfl]
    refine Does.congr (reads_throw _) fun fs g made => ?_
    exact iff_of_false (fun h => h.1) (fun h => Bool.noConfusion h.1)
  | false =>
    rw [if_neg Bool.false_ne_true, hout, hdirects, Option.some_or]
    dsimp only
    rw [if_neg Bool.false_ne_true]
    refine ((Project.reads_generate b.settings b.inputs).then_does fun g =>
      (leaves_writeArtifacts directory g.artifacts).then_reads (hend g)).congr fun fs g made => ?_
    constructor
    · rintro ⟨g', hmakes, hwrites, hclean, rfl⟩
      exact ⟨rfl, hmakes, hwrites, hclean⟩
    · rintro ⟨-, hmakes, hwrites, hclean⟩
      exact ⟨g, hmakes, hwrites, hclean, rfl⟩

end Build

end Scaffold
