import Scaffold.Proofs.Project

/-!
# How builds are set up

Every part of a build is what the last call that concerns it sets it to (`BuildCall.lastSet?`), and
a call with a manifest concerns the inputs and the settings at once.  So what calls set up has a
closed form (`Build.effective`): one call more changes it as the call does (`Build.result_apply`),
and a whole sequence ends with it (`Build.result_setUp`).

Carrying out a build begins with its directives, and nothing after them prints
(`Build.result_carryOut`, `Build.isSilent_deliver`).  `Build.calls_compose` puts these together.
-/

namespace Scaffold

open Files

/-! ### Runs that print nothing -/

namespace Run

variable {α β σ : Type}

/-- **Whether a run prints nothing,** whether it ends or stops. -/
def IsSilent (x : Run (StateM Session) α) : Prop :=
  ∀ session, (x.result session).2.output = session.output

namespace IsSilent

theorem pure (a : α) : (Pure.pure a : Run (StateM Session) α).IsSilent := fun _ => rfl

theorem throw (halt : Halt) : (MonadExcept.throw halt : Run (StateM Session) α).IsSilent :=
  fun _ => rfl

theorem emit (e : Diagnostics.Event) : (Run.emit e : Run (StateM Session) Unit).IsSilent :=
  fun _ => rfl

/-- An operation of the workspace that leaves the output as it is. -/
theorem lift {act : StateM Session α} (h : ∀ session, (act session).2.output = session.output) :
    (liftM act : Run (StateM Session) α).IsSilent := h

theorem bind {x : Run (StateM Session) α} {f : α → Run (StateM Session) β} (hx : x.IsSilent)
    (hf : ∀ a, (f a).IsSilent) : (x >>= f).IsSilent := by
  intro session
  rw [result_bind]
  have hfirst := hx session
  cases hresult : x.result session with
  | mk outcome between =>
    rw [hresult] at hfirst
    cases outcome with
    | error halt => exact hfirst
    | ok a => exact (hf a between).trans hfirst

theorem foldlM {f : σ → α → Run (StateM Session) σ} (hf : ∀ s a, (f s a).IsSilent) (as : List α)
    (s : σ) : (as.foldlM f s).IsSilent := by
  induction as generalizing s with
  | nil => exact pure s
  | cons a as ih =>
    rw [List.foldlM_cons]
    exact (hf s a).bind ih

theorem forM {act : α → Run (StateM Session) Unit} (hact : ∀ a, (act a).IsSilent) (as : List α) :
    (as.forM act).IsSilent := by
  induction as with
  | nil => exact pure ()
  | cons a as ih => exact (hact a).bind fun _ => ih

theorem ofFailure (notes : List String) (e : Except Failure α) :
    (Run.ofFailure notes e : Run (StateM Session) α).IsSilent := by
  cases e with
  | ok a => exact pure a
  | error f => exact throw _

theorem ofStop (notes : List String) (e : Except Stop α) :
    (Run.ofStop notes e : Run (StateM Session) α).IsSilent := by
  cases e with
  | ok a => exact pure a
  | error stop => cases stop <;> exact throw _

theorem readText (note path : String) :
    (Run.readText note path : Run (StateM Session) String).IsSilent := by
  unfold Run.readText
  refine (lift fun session => rfl).bind fun outcome => ?_
  cases outcome with
  | ok text => exact pure text
  | error fault => exact throw _

theorem readCrate (notes : List String) (root : String) :
    (Run.readCrate notes root : Run (StateM Session) Source.SourceTree).IsSilent := by
  unfold Run.readCrate
  refine (lift fun session => ?_).bind fun outcome => ?_
  · exact congrArg (·.2.output) (Source.run_ofDirectory root session)
  · cases outcome with
    | ok tree => exact pure tree
    | error fault => cases fault <;> exact throw _

/-- A change of files does not print, whether it has a fault or not. -/
theorem change {note : String} {act : StateM Session (Option IoFault)}
    (h : ∀ session, (act session).2.output = session.output) : (Run.change note act).IsSilent := by
  unfold Run.change
  refine (lift h).bind fun outcome => ?_
  cases outcome with
  | none => exact pure ()
  | some fault => exact throw _

end IsSilent

/-- Printing lines. -/
theorem result_forM_printLine (lines : List String) (session : Session) :
    (lines.forM printLine : Run (StateM Session) Unit).result session =
      (.ok (), { session with
        output := session.output ++ String.join (lines.map (· ++ "\n")) }) := by
  induction lines generalizing session with
  | nil =>
    rw [List.map_nil, String.join_nil, String.append_empty]
    rfl
  | cons line lines ih =>
    have hcons : ((line :: lines).forM printLine : Run (StateM Session) Unit) =
        printLine line >>= fun _ => lines.forM printLine := rfl
    have hline : (printLine line : Run (StateM Session) Unit).result session =
        (.ok (), { session with output := session.output ++ (line ++ "\n") }) := rfl
    rw [hcons, result_bind_of_ok hline, ih, List.map_cons, String.join_cons, String.append_assoc]

end Run

open Run

/-! ### Generating and writing print nothing -/

namespace Project

theorem Collection.isSilent_add (c : Collection) (generator : String) (g : Generation) :
    (c.add generator g : Run (StateM Session) Collection).IsSilent := by
  unfold add
  refine (IsSilent.forM (fun f => .emit _) g.failures).bind fun _ => ?_
  refine IsSilent.foldlM (fun c a => ?_) g.artifacts _
  unfold addArtifact
  refine (IsSilent.emit _).bind fun _ => ?_
  exact (IsSilent.ofFailure _ _).bind fun registry => .pure _

variable (s : Settings)

theorem isSilent_addSchema (c : Collection) (path : String) :
    (addSchema s c path : Run (StateM Session) Collection).IsSilent := by
  unfold addSchema
  refine (IsSilent.readText _ path).bind fun text => ?_
  refine (IsSilent.ofFailure _ _).bind fun entities => ?_
  refine (IsSilent.emit _).bind fun _ => ?_
  exact (IsSilent.ofStop _ _).bind fun g => c.isSilent_add "api" g

theorem isSilent_addSources (c : Collection) (root : String) :
    (addSources s c root : Run (StateM Session) Collection).IsSilent := by
  unfold addSources
  refine (IsSilent.readCrate _ root).bind fun tree => ?_
  refine (IsSilent.emit _).bind fun _ => ?_
  refine (IsSilent.ofStop _ _).bind fun mappings => ?_
  refine (c.isSilent_add "mapping" mappings).bind fun c' => ?_
  exact (IsSilent.ofStop _ _).bind fun handlers => c'.isSilent_add "handler" handlers

theorem isSilent_generate (inputs : Inputs) :
    (generate inputs s : Run (StateM Session) Generation).IsSilent := by
  unfold generate
  refine (IsSilent.ofFailure _ _).bind fun _ => ?_
  refine (IsSilent.foldlM (isSilent_addSchema s) _ _).bind fun c => ?_
  refine (IsSilent.foldlM (isSilent_addSources s) _ _).bind fun c' => ?_
  exact (IsSilent.emit _).bind fun _ => .pure _

end Project

theorem isSilent_writeArtifacts (directory : String) (artifacts : List Artifact) :
    (writeArtifacts directory artifacts : Run (StateM Session) Written).IsSilent := by
  have hwrite (path content : String) (session : Session) :
      ((Workspace.writeText path content : StateM Session _) session).2.output =
        session.output := by
    show (session.change (session.files.write path (.text content))).2.output = session.output
    cases session.files.write path (.text content) <;> rfl
  have hone (w : Written) (a : Artifact) (path : String) :
      (Written.add.write w a path : Run (StateM Session) Written).IsSilent := by
    unfold Written.add.write
    refine (IsSilent.change (hwrite path a.text)).bind fun _ => ?_
    exact (IsSilent.emit _).bind fun _ => .pure _
  unfold writeArtifacts
  refine (IsSilent.change fun session => rfl).bind fun _ => ?_
  refine IsSilent.foldlM (fun w a => ?_) artifacts _
  unfold Written.add
  split_ifs
  · exact .throw _
  · refine (IsSilent.lift fun session => rfl).bind fun outcome => ?_
    cases outcome with
    | error fault => exact hone w a _
    | ok text =>
      dsimp only
      split_ifs
      · exact (IsSilent.emit _).bind fun _ => .pure _
      · exact hone w a _

/-! ### What calls set -/

theorem Inputs.paths_rootedAt (i : Inputs) (base : String) : (i.rootedAt base).paths =
    i.paths.map fun input => if input.isEmpty then input else join base input := by
  simp [paths, rootedAt, Option.toList_map]

namespace Manifest

/-- The manifest that a file has, if there is one. -/
def written? (fs : FileSystem) (path : String) : Option Manifest :=
  (fs.readText path).toOption.bind read

/-- An input that the manifest in a file names, as seen from where the file is. -/
def rooted (path input : String) : String :=
  match parent? path with
  | some base => join base input
  | none => input

/-- The inputs of a manifest that can be used are those that its file names. -/
theorem IsAt.exists_written {fs : FileSystem} {path : String} {m : Manifest} (h : m.IsAt fs path)
    (hvalid : m.validate = .ok ()) : ∃ written, written? fs path = some written ∧
      m = ⟨⟨written.inputs.schema.map (rooted path), written.inputs.sources.map (rooted path)⟩,
        written.settings⟩ := by
  obtain ⟨text, written, hread, hwritten, hm⟩ := h
  refine ⟨written, ?_, ?_⟩
  · rw [written?, hread, Except.toOption, Option.bind_some, hwritten]
  · obtain ⟨-, hpaths, -⟩ := validate_eq_ok.1 hvalid
    have hnamed : "" ∉ m.inputs.paths := by simpa using hpaths
    cases hparent : parent? path with
    | none =>
      have hrooted : rooted path = id := by
        funext input
        rw [rooted, hparent]
        rfl
      rw [hm, seenFrom, hparent, hrooted, Option.map_id]
      rfl
    | some base =>
      -- an empty path stays empty, and with one the manifest could not be used
      have hrooted (input : String) (hinput : input ∈ written.inputs.paths) :
          (if input.isEmpty then input else join base input) = rooted path input := by
        rw [rooted, hparent]
        apply if_neg
        intro hempty
        apply hnamed
        rw [hm, seenFrom, hparent]
        show "" ∈ (written.inputs.rootedAt base).paths
        rw [Inputs.paths_rootedAt]
        exact List.mem_map.2 ⟨input, hinput, by rw [if_pos hempty, String.isEmpty_iff.1 hempty]⟩
      have hschema := Option.map_congr (x := written.inputs.schema) fun input hinput =>
        hrooted input (by simp [Inputs.paths, hinput])
      have hsources := Option.map_congr (x := written.inputs.sources) fun input hinput =>
        hrooted input (by simp [Inputs.paths, hinput])
      rw [hm, seenFrom, hparent, ← hschema, ← hsources]
      rfl

end Manifest

namespace BuildCall

variable (fs : FileSystem)

/-- The schema that a call sets, or that there is none, where a manifest names none. -/
def schema? : BuildCall → Option (Option String)
  | .manifest path => (Manifest.written? fs path).map (·.inputs.schema.map (Manifest.rooted path))
  | .schema path => some (some path)
  | _ => none

/-- The sources that a call sets, or that there are none, where a manifest names none. -/
def sources? : BuildCall → Option (Option String)
  | .manifest path => (Manifest.written? fs path).map (·.inputs.sources.map (Manifest.rooted path))
  | .sources path => some (some path)
  | _ => none

/-- The settings that a call sets. -/
def settings? : BuildCall → Option Settings
  | .manifest path => (Manifest.written? fs path).map (·.settings)
  | .settings s => some s
  | _ => none

/-- The manifest file that a call sets. -/
def manifest? : BuildCall → Option String
  | .manifest path => some path
  | _ => none

/-- The directory that a call sets. -/
def outDir? : BuildCall → Option String
  | .outDir path => some path
  | _ => none

/-- Whether directives are printed, where a call sets it. -/
def directs? : BuildCall → Option Bool
  | .directs on => some on
  | _ => none

/-- Whether failures are denied, where a call sets it. -/
def deniesFailures? : BuildCall → Option Bool
  | .deniesFailures on => some on
  | _ => none

/-- **Whether a call succeeds** in a session, on a build of which nothing is set. -/
def Succeeds (session : Session) (call : BuildCall) : Prop :=
  ∃ b after, (({} : Build).apply call : Run (StateM Session) Build).result session = (.ok b, after)

/-- **What the last of the calls that concern a part sets it to.** -/
def lastSet? {α : Type} (part : BuildCall → Option α) (calls : List BuildCall) : Option α :=
  (calls.filterMap part).getLast?

/-- A call that concerns a part sets it, whatever was set before. -/
theorem lastSet?_concat {α : Type} (part : BuildCall → Option α) (calls : List BuildCall)
    (call : BuildCall) :
    lastSet? part (calls ++ [call]) = (part call).or (lastSet? part calls) := by
  unfold lastSet?
  rw [List.filterMap_append]
  cases hpart : part call with
  | none => simp [hpart]
  | some a => simp [hpart]

end BuildCall

open BuildCall

namespace Build

/-- **The build that calls set up:** every part is what the last of them that concerns it sets it
to, and its default where none does. -/
def effective (fs : FileSystem) (calls : List BuildCall) : Build where
  inputs := ⟨(lastSet? (schema? fs) calls).getD none, (lastSet? (sources? fs) calls).getD none⟩
  settings := (lastSet? (settings? fs) calls).getD {}
  manifest := lastSet? manifest? calls
  outDir := lastSet? outDir? calls
  directs := (lastSet? directs? calls).getD true
  deniesFailures := (lastSet? deniesFailures? calls).getD false

/-- Setting up a build by a manifest that can be used only reads it. -/
theorem result_setManifest {session : Session} {path : String} {m : Manifest}
    (hm : m.IsAt session.files path) (hvalid : m.validate = .ok ()) (b : Build) :
    (b.setManifest path : Run (StateM Session) Build).result session =
      (.ok { b with inputs := m.inputs, settings := m.settings, manifest := some path },
        session) := by
  obtain ⟨text, written, hread, hwritten, hseen⟩ := hm
  have htext : (Run.readText ("Failed to read manifest: " ++ path) path :
      Run (StateM Session) String).result session = (.ok text, session) := by
    have hlift : (liftM (Workspace.readText path : StateM Session (Except IoFault String)) :
        Run (StateM Session) (Except IoFault String)).result session =
          (.ok (.ok text), session) := by
      rw [result_lift, ← hread]
      rfl
    unfold Run.readText
    rw [result_bind_of_ok hlift]
    rfl
  have hload : (Manifest.load path : Run (StateM Session) Manifest).result session =
      (.ok m, session) := by
    unfold Manifest.load
    rw [result_bind_of_ok htext, Manifest.ofText, hwritten, pure_bind, hseen, Manifest.seenFrom]
    cases parent? path <;> rfl
  unfold setManifest
  rw [result_bind_of_ok hload, hvalid]
  rfl

/-- **One call more.** -/
theorem result_apply {session : Session} {call : BuildCall}
    (hcall : ∀ path, call = .manifest path → Succeeds session (.manifest path))
    (calls : List BuildCall) :
    ((effective session.files calls).apply call : Run (StateM Session) Build).result session =
      (.ok (effective session.files (calls ++ [call])), session) := by
  cases call with
  | manifest path =>
    obtain ⟨b, after, hset⟩ := hcall path rfl
    obtain ⟨⟨m, hm, hvalid, -⟩, -⟩ :=
      (reads_setManifest {} path session b after.files).1 ⟨after, hset, rfl⟩
    obtain ⟨written, hwritten, hparts⟩ := hm.exists_written hvalid
    show (setManifest _ path : Run (StateM Session) Build).result session = _
    rw [result_setManifest hm hvalid, hparts]
    simp [effective, lastSet?_concat, schema?, sources?, settings?, manifest?, outDir?, directs?,
      deniesFailures?, hwritten]
  | _ =>
    simp [apply, effective, lastSet?_concat, schema?, sources?, settings?, manifest?, outDir?,
      directs?, deniesFailures?]

/-- **Setting up a build** by calls. -/
theorem result_setUp {calls : List BuildCall} {session : Session}
    (hcalls : ∀ path, .manifest path ∈ calls → Succeeds session (.manifest path)) :
    (calls.foldlM apply {} : Run (StateM Session) Build).result session =
      (.ok (effective session.files calls), session) := by
  induction calls using List.reverseRecOn with
  | nil => rfl
  | append_singleton calls call ih =>
    have hbefore := ih fun path hpath => hcalls path (List.mem_append_left _ hpath)
    rw [List.foldlM_append, result_bind_of_ok hbefore, List.foldlM_cons]
    have hlast : ((effective session.files calls).apply call :
        Run (StateM Session) Build).result session =
          (.ok (effective session.files (calls ++ [call])), session) :=
      result_apply (fun path hpath => hcalls path (by simp [hpath])) calls
    rw [result_bind_of_ok hlast]
    rfl

/-! ### Carrying out -/

/-- What becomes of what has been generated: it is written into a directory, and failures are denied
if the build does so. -/
def deliver {m : Type → Type} [Monad m] [Workspace m] (b : Build) (directory : String)
    (g : Generation) : Run m Generation := do
  let w ← writeArtifacts directory g.artifacts
  Run.emit ⟨.info, target, some "artifacts written",
    [("written", .int w.written.length), ("unchanged", .int w.unchanged.length),
      ("out_dir", .text directory)]⟩
  if b.deniesFailures && !g.isClean then
    Run.stop [.note (toString g.failures.length ++
      " entities or candidates failed to generate")]
  else pure g

theorem isSilent_deliver (b : Build) (directory : String) (g : Generation) :
    (b.deliver directory g : Run (StateM Session) Generation).IsSilent := by
  unfold deliver
  refine (isSilent_writeArtifacts directory g.artifacts).bind fun w => ?_
  refine (IsSilent.emit _).bind fun _ => ?_
  split_ifs
  · exact .throw _
  · exact .pure g

/-- What the directives of a build print. -/
def told (b : Build) : String :=
  if b.directs then
    String.join ((b.manifest.toList ++ b.inputs.schema.toList ++ b.inputs.sources.toList).map
      fun path => "cargo:rerun-if-changed=" ++ path ++ "\n")
  else ""

/-- **Carrying out a build** prints its directives before anything else is done. -/
theorem result_carryOut {b : Build} {outDirVariable : Option String} {directory : String}
    (hinputs : b.inputs.isEmpty = false) (hdirectory : b.outDir.or outDirVariable = some directory)
    (session : Session) :
    (b.carryOut outDirVariable : Run (StateM Session) Generation).result session =
      (Project.generate b.inputs b.settings >>= b.deliver directory).result
        { session with output := session.output ++ b.told } := by
  have hlines : b.directives.map (· ++ "\n") =
      (b.manifest.toList ++ b.inputs.schema.toList ++ b.inputs.sources.toList).map
        fun path => "cargo:rerun-if-changed=" ++ path ++ "\n" := by
    rw [directives, Inputs.paths, List.map_map, List.append_assoc]
    rfl
  unfold carryOut told
  rw [hinputs, if_neg Bool.false_ne_true, hdirectory]
  cases b.directs with
  | true =>
    rw [if_pos rfl, ← hlines]
    exact result_bind_of_ok (result_forM_printLine b.directives session)
  | false =>
    rw [if_neg Bool.false_ne_true, String.append_empty]
    rfl

/-- **Build calls compose by last write, and directives cover the inputs.**  Where every call with a
manifest succeeds, calls set up the build in which every part is what the last call that concerns it
sets it to.  If there is something to read and a directory is known, carrying it out prints one
directive for each of the last manifest, the schema and the sources that are there, then generates
just these inputs with just these settings, and has printed nothing else however it ends. -/
theorem calls_compose (calls : List BuildCall) (session : Session)
    (hcalls : ∀ path, .manifest path ∈ calls → Succeeds session (.manifest path)) :
    let b := effective session.files calls
    (calls.foldlM apply {} : Run (StateM Session) Build).result session = (.ok b, session) ∧
      ∀ outDirVariable directory, b.inputs.isEmpty = false →
        b.outDir.or outDirVariable = some directory →
        (b.carryOut outDirVariable : Run (StateM Session) Generation).result session =
          (Project.generate b.inputs b.settings >>= b.deliver directory).result
            { session with output := session.output ++ b.told } ∧
        ((b.carryOut outDirVariable : Run (StateM Session) Generation).result session).2.output =
          session.output ++ b.told := by
  intro b
  constructor
  · exact result_setUp hcalls
  · intro outDirVariable directory hinputs hdirectory
    have hresult := result_carryOut hinputs hdirectory session
    have hsilent : (Project.generate b.inputs b.settings >>= b.deliver directory :
        Run (StateM Session) Generation).IsSilent :=
      (Project.isSilent_generate b.settings b.inputs).bind (b.isSilent_deliver directory)
    constructor
    · exact hresult
    · rw [hresult]
      exact hsilent _

/-- A manifest takes the sources away that were set before it, and directives are printed also where
the schema it names is missing. -/
theorem calls_compose_cleared :
    let session : Session :=
      { files := ⟨[(["api"], .directory),
          (["api", "stencil.toml"], .text "[inputs]\nschema = \"api.json\"\n")]⟩ }
    let calls := [.sources "src", .manifest "api/stencil.toml", .outDir "out"]
    let b : Build :=
      { inputs := ⟨some "api/api.json", none⟩, manifest := some "api/stencil.toml",
        outDir := some "out" }
    (calls.foldlM apply {} : Run (StateM Session) Build).result session = (.ok b, session) ∧
      ((b.carryOut none : Run (StateM Session) Generation).result session).2.output =
        "cargo:rerun-if-changed=api/stencil.toml\ncargo:rerun-if-changed=api/api.json\n" := by
  intro session calls b
  have hread : Manifest.read "[inputs]\nschema = \"api.json\"\n" =
      some ⟨⟨some "api.json", none⟩, {}⟩ := by
    have hparts : (Manifest.read "[inputs]\nschema = \"api.json\"\n").map
        (fun m => (m.inputs, m.settings)) = some (⟨some "api.json", none⟩, {}) := by
      decide +kernel
    obtain ⟨⟨inputs, settings⟩, hread, hparts⟩ := Option.map_eq_some_iff.1 hparts
    obtain ⟨rfl, rfl⟩ := Prod.mk.inj hparts
    exact hread
  have hfile : session.files.readText "api/stencil.toml" =
      .ok "[inputs]\nschema = \"api.json\"\n" := rfl
  have hrooted : Manifest.rooted "api/stencil.toml" "api.json" = "api/api.json" := by decide +kernel
  have hcalls : ∀ path, .manifest path ∈ calls → Succeeds session (.manifest path) := by
    intro path hpath
    obtain rfl : path = "api/stencil.toml" := by simpa [calls] using hpath
    have hends : (({} : Build).apply (.manifest "api/stencil.toml") :
        Run (StateM Session) Build).result session |>.1.toBool := by
      decide +kernel
    unfold Succeeds
    generalize (({} : Build).apply (.manifest "api/stencil.toml") :
        Run (StateM Session) Build).result session = outcome at hends ⊢
    obtain ⟨_ | b, after⟩ := outcome
    · cases hends
    · exact ⟨b, after, rfl⟩
  have heffective : effective session.files calls = b := by
    have hwritten : Manifest.written? session.files "api/stencil.toml" =
        some ⟨⟨some "api.json", none⟩, {}⟩ := by
      rw [Manifest.written?, hfile, Except.toOption, Option.bind_some, hread]
    simp [effective, lastSet?, calls, b, schema?, sources?, settings?, manifest?, outDir?, directs?,
      deniesFailures?, hwritten, hrooted, List.filterMap_cons]
  obtain ⟨hset, hcarry⟩ := calls_compose calls session hcalls
  rw [heffective] at hset hcarry
  refine ⟨hset, ?_⟩
  rw [(hcarry none "out" rfl rfl).2]
  decide +kernel

end Build

end Scaffold
