import Scaffold.Proofs.Command.Arguments
import Scaffold.Proofs.Project

/-!
# What commands do to files

Each command that generates reads its settings and inputs where they are and then writes artifacts;
`execute` ends well exactly where its command does (`execute_done_iff`).
-/

namespace Scaffold

open Files FileSystem Run

/-- The generator of a command that works on sources. -/
def SourceGenerator.make : SourceGenerator → Settings → Host → Corpus → Except Stop Generation
  | .mappings => Generation.mappings
  | .handlers => Generation.handlers

namespace Command

/-- **Whether settings are those of the manifest in a file.** -/
def SettingsAt (fs : FileSystem) (path : String) (s : Settings) : Prop :=
  ∃ m : Manifest, m.IsAt fs path ∧ m.settings.validate = .ok () ∧ s = m.settings

theorem reads_loadSettings (path : String) :
    (loadSettings (some path) : Run (StateM Session) Settings).Reads fun fs s =>
      SettingsAt fs path s := by
  unfold loadSettings
  refine ((Manifest.reads_load path).bind fun m =>
    (reads_ofFailure _ m.settings.validate).bind fun _ => reads_pure m.settings).congr
      fun fs s => ?_
  constructor
  · rintro ⟨m, hm, ⟨⟩, hvalid, hs⟩
    exact ⟨m, hm, hvalid, hs⟩
  · rintro ⟨m, hm, hvalid, hs⟩
    exact ⟨m, hm, (), hvalid, hs⟩

theorem does_finish (g : Generation) (output : String) :
    (finish g output : Run (StateM Session) Unit).Does fun fs _ made =>
      Writes fs output g.artifacts made := by
  unfold finish
  have hreport (w : Written) : (do
      w.written.forM fun path => Run.printLine ("✓ Wrote " ++ path)
      w.unchanged.forM fun path => Run.printLine ("  Unchanged " ++ path)
      Run.printLine ("\n✓ " ++ toString g.failures.length ++ " skipped") :
      Run (StateM Session) Unit).IsQuiet :=
    (isQuiet_forM (fun path => isQuiet_printLine _) w.written).then_quiet
      ((isQuiet_forM (fun path => isQuiet_printLine _) w.unchanged).then_quiet
        (isQuiet_printLine _))
  exact (isQuiet_forM (fun f => isQuiet_printLine _) g.failures).then_does
    ((leaves_writeArtifacts output g.artifacts).then_quiet hreport)

variable (schema root output manifest : String)

theorem does_runApi :
    (runApi schema output (some manifest) : Run (StateM Session) Unit).Does fun fs _ made =>
      ∃ s g, SettingsAt fs manifest s ∧ Generation.IsApi g fs s schema ∧
        Writes fs output g.artifacts made := by
  unfold runApi
  have hrest (s : Settings) (entities : List Entity) : (do
      Run.emit ⟨.debug, target, some "loaded schema", [("entities", .int entities.length)]⟩
      finish (← Run.ofStop [] (Generation.api s entities)) output :
      Run (StateM Session) Unit).Does fun fs _ made =>
        ∃ g, Generation.api s entities = .ok g ∧ Writes fs output g.artifacts made :=
    (isQuiet_emit _).then_does ((reads_ofStop _ _).then_does fun g => does_finish g output)
  refine ((reads_loadSettings manifest).then_does fun s =>
    (isQuiet_printLine _).then_does ((reads_readText _ schema).then_does fun text =>
      (reads_ofFailure _ (Schema.read text)).then_does (hrest s))).congr fun fs _ made => ?_
  constructor
  · rintro ⟨s, hs, text, hread, entities, hentities, g, hg, hwrites⟩
    exact ⟨s, g, hs, ⟨text, entities, hread, hentities, hg⟩, hwrites⟩
  · rintro ⟨s, g, hs, ⟨text, entities, hread, hentities, hg⟩, hwrites⟩
    exact ⟨s, hs, text, hread, entities, hentities, g, hg, hwrites⟩

theorem does_runSources (kind : SourceGenerator) :
    (runSources kind root output (some manifest) : Run (StateM Session) Unit).Does
      fun fs _ made => ∃ s g, SettingsAt fs manifest s ∧
        Generation.IsOfSources kind.make g fs s root ∧ Writes fs output g.artifacts made := by
  unfold runSources
  have hrest (s : Settings) (tree : Source.SourceTree) : (do
      Run.emit ⟨.debug, target, some "loaded sources",
        [("files", .int tree.corpus.units.length)]⟩
      let g := match kind with
        | .mappings => Generation.mappings s tree.host tree.corpus
        | .handlers => Generation.handlers s tree.host tree.corpus
      finish (← Run.ofStop [] g) output : Run (StateM Session) Unit).Does fun fs _ made =>
        ∃ g, kind.make s tree.host tree.corpus = .ok g ∧ Writes fs output g.artifacts made := by
    cases kind <;>
      exact (isQuiet_emit _).then_does ((reads_ofStop _ _).then_does fun g => does_finish g output)
  refine ((reads_loadSettings manifest).then_does fun s =>
    (isQuiet_printLine _).then_does ((reads_readCrate _ root).then_does (hrest s))).congr
      fun fs _ made => ?_
  constructor
  · rintro ⟨s, hs, tree, htree, g, hg, hwrites⟩
    exact ⟨s, g, hs, ⟨tree, htree, hg⟩, hwrites⟩
  · rintro ⟨s, g, hs, ⟨tree, htree, hg⟩, hwrites⟩
    exact ⟨s, hs, tree, htree, g, hg, hwrites⟩

theorem does_runGenerate :
    (runGenerate output (some manifest) false : Run (StateM Session) Unit).Does fun fs _ made =>
      ∃ (m : Manifest) (g : Generation), m.IsAt fs manifest ∧ m.validate = .ok () ∧
        Project.Makes m.inputs m.settings fs g ∧ Writes fs output g.artifacts made := by
  unfold runGenerate
  have hreport (g : Generation) : (do
      g.failures.forM fun f => Run.printLine (failureLine f)
      Run.printLine ("\n✓ " ++ toString g.artifacts.length ++ " artifacts in " ++ output ++ ", " ++
        toString g.failures.length ++ " skipped") : Run (StateM Session) Unit).IsQuiet :=
    (isQuiet_forM (fun f => isQuiet_printLine _) g.failures).then_quiet (isQuiet_printLine _)
  have hbuild (b : Build) : (do
      let b := { b with outDir := some output, directs := false, deniesFailures := false }
      let g ← b.carryOut none
      g.failures.forM fun f => Run.printLine (failureLine f)
      Run.printLine ("\n✓ " ++ toString g.artifacts.length ++ " artifacts in " ++ output ++ ", " ++
        toString g.failures.length ++ " skipped") : Run (StateM Session) Unit).Does
        fun fs _ made => ∃ g, b.inputs.isEmpty = false ∧ Project.Makes b.inputs b.settings fs g ∧
          Writes fs output g.artifacts made ∧ (false = true → g.isClean = true) :=
    (Build.does_carryOut rfl rfl).leaves.then_quiet hreport
  refine (isQuiet_printLine _).then_does (((Build.reads_setManifest {} manifest).then_does
    hbuild).congr fun fs _ made => ?_)
  constructor
  · rintro ⟨_, ⟨m, hm, hvalid, rfl⟩, g, -, hmakes, hwrites, -⟩
    exact ⟨m, g, hm, hvalid, hmakes, hwrites⟩
  · rintro ⟨m, g, hm, hvalid, hmakes, hwrites⟩
    exact ⟨_, ⟨m, hm, hvalid, rfl⟩, g, (Manifest.validate_eq_ok.1 hvalid).1, hmakes, hwrites, nofun⟩

/-- What is left of a command that has been carried out. -/
def Outcome.ofResult : Except Halt Unit → Outcome
  | .ok _ => .done
  | .error halt => .stopped halt

theorem execute_of_arguments {arguments : List String} {c : Command} {verbosity : Nat}
    (harguments : ofArguments arguments = .ok (c, verbosity)) (session : Session) :
    (execute arguments : StateM Session Outcome).run session =
      ((c.run : Run (StateM Session) Unit).result session).map Outcome.ofResult id := by
  unfold execute
  rw [harguments]
  dsimp only
  rw [StateT.run_bind]
  have hrun : StateT.run (c.run : Run (StateM Session) Unit).run session =
      (c.run : Run (StateM Session) Unit).result session := rfl
  rw [hrun]
  rcases (c.run : Run (StateM Session) Unit).result session with ⟨_ | _, _⟩ <;> rfl

/-- **A command ends well** exactly where it carries out what its arguments ask for. -/
theorem execute_done_iff {arguments : List String} {c : Command} {verbosity : Nat}
    (harguments : ofArguments arguments = .ok (c, verbosity))
    {P : FileSystem → Unit → FileSystem → Prop} (hdoes : (c.run : Run (StateM Session) Unit).Does P)
    (session : Session) (made : FileSystem) :
    (∃ after, (execute arguments : StateM Session Outcome).run session = (.done, after) ∧
      after.files = made) ↔ P session.files () made := by
  rw [← hdoes session () made, execute_of_arguments harguments]
  refine exists_congr fun after => and_congr_left' ?_
  rcases (c.run : Run (StateM Session) Unit).result session with ⟨halt | u, between⟩
  · exact iff_of_false (fun h => nomatch (Prod.mk.inj h).1) (fun h => nomatch (Prod.mk.inj h).1)
  · constructor
    · exact fun h => congrArg (Prod.mk (Except.ok ())) (Prod.mk.inj h).2
    · exact fun h => congrArg (Prod.mk Outcome.done) (Prod.mk.inj h).2

end Command

end Scaffold
