import Scaffold.Build
import Scaffold.Command.Arguments

/-!
# The command line

The commands generate from one kind of input, or everything that a manifest names, or check a
manifest.  `Command.ofArguments` tells which command arguments give, and `execute` carries it out.
-/

namespace Scaffold

open Diagnostics

/-- Which generator works on sources. -/
inductive SourceGenerator where
  | mappings
  | handlers
  deriving DecidableEq, Inhabited, Repr

/-- A command. -/
inductive Command where
  | api (schema output : String) (manifest : Option String)
  | sources (kind : SourceGenerator) (root output : String) (manifest : Option String)
  | generate (output : String) (manifest : Option String) (deniesFailures : Bool)
  | check (manifest : Option String)
  deriving DecidableEq, Inhabited, Repr

namespace Command

/-! ### Arguments -/

/-- The options that may stand anywhere. -/
def commonForms : List OptionForm :=
  [⟨"verbose", some 'v', .count⟩, ⟨"help", some 'h', .help⟩]

/-- The options before the name of the command. -/
def topForms : List OptionForm := commonForms ++ [⟨"version", some 'V', .version⟩]

def schemaForm : OptionForm := ⟨"schema", some 's', .value⟩
def sourceForm : OptionForm := ⟨"source", some 's', .value⟩
def outputForm : OptionForm := ⟨"output", some 'o', .value⟩
def manifestForm : OptionForm := ⟨"manifest", some 'm', .value⟩
def denyForm : OptionForm := ⟨"deny-failures", none, .flag⟩

/-- The command with a name: its options, and what it is once they are given. -/
def named? (name : String) : Option (List OptionForm × (Given → Option Command)) :=
  match name with
  | "api" => some ([schemaForm, outputForm, manifestForm], fun g => do
      pure (.api (← g.value? "schema") (← g.value? "output") (g.value? "manifest")))
  | "mappings" => some ([sourceForm, outputForm, manifestForm], fun g => do
      pure (.sources .mappings (← g.value? "source") (← g.value? "output") (g.value? "manifest")))
  | "handlers" => some ([sourceForm, outputForm, manifestForm], fun g => do
      pure (.sources .handlers (← g.value? "source") (← g.value? "output") (g.value? "manifest")))
  | "generate" => some ([outputForm, manifestForm, denyForm], fun g => do
      pure (.generate (← g.value? "output") (g.value? "manifest") (g.has "deny-failures")))
  | "check" => some ([manifestForm], fun g => pure (.check (g.value? "manifest")))
  | _ => none

/-- What a request for help about commands ends in. -/
def helpEnding : List String → Ending
  | [] => .help
  | [name] => if name = "help" ∨ (named? name).isSome then .help else .misuse
  | _ => .misuse

/-- **The command that arguments give,** and how much it is to report. -/
def ofArguments (arguments : List String) : Except Ending (Command × Nat) := do
  let (top, rest) ← readOptions topForms {} arguments
  match rest with
  | [] => .error .misuse
  | name :: rest =>
    match named? name with
    | none => .error (if name = "help" then helpEnding rest else .misuse)
    | some (forms, command) => do
      let (given, rest) ← readOptions (commonForms ++ forms) {} rest
      match rest, command given with
      | [], some c => .ok (c, top.verbosity + given.verbosity)
      | _, _ => .error .misuse

/-! ### Execution -/

variable {m : Type → Type} [Monad m] [Workspace m]

/-- The part of the program that reports what a command does. -/
def target : String := "stencil::generate"

/-- The settings in a manifest, if there is one; its inputs do not matter. -/
def loadSettings : (manifest : Option String) → Run m Settings
  | none => pure {}
  | some path => do
    let manifest ← Manifest.load path
    Run.ofFailure ["Invalid [generator] section in " ++ path] manifest.settings.validate
    pure manifest.settings

/-- The line for an entity or candidate that was left out. -/
def failureLine (f : Failure) : String := "⚠ [" ++ toString f.code ++ "] " ++ f.message

/-- Writes what has been generated, and tells what has become of it. -/
def finish (g : Generation) (output : String) : Run m Unit := do
  g.failures.forM fun f => Run.printLine (failureLine f)
  let w ← writeArtifacts output g.artifacts
  w.written.forM fun path => Run.printLine ("✓ Wrote " ++ path)
  w.unchanged.forM fun path => Run.printLine ("  Unchanged " ++ path)
  Run.printLine ("\n✓ " ++ toString g.failures.length ++ " skipped")

/-- Generates from a schema. -/
def runApi (schema output : String) (manifest : Option String) : Run m Unit := do
  let s ← loadSettings manifest
  Run.printLine ("Generating API from: " ++ schema)
  let text ← Run.readText ("Failed to read schema: " ++ schema) schema
  let entities ← Run.ofFailure ["Failed to parse schema: " ++ schema] (Schema.read text)
  Run.emit ⟨.debug, target, some "loaded schema", [("entities", .int entities.length)]⟩
  finish (← Run.ofStop [] (Generation.api s entities)) output

/-- Generates from sources. -/
def runSources (kind : SourceGenerator) (root output : String) (manifest : Option String) :
    Run m Unit := do
  let s ← loadSettings manifest
  Run.printLine ("Scanning sources: " ++ root)
  let tree ← Run.readCrate [] root
  Run.emit ⟨.debug, target, some "loaded sources", [("files", .int tree.corpus.units.length)]⟩
  let g := match kind with
    | .mappings => Generation.mappings s tree.host tree.corpus
    | .handlers => Generation.handlers s tree.host tree.corpus
  finish (← Run.ofStop [] g) output

/-- The manifest that is meant if none is given. -/
def defaultManifest : String := "stencil.toml"

/-- Generates everything that a manifest names. -/
def runGenerate (output : String) (manifest : Option String) (deniesFailures : Bool) :
    Run m Unit := do
  let path := manifest.getD defaultManifest
  Run.printLine ("Generating from manifest: " ++ path)
  let b ← Build.setManifest {} path
  let b := { b with outDir := some output, directs := false, deniesFailures := deniesFailures }
  let g ← b.carryOut none
  g.failures.forM fun f => Run.printLine (failureLine f)
  Run.printLine ("\n✓ " ++ toString g.artifacts.length ++ " artifacts in " ++ output ++ ", " ++
    toString g.failures.length ++ " skipped")

/-- The name of a policy in a report. -/
def policyName : InvalidEntityPolicy → String
  | .abort => "Abort"
  | .skip => "Skip"

/-- What a manifest configures. -/
def describe (manifest : Manifest) : List String :=
  let s := manifest.settings
  (manifest.inputs.schema.map ("✓ Schema: " ++ ·)).toList ++
    (manifest.inputs.sources.map ("✓ Sources: " ++ ·)).toList ++
    ["✓ Runtime: " ++ s.runtimePath,
      "✓ Invalid entities: " ++ policyName s.api.onInvalidEntity,
      "✓ Registration: " ++ "|".intercalate s.mapping.receivers ++ "::" ++ s.mapping.method,
      "✓ Handler markers: " ++ ", ".intercalate s.handler.markers]

/-- Checks a manifest. -/
def runCheck (manifest : Option String) : Run m Unit := do
  let path := manifest.getD defaultManifest
  Run.printLine ("Checking manifest: " ++ path)
  let manifest ← Manifest.load path
  match manifest.validate with
  | .error p => Run.stop p.causes
  | .ok _ =>
    (describe manifest).forM Run.printLine
    Run.printLine "\nManifest is valid!"

/-- **Carries out a command.** -/
def run : Command → Run m Unit
  | .api schema output manifest => runApi schema output manifest
  | .sources kind root output manifest => runSources kind root output manifest
  | .generate output manifest deniesFailures => runGenerate output manifest deniesFailures
  | .check manifest => runCheck manifest

/-! ### Outcomes -/

/-- The version of the program. -/
def versionLine : String := "stencil 0.1.0"

/-- How the program is used. -/
def usage : String := "\n".intercalate
  ["Usage: stencil [-v] COMMAND",
    "",
    "Commands:",
    "  api       -s SCHEMA -o OUTPUT [-m MANIFEST]  generate from a schema",
    "  mappings  -s SOURCE -o OUTPUT [-m MANIFEST]  generate mappings from sources",
    "  handlers  -s SOURCE -o OUTPUT [-m MANIFEST]  generate handlers from sources",
    "  generate  -o OUTPUT [-m MANIFEST] [--deny-failures]  generate what a manifest names",
    "  check     [-m MANIFEST]  check a manifest"]

/-- How the program ends. -/
inductive Outcome where
  | done
  | misused
  | stopped (h : Halt)
  deriving DecidableEq, Inhabited, Repr

/-- The number that the program ends with. -/
def Outcome.exitCode : Outcome → Nat
  | .done => 0
  | .misused => 2
  | .stopped (.problem _) => 1
  | .stopped (.breakdown _) => 101

/-- **Does what arguments ask for.** -/
def execute (arguments : List String) : m Outcome := do
  match ofArguments arguments with
  | .error .misuse => pure .misused
  | .error .help =>
    Workspace.printLine usage
    pure .done
  | .error .version =>
    Workspace.printLine versionLine
    pure .done
  | .ok (command, _) =>
    match ← (command.run : Run m Unit).run with
    | .ok _ => pure .done
    | .error h => pure (.stopped h)

end Command

end Scaffold
