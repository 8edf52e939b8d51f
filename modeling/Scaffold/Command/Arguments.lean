/-!
# Arguments

The arguments of the command line are read from left to right.  Options have long names after two
dashes and letters after one; a letter's value may follow it at once, and letters without values
may share a dash.  The first thing that settles the matter counts: a request for the version or
for help, or an argument that makes no sense there.
-/

namespace Scaffold.Command

/-- Why reading ends before the last argument. -/
inductive Ending where
  /-- The arguments make no sense. -/
  | misuse
  | help
  | version
  deriving DecidableEq, Inhabited, Repr

/-- What an option does. -/
inductive OptionRole where
  /-- It has a value, and may be given once. -/
  | value
  /-- It may be given once. -/
  | flag
  /-- It counts how often it is given. -/
  | count
  | help
  | version
  deriving DecidableEq, Inhabited, Repr

/-- An option. -/
structure OptionForm where
  name : String
  letter : Option Char
  role : OptionRole := .value
  deriving DecidableEq, Inhabited, Repr

/-- What has been given. -/
structure Given where
  /-- The options with their values; a flag has an empty value. -/
  values : List (String × String) := []
  verbosity : Nat := 0
  deriving DecidableEq, Inhabited, Repr

namespace Given

/-- The value of an option. -/
def value? (g : Given) (name : String) : Option String := g.values.lookup name

/-- Whether an option is given. -/
def has (g : Given) (name : String) : Bool := (g.value? name).isSome

/-- Gives a value to an option, which may not have one yet. -/
def set (g : Given) (o : OptionForm) (value : String) : Except Ending Given :=
  if g.has o.name then .error .misuse
  else .ok { g with values := g.values ++ [(o.name, value)] }

/-- Gives an option that has no value. -/
def note (g : Given) (o : OptionForm) : Except Ending Given :=
  match o.role with
  | .value => .error .misuse
  | .flag => g.set o ""
  | .count => .ok { g with verbosity := g.verbosity + 1 }
  | .help => .error .help
  | .version => .error .version

/-- Gives the options of the letters after a dash.  An option whose value is not among the letters
is returned, to have the next argument as its value. -/
def addLetters (forms : List OptionForm) : Given → List Char →
    Except Ending (Given × Option OptionForm)
  | g, [] => .ok (g, none)
  | g, c :: cs =>
    match forms.find? (·.letter = some c) with
    | none => .error .misuse
    | some o =>
      if o.role = .value then
        match cs with
        | [] => .ok (g, some o)
        | '=' :: value => do .ok (← g.set o (String.ofList value), none)
        | value => do .ok (← g.set o (String.ofList value), none)
      else do addLetters forms (← g.note o) cs

/-- Gives the option with a long name, and the value after its equals sign.  An option whose value
is missing is returned, to have the next argument as its value. -/
def addName (forms : List OptionForm) (g : Given) (name : List Char) (value : Option (List Char)) :
    Except Ending (Given × Option OptionForm) :=
  match forms.find? (·.name.toList = name), value with
  | none, _ => .error .misuse
  | some o, some value =>
    if o.role = .value then do .ok (← g.set o (String.ofList value), none) else .error .misuse
  | some o, none =>
    if o.role = .value then .ok (g, some o) else do .ok (← g.note o, none)

end Given

/-- Whether an argument is no option, and may be a value. -/
def isWord (argument : String) : Bool :=
  match argument.toList with
  | '-' :: _ :: _ => false
  | _ => true

/-- Cuts a long name at its equals sign. -/
def cutName (cs : List Char) : List Char × Option (List Char) :=
  match cs.dropWhile (· ≠ '=') with
  | [] => (cs, none)
  | _ :: value => (cs.takeWhile (· ≠ '='), some value)

/-- The effect of one argument that is an option. -/
def addArgument (forms : List OptionForm) (g : Given) (argument : String) :
    Except Ending (Given × Option OptionForm) :=
  match argument.toList with
  | '-' :: '-' :: cs => g.addName forms (cutName cs).1 (cutName cs).2
  | '-' :: cs => g.addLetters forms cs
  | _ => .error .misuse

/-- **Reads options** up to the first argument that is none.  After two dashes alone no argument
is an option. -/
def readOptions (forms : List OptionForm) : Given → List String →
    Except Ending (Given × List String)
  | g, [] => .ok (g, [])
  | g, argument :: rest =>
    if argument = "--" then if rest.isEmpty then .ok (g, []) else .error .misuse
    else if isWord argument then .ok (g, argument :: rest)
    else
      match addArgument forms g argument with
      | .error e => .error e
      | .ok (g, none) => readOptions forms g rest
      | .ok (g, some o) =>
        match rest with
        | [] => .error .misuse
        | value :: rest =>
          if isWord value then
            match g.set o value with
            | .ok g => readOptions forms g rest
            | .error e => .error e
          else .error .misuse
termination_by _ arguments => arguments.length

end Scaffold.Command
