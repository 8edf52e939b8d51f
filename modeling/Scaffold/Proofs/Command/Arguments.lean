import Scaffold.Command
import Scaffold.Proofs.Stopping
import Mathlib.Data.List.Basic
import Mathlib.Data.List.TakeWhile

/-!
# Options in long form

Options that are given as `--name=value` are read one after another, whatever characters the values
have (`readOptions_long`): the name ends at the first equals sign, and nothing is taken from the
next argument.
-/

namespace Scaffold

/-- The name of the command of a generator that works on sources. -/
def SourceGenerator.name : SourceGenerator → String
  | .mappings => "mappings"
  | .handlers => "handlers"

namespace Command

/-- The argument that gives a value to the option with a long name. -/
def longOption (name value : String) : String := "--" ++ name ++ "=" ++ value

theorem toList_longOption (name value : String) :
    (longOption name value).toList = '-' :: '-' :: (name.toList ++ '=' :: value.toList) := by
  unfold longOption
  rw [String.toList_append, String.toList_append, String.toList_append, List.append_assoc]
  rfl

/-- A long name is cut at its equals sign, and not at one in the value. -/
theorem cutName_append {name : List Char} (h : '=' ∉ name) (value : List Char) :
    cutName (name ++ '=' :: value) = (name, some value) := by
  have hname : ∀ c ∈ name, decide (c ≠ '=') = true := by
    intro c hc
    rw [decide_eq_true_eq]
    rintro rfl
    exact h hc
  unfold cutName
  rw [List.dropWhile_append_of_pos hname, List.takeWhile_append_of_pos hname]
  simp

/-- What reading a word does: it is left, with all that follows. -/
theorem readOptions_word {forms : List OptionForm} {g : Given} {argument : String}
    (hword : isWord argument = true) (hdashes : argument ≠ "--") (rest : List String) :
    readOptions forms g (argument :: rest) = .ok (g, argument :: rest) := by
  rw [readOptions, if_neg hdashes, if_pos hword]

variable {forms : List OptionForm} {g : Given} {o : OptionForm} {value : String}

/-- Whether an option has a value, and can be told by its long name. -/
structure OptionForm.IsLong (o : OptionForm) (forms : List OptionForm) : Prop where
  role : o.role = .value
  name : '=' ∉ o.name.toList
  found : forms.find? (fun form => form.name.toList = o.name.toList) = some o

instance (o : OptionForm) (forms : List OptionForm) : Decidable (o.IsLong forms) :=
  decidable_of_iff
    (o.role = .value ∧ '=' ∉ o.name.toList ∧
      forms.find? (fun form => form.name.toList = o.name.toList) = some o)
    ⟨fun h => ⟨h.1, h.2.1, h.2.2⟩, fun h => ⟨h.role, h.name, h.found⟩⟩

theorem addArgument_longOption (h : o.IsLong forms) (hnew : g.has o.name = false) :
    addArgument forms g (longOption o.name value) =
      .ok ({ g with values := g.values ++ [(o.name, value)] }, none) := by
  have hargument : addArgument forms g (longOption o.name value) =
      g.addName forms (cutName (o.name.toList ++ '=' :: value.toList)).1
        (cutName (o.name.toList ++ '=' :: value.toList)).2 := by
    unfold addArgument
    rw [toList_longOption]
    rfl
  rw [hargument, cutName_append h.name]
  unfold Given.addName
  rw [h.found]
  dsimp only
  rw [if_pos h.role, Given.set, hnew, if_neg Bool.false_ne_true, String.ofList_toList]
  rfl

theorem readOptions_longOption (h : o.IsLong forms) (hnew : g.has o.name = false)
    (rest : List String) :
    readOptions forms g (longOption o.name value :: rest) =
      readOptions forms { g with values := g.values ++ [(o.name, value)] } rest := by
  have hdashes : longOption o.name value ≠ "--" := by
    intro heq
    have hlist := toList_longOption o.name value
    rw [heq] at hlist
    have hnil : [] = o.name.toList ++ '=' :: value.toList := (List.cons.inj (List.cons.inj hlist).2).2
    simp at hnil
  have hword : isWord (longOption o.name value) = false := by
    unfold isWord
    rw [toList_longOption]
    split <;> simp_all
  rw [readOptions, if_neg hdashes, hword, if_neg Bool.false_ne_true,
    addArgument_longOption h hnew]

/-- **Options in long form** are all read, where no name comes twice. -/
theorem readOptions_long {given : List (OptionForm × String)}
    (h : ∀ o ∈ given.map (·.1), o.IsLong forms)
    (hnodup : (g.values.map (·.1) ++ (given.map (·.1)).map (·.name)).Nodup) :
    readOptions forms g (given.map fun p => longOption p.1.name p.2) =
      .ok ({ g with values := g.values ++ given.map fun p => (p.1.name, p.2) }, []) := by
  induction given generalizing g with
  | nil =>
    rw [List.map_nil, List.map_nil, List.append_nil, readOptions]
  | cons p given ih =>
    obtain ⟨hp, hgiven⟩ := List.forall_mem_cons.1 h
    have hnew : g.has p.1.name = false := by
      unfold Given.has Given.value?
      rw [List.map_cons, List.nodup_append] at hnodup
      rw [Option.isSome_eq_false_iff, Option.isNone_iff_eq_none, List.lookup_eq_none_iff]
      intro entry hentry
      have hne := hnodup.2.2 entry.1 (List.mem_map_of_mem hentry) p.1.name List.mem_cons_self
      exact bne_iff_ne.2 hne.symm
    rw [List.map_cons, readOptions_longOption hp hnew, ih hgiven]
    · rw [List.append_assoc, List.map_cons, List.singleton_append]
    · rw [List.map_append, List.append_assoc]
      exact hnodup

/-! ### Commands -/

/-- A command whose options are given in long form. -/
theorem ofArguments_long {name : String} {commandForms : List OptionForm}
    {command : Given → Option Command} {c : Command} (given : List (OptionForm × String))
    (hword : isWord name = true) (hdashes : name ≠ "--")
    (hname : named? name = some (commandForms, command))
    (h : ∀ o ∈ given.map (·.1), o.IsLong (commonForms ++ commandForms))
    (hnodup : ((given.map (·.1)).map (·.name)).Nodup)
    (hcommand : command { values := given.map fun p => (p.1.name, p.2) } = some c) :
    ofArguments (name :: given.map fun p => longOption p.1.name p.2) = .ok (c, 0) := by
  unfold ofArguments
  rw [readOptions_word hword hdashes, ok_bind]
  dsimp only
  rw [hname]
  dsimp only
  have hread := readOptions_long (g := {}) h hnodup
  rw [hread, ok_bind]
  dsimp only [List.nil_append]
  rw [hcommand]

variable (schema root output manifest : String)

theorem ofArguments_api :
    ofArguments ["api", longOption "schema" schema, longOption "output" output,
      longOption "manifest" manifest] = .ok (.api schema output (some manifest), 0) := by
  have hlong : ∀ o ∈ [schemaForm, outputForm, manifestForm],
      o.IsLong (commonForms ++ [schemaForm, outputForm, manifestForm]) := by decide
  have hnodup : ([schemaForm, outputForm, manifestForm].map (·.name)).Nodup := by decide
  exact ofArguments_long [(schemaForm, schema), (outputForm, output), (manifestForm, manifest)]
    (by decide) (by decide) rfl hlong hnodup rfl

theorem ofArguments_sources (kind : SourceGenerator) :
    ofArguments [kind.name, longOption "source" root, longOption "output" output,
      longOption "manifest" manifest] = .ok (.sources kind root output (some manifest), 0) := by
  have hlong : ∀ o ∈ [sourceForm, outputForm, manifestForm],
      o.IsLong (commonForms ++ [sourceForm, outputForm, manifestForm]) := by decide
  have hnodup : ([sourceForm, outputForm, manifestForm].map (·.name)).Nodup := by decide
  cases kind <;>
    exact ofArguments_long [(sourceForm, root), (outputForm, output), (manifestForm, manifest)]
      (by decide) (by decide) rfl hlong hnodup rfl

theorem ofArguments_generate :
    ofArguments ["generate", longOption "output" output, longOption "manifest" manifest] =
      .ok (.generate output (some manifest) false, 0) := by
  have hlong : ∀ o ∈ [outputForm, manifestForm],
      o.IsLong (commonForms ++ [outputForm, manifestForm, denyForm]) := by decide
  have hnodup : ([outputForm, manifestForm].map (·.name)).Nodup := by decide
  exact ofArguments_long [(outputForm, output), (manifestForm, manifest)]
    (by decide) (by decide) rfl hlong hnodup rfl

end Command

end Scaffold
