import Scaffold.Corpus
import Scaffold.Settings

/-!
# Finding candidates

A candidate is a node that looks like something to generate code for.  Whether it can be resolved
is not asked here: the patterns are about the shape of a node alone.
-/

namespace Scaffold

/-- A node and the unit it comes from. -/
structure Candidate where
  unit : SourceUnit
  node : CorpusNode
  deriving DecidableEq, Inhabited, Repr

/-- The candidates of a corpus, unit by unit and in the order of the nodes. -/
def Corpus.scan (corpus : Corpus) (accepts : CorpusNode → Bool) : List Candidate :=
  (corpus.units.flatMap fun unit => unit.nodes.map (Candidate.mk unit)).filter (accepts ·.node)

/-- Whether the node declares an extensible type that carries one of the markers. -/
def HandlerSettings.accepts (s : HandlerSettings) : CorpusNode → Bool
  | .declaration d => d.extensible && s.markers.any d.markers.contains
  | .call _ => false

/-- Whether the node calls the registration method with two type arguments on a receiver that
stands alone or behind the qualifier. -/
def MappingSettings.accepts (s : MappingSettings) : CorpusNode → Bool
  | .declaration _ => false
  | .call c =>
    c.method == s.method && c.args.length == 2 &&
      match c.receiver with
      | [name] => s.receivers.contains name
      | [qualifier, name] => qualifier == s.qualifier && s.receivers.contains name
      | _ => false

end Scaffold
