import Scaffold.Document
import Scaffold.Settings

/-!
# Settings as documents

Settings are written as a table of tables, and each of them may also be given as the list of its
fields in order.  A field that is left out has its default, one that is not known is ignored, and
one of another form makes the whole unreadable.
-/

namespace Scaffold

/-- The policy of a text. -/
def InvalidEntityPolicy.ofText? (text : String) : Option InvalidEntityPolicy :=
  if text = "abort" then some .abort else if text = "skip" then some .skip else none

/-- The text of a policy. -/
def InvalidEntityPolicy.text : InvalidEntityPolicy → String
  | .abort => "abort"
  | .skip => "skip"

/-- The policy that a document is: its text, or a table with the text as its only name, where it
has no value. -/
def InvalidEntityPolicy.ofDocument? (c : Document.Conventions) :
    Document → Option InvalidEntityPolicy
  | .text s => InvalidEntityPolicy.ofText? s
  | .table [(name, value)] => if c.isUnit value then InvalidEntityPolicy.ofText? name else none
  | _ => none

/-- Reads how entities are generated. -/
def ApiSettings.ofDocument? (c : Document.Conventions) (d : Document) : Option ApiSettings :=
  let default : ApiSettings := {}
  if !d.isRecord c 4 then none
  else do
    let derives ← d.readField 0 "derives" Document.texts? default.derives
    let policy ← d.readField 1 "on_invalid_entity" (InvalidEntityPolicy.ofDocument? c)
      default.onInvalidEntity
    let route ← d.readField 2 "route_prefix" Document.text? default.routePrefix
    let types ← d.readField 3 "types" (fun t => t.textTable?.map AliasTable.ofEntries) default.types
    pure ⟨derives, policy, route, types⟩

/-- Reads which calls register a mapping. -/
def MappingSettings.ofDocument? (c : Document.Conventions) (d : Document) : Option MappingSettings :=
  let default : MappingSettings := {}
  if !d.isRecord c 3 then none
  else do
    let method ← d.readField 0 "method" Document.text? default.method
    let receivers ← d.readField 1 "receivers" Document.texts? default.receivers
    let qualifier ← d.readField 2 "qualifier" Document.text? default.qualifier
    pure ⟨method, receivers, qualifier⟩

/-- Reads which declarations are handlers. -/
def HandlerSettings.ofDocument? (c : Document.Conventions) (d : Document) : Option HandlerSettings :=
  let default : HandlerSettings := {}
  if !d.isRecord c 1 then none
  else do pure ⟨← d.readField 0 "markers" Document.texts? default.markers⟩

/-- **Reads settings.** -/
def Settings.ofDocument? (c : Document.Conventions) (d : Document) : Option Settings :=
  let default : Settings := {}
  if !d.isRecord c 4 then none
  else do
    let runtime ← d.readField 0 "runtime_path" Document.text? default.runtimePath
    let api ← d.readField 1 "api" (ApiSettings.ofDocument? c) default.api
    let mapping ← d.readField 2 "mapping" (MappingSettings.ofDocument? c) default.mapping
    let handler ← d.readField 3 "handler" (HandlerSettings.ofDocument? c) default.handler
    pure ⟨runtime, api, mapping, handler⟩

/-- A list of texts as a document. -/
def Document.ofTexts (texts : List String) : Document := .list (texts.map .text)

/-- **Settings written out in full.** -/
def Settings.toDocument (s : Settings) : Document :=
  .table
    [("runtime_path", .text s.runtimePath),
      ("api", .table
        [("derives", .ofTexts s.api.derives),
          ("on_invalid_entity", .text s.api.onInvalidEntity.text),
          ("route_prefix", .text s.api.routePrefix),
          ("types", .table (s.api.types.entries.map fun e => (e.1, .text e.2)))]),
      ("mapping", .table
        [("method", .text s.mapping.method),
          ("receivers", .ofTexts s.mapping.receivers),
          ("qualifier", .text s.mapping.qualifier)]),
      ("handler", .table [("markers", .ofTexts s.handler.markers)])]

end Scaffold
