import Scaffold.Diagnostics.Sink
import Scaffold.Workspace

/-!
# Watched sessions

A session that is watched passes every event on to a channel as soon as it happens.  All other
operations are those of the session alone.
-/

namespace Scaffold

open Diagnostics

/-- **A session whose events go to a channel.** -/
structure Watched where
  session : Session
  channel : Channel
  /-- What the channel has caused so far. -/
  delivery : Delivery := {}
  deriving Inhabited

namespace Watched

/-- Carries out an operation of the session, which the channel does not see. -/
def lift {α : Type} (act : StateM Session α) : StateM Watched α := fun w =>
  ((act w.session).1, { w with session := (act w.session).2 })

instance : Workspace (StateM Watched) where
  isDirectory path := lift (Workspace.isDirectory path)
  readText path := lift (Workspace.readText path)
  filesBelow path := lift (Workspace.filesBelow path)
  makeDirectories path := lift (Workspace.makeDirectories path)
  writeText path content := lift (Workspace.writeText path content)
  print text := lift (Workspace.print text)
  emit e := do
    lift (Workspace.emit e)
    modify fun w => { w with delivery := w.delivery ++ w.channel.observe e }

end Watched

end Scaffold
