import Scaffold.Proofs.Build
import Scaffold.Proofs.Diagnostics.Channel
import Scaffold.Watched

/-!
# Runs in watched sessions

Watching changes nothing: a run does in a watched session what it does in the session alone, and
the channel gets the events that happen meanwhile (`Watched.Mirrors`).  Every operation of a
workspace is so, and what is composed of such parts is so as well; hence are the runs of a project.

A channel that keeps records is thereby left with the events that its level asks for, and a run's
records at a level are those at the most detailed one whose level is reached
(`Watched.Mirrors.isFilteredByLevel`).  `Watched.diagnostics_filtered_by_level` puts this together
with what a channel passes on.
-/

namespace Scaffold

open Diagnostics

/-! ### Events that are passed on -/

namespace Diagnostics.Channel

theorem emitEvents_append (c : Channel) (events more : List Event) :
    c.emitEvents (events ++ more) = c.emitEvents events ++ c.emitEvents more := by
  rw [emitEvents, emitEvents, emitEvents, List.map_append, Delivery.join_append]

/-- A channel that keeps records is left with the events that its level asks for. -/
theorem recorded_emitEvents (level : Level) (events : List Event) :
    ((reporting Sink.keep level).emitEvents events).recorded = recordsFrom level events := by
  have hlevel : (reporting Sink.keep level).level = level := Level.ofNumber_number level
  have hone (e : Event) : ((reporting Sink.keep level).observe e).recorded =
      if e.level.reachedFrom level then [e.record] else [] := by
    have hrecord : e.record.level = e.level := rfl
    unfold observe emit sinkFor? isEnabled
    rw [hlevel, hrecord]
    split_ifs <;> rfl
  rw [emitEvents, Delivery.recorded_join, recordsFrom]
  induction events with
  | nil => rfl
  | cons e events ih =>
    rw [List.map_cons, List.flatMap_cons, hone, ih, List.filter_cons]
    split_ifs <;> rfl

end Diagnostics.Channel

/-- What is reported from a level on is among all that is reported. -/
theorem Diagnostics.recordsFrom_eq_filter (level : Level) (events : List Event) :
    recordsFrom level events =
      (recordsFrom .trace events).filter fun r => level.number ≤ r.level.number := by
  rw [recordsFrom, recordsFrom, List.filter_map, List.filter_filter]
  congr 2
  funext e
  have hlevel : e.record.level = e.level := rfl
  have hleast : Level.trace.number ≤ e.level.number := Nat.zero_le _
  rw [Bool.eq_iff_iff]
  simp [Level.reachedFrom_iff, hlevel, hleast, and_comm]

namespace Watched

/-! ### Watching changes nothing -/

variable {α β σ ε : Type}

/-- **Whether `y` is `x` watched:** it does in a watched session what `x` does in the session alone,
and the channel gets the events that happen meanwhile. -/
def Mirrors (x : ExceptT ε (StateM Session) α) (y : ExceptT ε (StateM Watched) α) : Prop :=
  ∀ session, ∃ events, (x.run session).2.events = session.events ++ events ∧
    ∀ channel delivery, y.run ⟨session, channel, delivery⟩ =
      ((x.run session).1, ⟨(x.run session).2, channel, delivery ++ channel.emitEvents events⟩)

namespace Mirrors

variable {x : ExceptT ε (StateM Session) α} {y : ExceptT ε (StateM Watched) α}

/-- What reports nothing. -/
theorem of_quiet
    (hevents : ∀ session, (x.run session).2.events = session.events)
    (hy : ∀ w, y.run w = ((x.run w.session).1, { w with session := (x.run w.session).2 })) :
    Mirrors x y := by
  intro session
  refine ⟨[], ?_, ?_⟩
  · rw [hevents, List.append_nil]
  · intro channel delivery
    have hnone : delivery ++ channel.emitEvents [] = delivery := Delivery.append_empty delivery
    rw [hy, hnone]

theorem pure (a : α) : Mirrors (Pure.pure a : ExceptT ε (StateM Session) α) (Pure.pure a) :=
  of_quiet (fun _ => rfl) fun _ => rfl

theorem throw (e : ε) :
    Mirrors (MonadExcept.throw e : ExceptT ε (StateM Session) α) (MonadExcept.throw e) :=
  of_quiet (fun _ => rfl) fun _ => rfl

/-- An operation of the session that reports nothing. -/
theorem lift {act : StateM Session α} (h : ∀ session, (act session).2.events = session.events) :
    Mirrors (liftM act : ExceptT ε (StateM Session) α) (liftM (Watched.lift act)) :=
  of_quiet h fun _ => rfl

/-- Reporting an event. -/
theorem emit (e : Event) : Mirrors (Run.emit e : Run (StateM Session) Unit) (Run.emit e) := by
  intro session
  refine ⟨[e], rfl, ?_⟩
  intro channel delivery
  have hone : channel.emitEvents [e] = channel.observe e :=
    Delivery.append_empty (channel.observe e)
  rw [hone]
  rfl

/-- The outcome of a run, as a step of another. -/
theorem outcome {δ : Type} (h : Mirrors x y) :
    Mirrors (liftM x.run : ExceptT δ (StateM Session) (Except ε α)) (liftM y.run) := by
  intro session
  obtain ⟨events, hevents, hxy⟩ := h session
  refine ⟨events, hevents, ?_⟩
  intro channel delivery
  have hrun (w : Watched) :
      (liftM y.run : ExceptT δ (StateM Watched) _).run w = (.ok (y.run w).1, (y.run w).2) := rfl
  rw [hrun, hxy]
  rfl

theorem bind {f : α → ExceptT ε (StateM Session) β} {g : α → ExceptT ε (StateM Watched) β}
    (hx : Mirrors x y) (hf : ∀ a, Mirrors (f a) (g a)) : Mirrors (x >>= f) (y >>= g) := by
  intro session
  obtain ⟨events, hevents, hxy⟩ := hx session
  have hbind : (x >>= f).run session = ExceptT.bindCont f (x.run session).1 (x.run session).2 := rfl
  have hbind' (w : Watched) : (y >>= g).run w = ExceptT.bindCont g (y.run w).1 (y.run w).2 := rfl
  cases hfirst : x.run session with
  | mk outcome between =>
    simp only [hfirst] at hevents hxy
    rw [hbind, hfirst]
    cases outcome with
    | error e =>
      refine ⟨events, hevents, ?_⟩
      intro channel delivery
      rw [hbind', hxy]
      rfl
    | ok a =>
      -- the events of the second part come after those of the first
      obtain ⟨more, hmore, hfg⟩ := hf a between
      refine ⟨events ++ more, ?_, ?_⟩
      · rw [← List.append_assoc, ← hevents]
        exact hmore
      · intro channel delivery
        rw [hbind', hxy, Channel.emitEvents_append, ← Delivery.append_assoc]
        exact hfg channel _

theorem foldlM {f : σ → α → ExceptT ε (StateM Session) σ}
    {g : σ → α → ExceptT ε (StateM Watched) σ} (h : ∀ s a, Mirrors (f s a) (g s a)) (as : List α)
    (s : σ) : Mirrors (as.foldlM f s) (as.foldlM g s) := by
  induction as generalizing s with
  | nil => exact pure s
  | cons a as ih =>
    rw [List.foldlM_cons, List.foldlM_cons]
    exact (h s a).bind ih

theorem forM {act : α → ExceptT ε (StateM Session) Unit}
    {act' : α → ExceptT ε (StateM Watched) Unit} (h : ∀ a, Mirrors (act a) (act' a))
    (as : List α) : Mirrors (as.forM act) (as.forM act') := by
  induction as with
  | nil => exact pure ()
  | cons a as ih => exact (h a).bind fun _ => ih

theorem mapM {f : α → ExceptT ε (StateM Session) β} {g : α → ExceptT ε (StateM Watched) β}
    (h : ∀ a, Mirrors (f a) (g a)) (as : List α) : Mirrors (as.mapM f) (as.mapM g) := by
  induction as with
  | nil =>
    rw [List.mapM_nil, List.mapM_nil]
    exact pure []
  | cons a as ih =>
    rw [List.mapM_cons, List.mapM_cons]
    exact (h a).bind fun b => ih.bind fun bs => pure (b :: bs)

/-! ### The steps of a run -/

theorem ofFailure (notes : List String) (e : Except Failure α) :
    Mirrors (Run.ofFailure notes e : Run (StateM Session) α) (Run.ofFailure notes e) := by
  cases e with
  | ok a => exact pure a
  | error f => exact throw _

theorem ofStop (notes : List String) (e : Except Stop α) :
    Mirrors (Run.ofStop notes e : Run (StateM Session) α) (Run.ofStop notes e) := by
  cases e with
  | ok a => exact pure a
  | error stop => cases stop <;> exact throw _

theorem printLine (line : String) :
    Mirrors (Run.printLine line : Run (StateM Session) Unit) (Run.printLine line) :=
  lift fun _ => rfl

theorem readText (note path : String) :
    Mirrors (Run.readText note path : Run (StateM Session) String) (Run.readText note path) := by
  unfold Run.readText
  refine (lift fun _ => rfl).bind fun outcome => ?_
  cases outcome with
  | ok text => exact pure text
  | error fault => exact throw _

/-- A change of files, with a fault or without. -/
theorem change {note : String} {act : StateM Session (Option Files.IoFault)}
    (h : ∀ session, (act session).2.events = session.events) :
    Mirrors (Run.change note act) (Run.change note (Watched.lift act)) := by
  unfold Run.change
  refine (lift h).bind fun outcome => ?_
  cases outcome with
  | none => exact pure ()
  | some fault => exact throw _

theorem readSource (root : String) (way : List String) :
    Mirrors (Source.readSource root way : ExceptT Source.SourceFault (StateM Session) _)
      (Source.readSource root way) := by
  unfold Source.readSource
  refine (lift fun _ => rfl).bind fun outcome => ?_
  cases outcome with
  | ok text => exact pure _
  | error fault => exact throw _

theorem ofDirectory (root : String) :
    Mirrors (Source.SourceTree.ofDirectory root : ExceptT Source.SourceFault (StateM Session) _)
      (Source.SourceTree.ofDirectory root) := by
  unfold Source.SourceTree.ofDirectory
  refine (lift fun _ => rfl).bind fun isDirectory => ?_
  cases isDirectory with
  | false => exact throw _
  | true =>
    refine (lift fun _ => rfl).bind fun ways => ?_
    refine (mapM (readSource root) _).bind fun files => ?_
    cases Source.SourceTree.ofFiles files with
    | ok tree => exact pure tree
    | error origin => exact throw _

theorem readCrate (notes : List String) (root : String) :
    Mirrors (Run.readCrate notes root : Run (StateM Session) Source.SourceTree)
      (Run.readCrate notes root) := by
  unfold Run.readCrate
  refine (ofDirectory root).outcome.bind fun outcome => ?_
  cases outcome with
  | ok tree => exact pure tree
  | error fault => cases fault <;> exact throw _

end Mirrors
end Watched

/-! ### The runs of a project -/

open Watched

namespace Project

theorem Collection.mirrors_add (c : Collection) (generator : String) (g : Generation) :
    Mirrors (c.add generator g : Run (StateM Session) Collection) (c.add generator g) := by
  unfold add
  refine (Mirrors.forM (fun f => .emit _) g.failures).bind fun _ => ?_
  refine Mirrors.foldlM (fun c a => ?_) g.artifacts _
  unfold addArtifact
  refine (Mirrors.emit _).bind fun _ => ?_
  exact (Mirrors.ofFailure _ _).bind fun registry => .pure _

variable (s : Settings)

theorem mirrors_addSchema (c : Collection) (path : String) :
    Mirrors (addSchema s c path : Run (StateM Session) Collection) (addSchema s c path) := by
  unfold addSchema
  refine (Mirrors.readText _ path).bind fun text => ?_
  refine (Mirrors.ofFailure _ _).bind fun entities => ?_
  refine (Mirrors.emit _).bind fun _ => ?_
  exact (Mirrors.ofStop _ _).bind fun g => c.mirrors_add "api" g

theorem mirrors_addSources (c : Collection) (root : String) :
    Mirrors (addSources s c root : Run (StateM Session) Collection) (addSources s c root) := by
  unfold addSources
  refine (Mirrors.readCrate _ root).bind fun tree => ?_
  refine (Mirrors.emit _).bind fun _ => ?_
  refine (Mirrors.ofStop _ _).bind fun mappings => ?_
  refine (c.mirrors_add "mapping" mappings).bind fun c' => ?_
  exact (Mirrors.ofStop _ _).bind fun handlers => c'.mirrors_add "handler" handlers

/-- **Generating is mirrored.** -/
theorem mirrors_generate (inputs : Inputs) :
    Mirrors (generate inputs s : Run (StateM Session) Generation) (generate inputs s) := by
  unfold generate
  refine (Mirrors.ofFailure _ _).bind fun _ => ?_
  refine (Mirrors.foldlM (mirrors_addSchema s) _ _).bind fun c => ?_
  refine (Mirrors.foldlM (mirrors_addSources s) _ _).bind fun c' => ?_
  exact (Mirrors.emit _).bind fun _ => .pure _

end Project

/-- **Writing artifacts is mirrored.** -/
theorem mirrors_writeArtifacts (directory : String) (artifacts : List Artifact) :
    Mirrors (writeArtifacts directory artifacts : Run (StateM Session) Written)
      (writeArtifacts directory artifacts) := by
  have hwrite (path content : String) (session : Session) :
      ((Workspace.writeText path content : StateM Session _) session).2.events =
        session.events := by
    show (session.change (session.files.write path (.text content))).2.events = session.events
    cases session.files.write path (.text content) <;> rfl
  have hone (w : Written) (a : Artifact) (path : String) :
      Mirrors (Written.add.write w a path : Run (StateM Session) Written)
        (Written.add.write w a path) := by
    unfold Written.add.write
    refine (Mirrors.change (hwrite path a.text)).bind fun _ => ?_
    exact (Mirrors.emit _).bind fun _ => .pure _
  unfold writeArtifacts
  refine (Mirrors.change fun session => rfl).bind fun _ => ?_
  refine Mirrors.foldlM (fun w a => ?_) artifacts _
  unfold Written.add
  split_ifs
  · exact .throw _
  · refine (Mirrors.lift fun session => rfl).bind fun outcome => ?_
    cases outcome with
    | error fault => exact hone w a _
    | ok text =>
      dsimp only
      split_ifs
      · exact (Mirrors.emit _).bind fun _ => .pure _
      · exact hone w a _

namespace Build

theorem mirrors_setManifest (b : Build) (path : String) :
    Mirrors (b.setManifest path : Run (StateM Session) Build) (b.setManifest path) := by
  have hload :
      Mirrors (Manifest.load path : Run (StateM Session) Manifest) (Manifest.load path) := by
    unfold Manifest.load Manifest.ofText
    refine (Mirrors.readText _ path).bind fun text => ?_
    cases Manifest.read text with
    | none => exact .throw _
    | some manifest =>
      refine (Mirrors.pure manifest).bind fun manifest => ?_
      cases Files.parent? path <;> exact .pure _
  unfold setManifest
  refine hload.bind fun manifest => ?_
  cases manifest.validate with
  | ok valid => exact .pure _
  | error p => exact .throw _

theorem mirrors_apply (b : Build) (call : BuildCall) :
    Mirrors (b.apply call : Run (StateM Session) Build) (b.apply call) := by
  cases call with
  | manifest path => exact b.mirrors_setManifest path
  | schema path => exact .pure _
  | sources path => exact .pure _
  | settings s => exact .pure _
  | outDir path => exact .pure _
  | directs on => exact .pure _
  | deniesFailures on => exact .pure _

/-- **Carrying out a build is mirrored.** -/
theorem mirrors_carryOut (b : Build) (outDirVariable : Option String) :
    Mirrors (b.carryOut outDirVariable : Run (StateM Session) Generation)
      (b.carryOut outDirVariable) := by
  have hdeliver (directory : String) (g : Generation) :
      Mirrors (b.deliver directory g : Run (StateM Session) Generation)
        (b.deliver directory g) := by
    unfold deliver
    refine (mirrors_writeArtifacts directory g.artifacts).bind fun w => ?_
    refine (Mirrors.emit _).bind fun _ => ?_
    split_ifs
    · exact .throw _
    · exact .pure g
  have hgenerate (directory : String) :=
    (Project.mirrors_generate b.settings b.inputs).bind (hdeliver directory)
  unfold carryOut
  cases b.inputs.isEmpty with
  | true => exact .throw _
  | false =>
    cases b.outDir.or outDirVariable with
    | none => exact .throw _
    | some directory =>
      cases b.directs with
      | true => exact (Mirrors.forM .printLine b.directives).bind fun _ => hgenerate directory
      | false => exact hgenerate directory

end Build

/-! ### What is recorded of a run -/

namespace Watched

variable {α : Type}

/-- How a run ends in a session whose events are recorded from a level on, and what is left then. -/
def resultAt (level : Level) (act : Run (StateM Watched) α) (session : Session) :
    Except Halt α × Watched :=
  act.run ⟨session, .reporting .keep level, {}⟩

/-- **Whether a run's records are filtered by level, and nothing else:** those at a level are those
at the most detailed level whose level is reached, and at that level all events are recorded.  How
the run ends, and what it does in the session, is the same at every level. -/
structure IsFilteredByLevel (act : Run (StateM Watched) α) : Prop where
  recorded (level : Level) (session : Session) :
    (resultAt level act session).2.delivery.recorded =
      (resultAt .trace act session).2.delivery.recorded.filter fun r =>
        level.number ≤ r.level.number
  all_recorded (session : Session) : ∃ events,
    (resultAt .trace act session).2.session.events = session.events ++ events ∧
      (resultAt .trace act session).2.delivery.recorded = recordsFrom .trace events
  outcome (level : Level) (session : Session) :
    (resultAt level act session).1 = (resultAt .trace act session).1
  session (level : Level) (session : Session) :
    (resultAt level act session).2.session = (resultAt .trace act session).2.session

/-- What is mirrored is filtered by level. -/
theorem Mirrors.isFilteredByLevel {x : Run (StateM Session) α} {y : Run (StateM Watched) α}
    (h : Mirrors x y) : IsFilteredByLevel y := by
  have hresult (session : Session) : ∃ events,
      (x.run session).2.events = session.events ++ events ∧ ∀ level,
        (resultAt level y session).1 = (x.run session).1 ∧
          (resultAt level y session).2.session = (x.run session).2 ∧
            (resultAt level y session).2.delivery.recorded = recordsFrom level events := by
    obtain ⟨events, hevents, hxy⟩ := h session
    refine ⟨events, hevents, ?_⟩
    intro level
    rw [resultAt, hxy, Delivery.empty_append]
    exact ⟨rfl, rfl, Channel.recorded_emitEvents level events⟩
  constructor
  · intro level session
    obtain ⟨events, -, hevery⟩ := hresult session
    rw [(hevery level).2.2, (hevery .trace).2.2]
    exact recordsFrom_eq_filter level events
  · intro session
    obtain ⟨events, hevents, hevery⟩ := hresult session
    obtain ⟨-, hsession, hrecorded⟩ := hevery .trace
    exact ⟨events, hsession ▸ hevents, hrecorded⟩
  · intro level session
    obtain ⟨events, -, hevery⟩ := hresult session
    rw [(hevery level).1, (hevery .trace).1]
  · intro level session
    obtain ⟨events, -, hevery⟩ := hresult session
    rw [(hevery level).2.1, (hevery .trace).2.1]

/-- **Diagnostics are filtered by level, and by nothing else.**  Whatever calls are made on a new
channel, a sink gets the records that were emitted while it was installed and whose level was
reached then.  What the sink for builds prints is one line for each warning and each error that it
gets; the lines of the message stand on it with blanks between them, and none of it is a line feed.
What is recorded of a run of a project at a level is what is recorded of it at the most detailed
level, as far as the level is reached. -/
theorem diagnostics_filtered_by_level :
    (∀ (σ : Type) [DecidableEq σ] (calls : List (ChannelCall σ)) (s : σ),
      receivedBy s (({} : Channel σ).handOverAll calls) = passed s calls) ∧
    (∀ calls : List ChannelCall, (({} : Channel).performAll calls).recorded = passed .keep calls) ∧
    (∀ calls : List ChannelCall,
      Text.splitAtChar '\n' (({} : Channel).performAll calls).stdout.toList =
        ((passed .build calls).filter Record.isShown).map
          (fun r => (warningLine r.level r.message).toList) ++ [[]]) ∧
    (∀ level message, ∃ lines, LinesOf message.toList lines ∧
      warningLine level message =
        warningStart level ++ " ".intercalate (lines.map String.ofList) ∧
      '\n' ∉ (warningLine level message).toList) ∧
    (∀ inputs s, IsFilteredByLevel (Project.generate inputs s)) ∧
    (∀ directory artifacts, IsFilteredByLevel (writeArtifacts directory artifacts)) ∧
    ∀ (calls : List BuildCall) (outDirVariable : Option String),
      IsFilteredByLevel (calls.foldlM Build.apply {} >>= fun b => b.carryOut outDirVariable) := by
  refine ⟨fun σ _ calls s => receivedBy_handOverAll s calls, recorded_performAll,
    lines_stdout_performAll, warningLine_eq, ?_, ?_, ?_⟩
  · intro inputs s
    exact (Project.mirrors_generate s inputs).isFilteredByLevel
  · intro directory artifacts
    exact (mirrors_writeArtifacts directory artifacts).isFilteredByLevel
  · intro calls outDirVariable
    have hsetUp := Mirrors.foldlM Build.mirrors_apply calls {}
    exact (hsetUp.bind fun b => b.mirrors_carryOut outDirVariable).isFilteredByLevel

end Watched

end Scaffold
