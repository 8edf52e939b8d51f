import Scaffold.Proofs.Session
import Scaffold.Proofs.Source.Directory

/-!
# What runs do to files

What a run prints and reports has no bearing on how it goes on, so its effect is told in terms of
files: `Does P` says that a run ends exactly where `P` relates the files before, its value and the
files after.  A run of several steps does what its steps do one after another (`Does.bind`), and a
step that only reads leaves the files to the next (`Reads.then_does`).
-/

namespace Scaffold.Run

open Files

variable {α β : Type} {x : Run (StateM Session) α} {f : α → Run (StateM Session) β}

/-- **What a run does:** from which files it ends, with which value and which files. -/
def Does (x : Run (StateM Session) α) (P : FileSystem → α → FileSystem → Prop) : Prop :=
  ∀ session a made, (∃ after, x.result session = (.ok a, after) ∧ after.files = made) ↔
    P session.files a made

/-- What a run does that leaves files as they are. -/
def Reads (x : Run (StateM Session) α) (R : FileSystem → α → Prop) : Prop :=
  x.Does fun fs a made => R fs a ∧ made = fs

/-- What a run leaves, whatever its value is. -/
def Leaves (x : Run (StateM Session) α) (P : FileSystem → FileSystem → Prop) : Prop :=
  ∀ session made, (∃ a after, x.result session = (.ok a, after) ∧ after.files = made) ↔
    P session.files made

/-! ### Steps -/

theorem Does.congr {P Q : FileSystem → α → FileSystem → Prop} (h : x.Does P)
    (hcongr : ∀ fs a made, P fs a made ↔ Q fs a made) : x.Does Q :=
  fun session a made => (h session a made).trans (hcongr _ _ _)

theorem Reads.congr {R R' : FileSystem → α → Prop} (h : x.Reads R)
    (hcongr : ∀ fs a, R fs a ↔ R' fs a) : x.Reads R' :=
  Does.congr h fun fs a _ => and_congr_left' (hcongr fs a)

/-- **One step after another.** -/
theorem Does.bind {P : FileSystem → α → FileSystem → Prop}
    {Q : α → FileSystem → β → FileSystem → Prop} (hx : x.Does P) (hf : ∀ a, (f a).Does (Q a)) :
    (x >>= f).Does fun fs b made => ∃ a between, P fs a between ∧ Q a between b made := by
  intro session b made
  constructor
  · rintro ⟨after, h, rfl⟩
    rw [result_bind] at h
    cases hfirst : x.result session with
    | mk outcome between =>
      rw [hfirst] at h
      cases outcome with
      | error halt => cases h
      | ok a =>
        exact ⟨a, between.files, (hx session a _).1 ⟨between, hfirst, rfl⟩,
          (hf a between b _).1 ⟨after, h, rfl⟩⟩
  · rintro ⟨a, between, hp, hq⟩
    obtain ⟨mid, hfirst, rfl⟩ := (hx session a between).2 hp
    obtain ⟨after, h, rfl⟩ := (hf a mid b made).2 hq
    refine ⟨after, ?_, rfl⟩
    rw [result_bind_of_ok hfirst]
    exact h

/-- A step that only reads, and then another. -/
theorem Reads.then_does {R : FileSystem → α → Prop} {Q : α → FileSystem → β → FileSystem → Prop}
    (hx : x.Reads R) (hf : ∀ a, (f a).Does (Q a)) :
    (x >>= f).Does fun fs b made => ∃ a, R fs a ∧ Q a fs b made := by
  refine (Does.bind hx hf).congr fun fs b made => exists_congr fun a => ?_
  constructor
  · rintro ⟨between, ⟨hr, rfl⟩, hq⟩
    exact ⟨hr, hq⟩
  · rintro ⟨hr, hq⟩
    exact ⟨fs, ⟨hr, rfl⟩, hq⟩

theorem Reads.bind {R : FileSystem → α → Prop} {Q : α → FileSystem → β → Prop}
    (hx : x.Reads R) (hf : ∀ a, (f a).Reads (Q a)) :
    (x >>= f).Reads fun fs b => ∃ a, R fs a ∧ Q a fs b := by
  refine (hx.then_does hf).congr fun fs b made => ?_
  constructor
  · rintro ⟨a, hr, hq, rfl⟩
    exact ⟨⟨a, hr, hq⟩, rfl⟩
  · rintro ⟨⟨a, hr, hq⟩, rfl⟩
    exact ⟨a, hr, hq, rfl⟩

/-- A step whose value does not matter, before a run that only reports. -/
theorem Leaves.then_reads {P : FileSystem → FileSystem → Prop} {R : β → Prop} (hx : x.Leaves P)
    (hf : ∀ a, (f a).Reads fun _ b => R b) : (x >>= f).Does fun fs b made => P fs made ∧ R b := by
  intro session b made
  constructor
  · rintro ⟨after, h, rfl⟩
    rw [result_bind] at h
    cases hfirst : x.result session with
    | mk outcome between =>
      rw [hfirst] at h
      cases outcome with
      | error halt => cases h
      | ok a =>
        obtain ⟨hr, hfiles⟩ := (hf a between b _).1 ⟨after, h, rfl⟩
        exact ⟨(hx session _).1 ⟨a, between, hfirst, hfiles.symm⟩, hr⟩
  · rintro ⟨hp, hr⟩
    obtain ⟨a, mid, hfirst, rfl⟩ := (hx session made).2 hp
    obtain ⟨after, h, hfiles⟩ := (hf a mid b _).2 ⟨hr, rfl⟩
    refine ⟨after, ?_, hfiles⟩
    rw [result_bind_of_ok hfirst]
    exact h

theorem Leaves.bind {P Q : FileSystem → FileSystem → Prop} (hx : x.Leaves P)
    (hf : ∀ a, (f a).Leaves Q) :
    (x >>= f).Leaves fun fs made => ∃ between, P fs between ∧ Q between made := by
  intro session made
  constructor
  · rintro ⟨b, after, h, rfl⟩
    rw [result_bind] at h
    cases hfirst : x.result session with
    | mk outcome between =>
      rw [hfirst] at h
      cases outcome with
      | error halt => cases h
      | ok a =>
        exact ⟨between.files, (hx session _).1 ⟨a, between, hfirst, rfl⟩,
          (hf a between _).1 ⟨b, after, h, rfl⟩⟩
  · rintro ⟨between, hp, hq⟩
    obtain ⟨a, mid, hfirst, rfl⟩ := (hx session between).2 hp
    obtain ⟨b, after, h, rfl⟩ := (hf a mid made).2 hq
    refine ⟨b, after, ?_, rfl⟩
    rw [result_bind_of_ok hfirst]
    exact h

theorem Does.leaves {P : FileSystem → α → FileSystem → Prop} (h : x.Does P) :
    x.Leaves fun fs made => ∃ a, P fs a made :=
  fun session made => exists_congr fun a => h session a made

theorem Leaves.congr {P Q : FileSystem → FileSystem → Prop} (h : x.Leaves P)
    (hcongr : ∀ fs made, P fs made ↔ Q fs made) : x.Leaves Q :=
  fun session made => (h session made).trans (hcongr _ _)

/-! ### What the operations do -/

/-- An operation of the workspace ends. -/
theorem result_lift (act : StateM Session α) (session : Session) :
    (liftM act : Run (StateM Session) α).result session =
      (.ok (act session).1, (act session).2) := rfl

/-- What is computed from the files alone. -/
theorem Reads.of_result (value : FileSystem → Except Halt α)
    (h : ∀ session, ∃ after, x.result session = (value session.files, after) ∧
      after.files = session.files) : x.Reads fun fs a => value fs = .ok a := by
  intro session a made
  obtain ⟨after, hresult, hfiles⟩ := h session
  rw [hresult]
  constructor
  · rintro ⟨after', hend, rfl⟩
    obtain ⟨hvalue, rfl⟩ := Prod.mk.inj hend
    exact ⟨hvalue, hfiles⟩
  · rintro ⟨hvalue, rfl⟩
    exact ⟨after, by rw [hvalue], hfiles⟩

theorem reads_pure (a : α) : (pure a : Run (StateM Session) α).Reads fun _ b => b = a := by
  refine (Reads.of_result (fun _ => .ok a) fun session => ⟨session, rfl, rfl⟩).congr ?_
  intro fs b
  rw [Except.ok.injEq, eq_comm]

/-- A run that stops does nothing. -/
theorem reads_throw (halt : Halt) : (throw halt : Run (StateM Session) α).Reads fun _ _ => False := by
  refine (Reads.of_result (fun _ => .error halt) fun session => ⟨session, rfl, rfl⟩).congr ?_
  intro fs b
  exact iff_of_false nofun id

/-- Looking up what depends on the files. -/
theorem reads_lift {act : StateM Session α} (look : FileSystem → α)
    (h : ∀ session, act session = (look session.files, session)) :
    (liftM act : Run (StateM Session) α).Reads fun fs a => a = look fs := by
  refine (Reads.of_result (fun fs => .ok (look fs)) fun session => ⟨session, ?_, rfl⟩).congr ?_
  · rw [result_lift, h session]
  · intro fs a
    rw [Except.ok.injEq, eq_comm]

/-- Whether a run only reports. -/
def IsQuiet (x : Run (StateM Session) Unit) : Prop := x.Reads fun _ _ => True

theorem IsQuiet.of_result {x : Run (StateM Session) Unit}
    (h : ∀ session, ∃ after, x.result session = (.ok (), after) ∧ after.files = session.files) :
    x.IsQuiet :=
  (Reads.of_result (fun _ => .ok ()) h).congr fun _ _ => iff_of_true rfl trivial

theorem isQuiet_emit (e : Diagnostics.Event) : (emit e : Run (StateM Session) Unit).IsQuiet :=
  .of_result fun _ => ⟨_, rfl, rfl⟩

theorem isQuiet_printLine (line : String) :
    (printLine line : Run (StateM Session) Unit).IsQuiet :=
  .of_result fun _ => ⟨_, rfl, rfl⟩

/-- A report, and then another run. -/
theorem IsQuiet.then_does {x : Run (StateM Session) Unit} {f : Unit → Run (StateM Session) β}
    {Q : FileSystem → β → FileSystem → Prop} (hx : x.IsQuiet) (hf : (f ()).Does Q) :
    (x >>= f).Does Q := by
  refine (Reads.then_does hx fun _ => hf).congr fun fs b made => ?_
  constructor
  · rintro ⟨-, -, hq⟩
    exact hq
  · intro hq
    exact ⟨(), trivial, hq⟩

theorem IsQuiet.then_reads {x : Run (StateM Session) Unit} {f : Unit → Run (StateM Session) β}
    {R : FileSystem → β → Prop} (hx : x.IsQuiet) (hf : (f ()).Reads R) : (x >>= f).Reads R :=
  IsQuiet.then_does (Q := fun fs b made => R fs b ∧ made = fs) hx hf

theorem IsQuiet.then_quiet {x : Run (StateM Session) Unit} {f : Unit → Run (StateM Session) Unit}
    (hx : x.IsQuiet) (hf : (f ()).IsQuiet) : (x >>= f).IsQuiet :=
  hx.then_reads hf

/-- A report at the end, whatever the value before it is. -/
theorem Leaves.then_quiet {f : α → Run (StateM Session) Unit} {P : FileSystem → FileSystem → Prop}
    (hx : x.Leaves P) (hf : ∀ a, (f a).IsQuiet) :
    (x >>= f).Does fun fs _ made => P fs made :=
  (hx.then_reads (R := fun _ => True) hf).congr fun _ _ _ => and_iff_left trivial

/-- A value that is reported. -/
theorem reads_emit_pure (e : Diagnostics.Event) (a : α) :
    (emit e >>= fun _ => pure a : Run (StateM Session) α).Reads fun _ b => b = a :=
  (isQuiet_emit e).then_reads (reads_pure a)

theorem isQuiet_forM {act : α → Run (StateM Session) Unit} (h : ∀ a, (act a).IsQuiet)
    (as : List α) : IsQuiet (as.forM act) := by
  induction as with
  | nil => exact .of_result fun session => ⟨session, rfl, rfl⟩
  | cons a as ih => exact (h a).then_quiet ih

/-- What is read and may be missing: the run stops there. -/
theorem Reads.then_ok {e : Type} {x : Run (StateM Session) (Except e α)}
    {f : Except e α → Run (StateM Session) α} {look : FileSystem → Except e α}
    (hx : x.Reads fun fs outcome => outcome = look fs) (hok : ∀ a, f (.ok a) = pure a)
    (herror : ∀ error, ∃ halt, f (.error error) = throw halt) :
    (x >>= f).Reads fun fs a => look fs = .ok a := by
  have hf : ∀ outcome, (f outcome).Reads fun _ a => outcome = .ok a := by
    rintro (error | a)
    · obtain ⟨halt, hhalt⟩ := herror error
      rw [hhalt]
      exact (reads_throw halt).congr fun _ _ => iff_of_false id nofun
    · rw [hok]
      exact (reads_pure a).congr fun _ _ => by rw [Except.ok.injEq, eq_comm]
  exact (hx.bind hf).congr fun fs a => exists_eq_left

theorem reads_readText (note path : String) :
    (readText note path : Run (StateM Session) String).Reads fun fs text =>
      fs.readText path = .ok text :=
  (reads_lift (·.readText path) fun _ => rfl).then_ok (fun _ => rfl) fun _ => ⟨_, rfl⟩

theorem reads_ofFailure (notes : List String) (e : Except Failure α) :
    (ofFailure notes e : Run (StateM Session) α).Reads fun _ a => e = .ok a := by
  cases e with
  | ok a => exact (reads_pure a).congr fun _ _ => by rw [Except.ok.injEq, eq_comm]
  | error f => exact (reads_throw _).congr fun _ _ => iff_of_false id nofun

theorem reads_ofStop (notes : List String) (e : Except Stop α) :
    (ofStop notes e : Run (StateM Session) α).Reads fun _ a => e = .ok a := by
  cases e with
  | ok a => exact (reads_pure a).congr fun _ _ => by rw [Except.ok.injEq, eq_comm]
  | error stop =>
    cases stop <;> exact (reads_throw _).congr fun _ _ => iff_of_false id nofun

/-- **Reading a crate.** -/
theorem reads_readCrate (notes : List String) (root : String) :
    (readCrate notes root : Run (StateM Session) Source.SourceTree).Reads fun fs tree =>
      Source.treeAt fs root = .ok tree := by
  refine (reads_lift (Source.treeAt · root) (Source.run_ofDirectory root)).then_ok
    (fun _ => rfl) fun fault => ?_
  cases fault <;> exact ⟨_, rfl⟩

/-- A change of files does what its operation does. -/
theorem does_change {note : String} {act : StateM Session (Option IoFault)}
    {P : FileSystem → FileSystem → Prop}
    (h : ∀ session made, (act session).1 = none ∧ (act session).2.files = made ↔
      P session.files made) :
    (change note act : Run (StateM Session) Unit).Does fun fs _ made => P fs made := by
  intro session u made
  refine Iff.trans ?_ (h session made)
  unfold change
  rw [result_bind_of_ok (result_lift act session)]
  cases (act session).1 with
  | none =>
    constructor
    · rintro ⟨after, hend, rfl⟩
      obtain ⟨-, rfl⟩ := Prod.mk.inj hend
      exact ⟨rfl, rfl⟩
    · rintro ⟨-, rfl⟩
      exact ⟨_, rfl, rfl⟩
  | some fault =>
    refine iff_of_false ?_ fun hnone => nomatch hnone.1
    rintro ⟨after, hend, -⟩
    cases hend

theorem does_makeDirectories (note path : String) :
    (change note (Workspace.makeDirectories path) : Run (StateM Session) Unit).Does
      fun fs _ made => fs.makeDirectories path = (none, made) := by
  refine does_change (P := fun fs made => fs.makeDirectories path = (none, made)) ?_
  intro session made
  exact (Prod.ext_iff (x := session.files.makeDirectories path) (y := (none, made))).symm

theorem does_writeText (note path content : String) :
    (change note (Workspace.writeText path content) : Run (StateM Session) Unit).Does
      fun fs _ made => fs.write path (.text content) = .ok made := by
  refine does_change (P := fun fs made => fs.write path (.text content) = .ok made) ?_
  intro session made
  have hwrite : (Workspace.writeText path content : StateM Session _) session =
      session.change (session.files.write path (.text content)) := rfl
  rw [hwrite]
  cases session.files.write path (.text content) <;> simp [Session.change]

end Scaffold.Run
