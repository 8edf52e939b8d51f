import Scaffold.Problem

/-!
# Runs in sessions

In a session a run either ends, or stops and leaves the session as it is by then
(`Run.result_bind`).  What a run may stop for is told of its steps (`Run.StopsOnly`).
-/

namespace Scaffold.Run

open Diagnostics

variable {α β : Type}

/-- How a run ends in a session, and the session after it. -/
def result (x : Run (StateM Session) α) (session : Session) : Except Halt α × Session := x session

/-! ### Steps -/

@[simp] theorem result_pure (a : α) (session : Session) :
    (pure a : Run (StateM Session) α).result session = (.ok a, session) := rfl

theorem result_bind (x : Run (StateM Session) α) (f : α → Run (StateM Session) β)
    (session : Session) : (x >>= f).result session =
      match x.result session with
      | (.ok a, after) => (f a).result after
      | (.error halt, after) => (.error halt, after) := by
  have hbind : (x >>= f).result session =
      match x.result session with
      | (a, after) => (ExceptT.bindCont f a : StateM Session (Except Halt β)) after := rfl
  rw [hbind]
  rcases x.result session with ⟨_ | _, _⟩ <;> rfl

/-- A run goes on where its first step ends. -/
theorem result_bind_of_ok {x : Run (StateM Session) α} {f : α → Run (StateM Session) β}
    {session after : Session} {a : α} (h : x.result session = (.ok a, after)) :
    (x >>= f).result session = (f a).result after := by
  rw [result_bind, h]

@[simp] theorem result_emit (e : Event) (session : Session) :
    (emit e : Run (StateM Session) Unit).result session =
      (.ok (), { session with events := session.events ++ [e] }) := rfl

@[simp] theorem result_ofFailure_ok (notes : List String) (a : α) (session : Session) :
    (ofFailure notes (.ok a) : Run (StateM Session) α).result session = (.ok a, session) := rfl

/-- Reporting one event for each element of a list. -/
theorem result_forM_emit (event : α → Event) (as : List α) (session : Session) :
    (as.forM (fun a => emit (event a)) : Run (StateM Session) Unit).result session =
      (.ok (), { session with events := session.events ++ as.map event }) := by
  induction as generalizing session with
  | nil =>
    rw [List.map_nil, List.append_nil]
    rfl
  | cons a as ih =>
    have hcons : ((a :: as).forM fun a => emit (event a) : Run (StateM Session) Unit) =
        emit (event a) >>= fun _ => as.forM fun a => emit (event a) := rfl
    rw [hcons, result_bind_of_ok (result_emit _ _), ih, List.append_assoc]
    rfl

/-! ### What runs stop for -/

/-- Whether a run stops only for what `P` holds of. -/
def StopsOnly (P : Halt → Prop) (x : Run (StateM Session) α) : Prop :=
  ∀ session halt after, x.result session = (.error halt, after) → P halt

namespace StopsOnly

variable {P : Halt → Prop}

/-- What does not stop. -/
theorem of_ends {x : Run (StateM Session) α}
    (h : ∀ session, ∃ a after, x.result session = (.ok a, after)) : x.StopsOnly P := by
  intro session halt after hstop
  obtain ⟨a, after', hend⟩ := h session
  cases hend.symm.trans hstop

theorem pure (a : α) : (Pure.pure a : Run (StateM Session) α).StopsOnly P :=
  of_ends fun session => ⟨a, session, rfl⟩

/-- An operation of the workspace does not stop. -/
theorem lift (x : StateM Session α) : (liftM x : Run (StateM Session) α).StopsOnly P :=
  of_ends fun session => ⟨(x session).1, (x session).2, rfl⟩

theorem emit (e : Event) : (Run.emit e : Run (StateM Session) Unit).StopsOnly P :=
  of_ends fun session => ⟨_, _, result_emit e session⟩

theorem bind {x : Run (StateM Session) α} {f : α → Run (StateM Session) β} (hx : x.StopsOnly P)
    (hf : ∀ a, (f a).StopsOnly P) : (x >>= f).StopsOnly P := by
  intro session halt after hstop
  rw [result_bind] at hstop
  cases hfirst : x.result session with
  | mk outcome between =>
    rw [hfirst] at hstop
    cases outcome with
    | ok a => exact hf a between halt after hstop
    | error halt' =>
      obtain ⟨rfl, rfl⟩ : halt' = halt ∧ between = after := by simpa using hstop
      exact hx session halt' between hfirst

/-- A fold stops for what its steps stop for. -/
theorem foldlM {σ : Type} {f : σ → α → Run (StateM Session) σ} {as : List α}
    (hf : ∀ s, ∀ a ∈ as, (f s a).StopsOnly P) (s : σ) : (as.foldlM f s).StopsOnly P := by
  induction as generalizing s with
  | nil => exact pure s
  | cons a as ih =>
    rw [List.foldlM_cons]
    refine (hf s a List.mem_cons_self).bind fun s' => ?_
    exact ih (fun s b hb => hf s b (List.mem_cons_of_mem _ hb)) s'

/-- A change of files stops for its fault. -/
theorem change {note : String} {act : StateM Session (Option Files.IoFault)}
    (h : ∀ fault, P (.problem ⟨[.note note, .io fault]⟩)) : (Run.change note act).StopsOnly P := by
  refine (lift act).bind fun outcome => ?_
  cases outcome with
  | none => exact pure ()
  | some fault =>
    intro session halt after hstop
    obtain ⟨rfl, -⟩ := Prod.mk.inj hstop |>.imp_left Except.error.inj
    exact h fault

end StopsOnly

end Scaffold.Run
