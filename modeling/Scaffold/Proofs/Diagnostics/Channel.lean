import Mathlib.Data.List.Induction
import Scaffold.Diagnostics.Sink
import Scaffold.Proofs.Earlier
import Scaffold.Proofs.Files.Path

/-!
# What a channel passes on

A record is passed on if its level is reached from the level in force, to the sink that is installed
then.  Both are what the last call that concerns them has set (`levelAfter`, `sinkAfter`), so which
records a sink gets is told by the calls alone (`receivedBy_handOverAll`).

The sink for builds writes one line for each warning and each error, whatever line endings are in
the message (`lines_stdout_performAll`): the message is cut into its lines, which `LinesOf` defines,
and none of them has a line feed.
-/

namespace Scaffold.Diagnostics

/-! ### The lines of a message -/

/-- **The lines of a text,** without what ends them: a line feed, or a carriage return and a line
feed.  The last line need not be ended, but has characters then. -/
inductive LinesOf : List Char → List (List Char) → Prop where
  | nil : LinesOf [] []
  | last {line : List Char} : line ≠ [] → '\n' ∉ line → LinesOf line [line]
  | feed {line rest : List Char} {lines : List (List Char)} : '\n' ∉ line →
    line.getLast? ≠ some '\r' → LinesOf rest lines → LinesOf (line ++ '\n' :: rest) (line :: lines)
  | returnFeed {line rest : List Char} {lines : List (List Char)} : '\n' ∉ line →
    LinesOf rest lines → LinesOf (line ++ '\r' :: '\n' :: rest) (line :: lines)

theorem LinesOf.newline_not_mem {cs : List Char} {lines : List (List Char)}
    (h : LinesOf cs lines) : ∀ line ∈ lines, '\n' ∉ line := by
  induction h with
  | nil => simp
  | last _ hline => simpa using hline
  | feed hline _ _ ih => exact List.forall_mem_cons.2 ⟨hline, ih⟩
  | returnFeed hline _ ih => exact List.forall_mem_cons.2 ⟨hline, ih⟩

theorem dropReturn_concat (line : List Char) : dropReturn (line ++ ['\r']) = line := by
  simp [dropReturn]

theorem dropReturn_of_getLast? {line : List Char} (h : line.getLast? ≠ some '\r') :
    dropReturn line = line := by
  unfold dropReturn
  split
  · rename_i rest hreverse
    rw [List.getLast?_eq_head?_reverse, hreverse] at h
    exact absurd rfl h
  · rfl

theorem linesOfPieces_cons (piece : List Char) {pieces : List (List Char)} (h : pieces ≠ []) :
    linesOfPieces (piece :: pieces) = dropReturn piece :: linesOfPieces pieces := by
  cases pieces with
  | nil => exact absurd rfl h
  | cons next pieces => rfl

/-- Cutting at line feeds finds the lines. -/
theorem linesOf_linesOfPieces (cs : List Char) :
    LinesOf cs (linesOfPieces (Text.splitAtChar '\n' cs)) := by
  induction hlength : cs.length using Nat.strongRecOn generalizing cs with
  | _ n ih =>
  by_cases hfeed : '\n' ∈ cs
  · obtain ⟨line, rest, rfl, hline⟩ := List.eq_append_cons_of_mem hfeed
    have hshort : rest.length < n := by
      simp only [List.length_append, List.length_cons] at hlength
      omega
    have hrest := ih rest.length hshort rest rfl
    rw [Text.splitAtChar_append, Text.splitAtChar_of_not_mem hline, List.singleton_append,
      linesOfPieces_cons line (Text.splitAtChar_ne_nil rest)]
    by_cases hreturn : line.getLast? = some '\r'
    · -- the carriage return belongs to the line feed after it
      obtain ⟨before, rfl⟩ := List.getLast?_eq_some_iff.1 hreturn
      have hbefore : '\n' ∉ before := fun hmem => hline (List.mem_append_left _ hmem)
      rw [dropReturn_concat, List.append_assoc]
      exact .returnFeed hbefore hrest
    · rw [dropReturn_of_getLast? hreturn]
      exact .feed hline hreturn hrest
  · rw [Text.splitAtChar_of_not_mem hfeed, linesOfPieces]
    cases cs with
    | nil => exact .nil
    | cons c cs => exact .last (List.cons_ne_nil c cs) hfeed

theorem not_mem_intercalate {c : Char} {sep : String} (hsep : c ∉ sep.toList)
    {parts : List String} (hparts : ∀ part ∈ parts, c ∉ part.toList) :
    c ∉ (sep.intercalate parts).toList := by
  induction parts with
  | nil => simp
  | cons part parts ih =>
    obtain ⟨hpart, hrest⟩ := List.forall_mem_cons.1 hparts
    cases parts with
    | nil => rwa [String.intercalate_singleton]
    | cons next parts =>
      rw [String.intercalate_cons_cons, String.toList_append, String.toList_append]
      simp only [List.mem_append, not_or]
      exact ⟨⟨hpart, hsep⟩, ih hrest⟩

/-- The directive that a message of a level begins with. -/
def warningStart (level : Level) : String :=
  if level = .error then "cargo:warning=error: " else "cargo:warning="

/-- **The directive line of a message** has the lines of the message with blanks between them, and
no line feed. -/
theorem warningLine_eq (level : Level) (message : String) :
    ∃ lines, LinesOf message.toList lines ∧
      warningLine level message =
        warningStart level ++ " ".intercalate (lines.map String.ofList) ∧
      '\n' ∉ (warningLine level message).toList := by
  have hlines := linesOf_linesOfPieces message.toList
  refine ⟨_, hlines, rfl, ?_⟩
  have hstart : '\n' ∉ (warningStart level).toList := by
    unfold warningStart
    split_ifs <;> decide
  have hmessage : '\n' ∉ (flattened message).toList := by
    apply not_mem_intercalate (by decide)
    intro line hline
    obtain ⟨chars, hchars, rfl⟩ := List.mem_map.1 hline
    rw [String.toList_ofList]
    exact hlines.newline_not_mem chars hchars
  show '\n' ∉ (warningStart level ++ flattened message).toList
  rw [String.toList_append, List.mem_append, not_or]
  exact ⟨hstart, hmessage⟩

/-! ### What is in force -/

theorem Level.reachedFrom_iff {level threshold : Level} :
    level.reachedFrom threshold ↔ level ≠ .off ∧ threshold.number ≤ level.number := by
  simp [reachedFrom]

section Calls

variable {σ : Type}

/-- What a call sets the sink to, if it does. -/
def ChannelCall.sink? : ChannelCall σ → Option (Option σ)
  | .setSink sink => some sink
  | _ => none

/-- What a call sets the level to, if it does. -/
def ChannelCall.level? : ChannelCall σ → Option Level
  | .setLevel level => some level
  | _ => none

/-- **The sink that is installed** after calls on a new channel: the last one that was set. -/
def sinkAfter (calls : List (ChannelCall σ)) : Option σ :=
  (calls.filterMap ChannelCall.sink?).getLast?.getD none

/-- **The level in force** after calls on a new channel: the last one that was set. -/
def levelAfter (calls : List (ChannelCall σ)) : Level :=
  (calls.filterMap ChannelCall.level?).getLast?.getD .info

theorem foldl_after (calls : List (ChannelCall σ)) :
    calls.foldl Channel.after {} = ⟨sinkAfter calls, (levelAfter calls).number⟩ := by
  induction calls using List.reverseRecOn with
  | nil => rfl
  | append_singleton calls call ih =>
    rw [List.foldl_append, ih]
    cases call <;>
      simp [Channel.after, sinkAfter, levelAfter, ChannelCall.sink?, ChannelCall.level?,
        List.filterMap_append]

/-! ### What sinks get -/

theorem Channel.handOverAll_append (c : Channel σ) (calls more : List (ChannelCall σ)) :
    c.handOverAll (calls ++ more) =
      c.handOverAll calls ++ (calls.foldl Channel.after c).handOverAll more := by
  induction calls generalizing c with
  | nil => rfl
  | cons call calls ih =>
    rw [List.cons_append, handOverAll, handOverAll, ih, List.append_assoc]
    rfl

variable [DecidableEq σ]

/-- What one of the sinks gets of what is handed over. -/
def receivedBy (s : σ) (handed : List (σ × Record)) : List Record :=
  handed.filterMap fun (t, r) => if t = s then some r else none

/-- **What a sink is meant to get:** the records that were emitted while it was installed, if their
level was reached then. -/
def passed (s : σ) (calls : List (ChannelCall σ)) : List Record :=
  (withEarlier calls).filterMap fun (earlier, call) =>
    match call with
    | .emit r =>
      if sinkAfter earlier = some s ∧ r.level ≠ .off ∧
        (levelAfter earlier).number ≤ r.level.number then some r else none
    | _ => none

/-- **What a sink gets** of the records emitted on a new channel. -/
theorem receivedBy_handOverAll (s : σ) (calls : List (ChannelCall σ)) :
    receivedBy s (({} : Channel σ).handOverAll calls) = passed s calls := by
  induction calls using List.reverseRecOn with
  | nil => rfl
  | append_singleton calls call ih =>
    unfold receivedBy passed at ih ⊢
    rw [Channel.handOverAll_append, foldl_after, List.filterMap_append, ih, withEarlier_concat,
      List.filterMap_append]
    congr 1
    cases call with
    | setSink sink => rfl
    | setLevel level => rfl
    | emit r =>
      have hlast :
          (⟨sinkAfter calls, (levelAfter calls).number⟩ : Channel σ).handOverAll [.emit r] =
            if r.level.reachedFrom (levelAfter calls) then
              (sinkAfter calls).toList.map (·, r)
            else [] := by
        rw [Channel.handOverAll, Channel.handOver, Channel.sinkFor?, Channel.isEnabled,
          Channel.level, Level.ofNumber_number, Channel.handOverAll, List.append_nil]
        split_ifs <;> rfl
      rw [hlast]
      cases hsink : sinkAfter calls with
      | none => simp [hsink]
      | some t =>
        by_cases ht : t = s <;> by_cases hr : r.level.reachedFrom (levelAfter calls) <;>
          simp [hsink, ht, hr, ← Level.reachedFrom_iff]

end Calls

/-! ### What calls cause -/

namespace Delivery

theorem recorded_append (d e : Delivery) : (d ++ e).recorded = d.recorded ++ e.recorded := rfl

theorem stdout_append (d e : Delivery) : (d ++ e).stdout = d.stdout ++ e.stdout := rfl

@[simp] theorem append_empty (d : Delivery) : d ++ ({} : Delivery) = d := by
  show d.append {} = d
  simp [append]

@[simp] theorem empty_append (d : Delivery) : ({} : Delivery) ++ d = d := by
  show append {} d = d
  simp [append]

theorem append_assoc (d e f : Delivery) : d ++ e ++ f = d ++ (e ++ f) := by
  show (d.append e).append f = d.append (e.append f)
  simp [append, String.append_assoc]

@[simp] theorem join_nil : join [] = {} := rfl

@[simp] theorem join_cons (d : Delivery) (ds : List Delivery) : join (d :: ds) = d ++ join ds := rfl

theorem join_append (ds es : List Delivery) : join (ds ++ es) = join ds ++ join es := by
  induction ds with
  | nil => simp
  | cons d ds ih => rw [List.cons_append, join_cons, join_cons, ih, append_assoc]

theorem recorded_join (ds : List Delivery) : (join ds).recorded = ds.flatMap recorded := by
  induction ds with
  | nil => rfl
  | cons d ds ih => rw [join_cons, recorded_append, ih, List.flatMap_cons]

theorem stdout_join (ds : List Delivery) : (join ds).stdout = String.join (ds.map stdout) := by
  induction ds with
  | nil => rfl
  | cons d ds ih => rw [join_cons, stdout_append, ih, List.map_cons, String.join_cons]

end Delivery

/-- What is handed over is delivered. -/
theorem Channel.performAll_eq (c : Channel) (calls : List ChannelCall) :
    c.performAll calls = .join ((c.handOverAll calls).map fun (sink, r) => sink.deliver r) := by
  induction calls generalizing c with
  | nil => rfl
  | cons call calls ih =>
    have hone : c.perform call =
        .join ((c.handOver call).map fun (sink, r) => sink.deliver r) := by
      cases call with
      | setSink sink => rfl
      | setLevel level => rfl
      | emit r =>
        rw [perform, emit, handOver]
        cases c.sinkFor? r <;> simp
    rw [performAll, hone, ih, handOverAll, List.map_append, Delivery.join_append]

theorem Sink.recorded_deliver (sink : Sink) (r : Record) :
    (sink.deliver r).recorded = if sink = .keep then [r] else [] := by
  obtain ⟨level, target, message⟩ := r
  cases sink <;> cases level <;> rfl

/-- **What is recorded on a new channel:** what the sink that keeps records gets. -/
theorem recorded_performAll (calls : List ChannelCall) :
    (({} : Channel).performAll calls).recorded = passed .keep calls := by
  rw [Channel.performAll_eq, Delivery.recorded_join, List.flatMap_map, ← receivedBy_handOverAll,
    receivedBy]
  induction ({} : Channel).handOverAll calls with
  | nil => rfl
  | cons pair handed ih =>
    obtain ⟨sink, r⟩ := pair
    rw [List.flatMap_cons, ih]
    show (sink.deliver r).recorded ++ _ = _
    rw [Sink.recorded_deliver]
    by_cases hsink : sink = .keep <;> simp [hsink]

/-- Whether a record is shown by the build tool. -/
def Record.isShown (r : Record) : Bool := r.level = .warn ∨ r.level = .error

theorem Sink.stdout_deliver (sink : Sink) (r : Record) :
    (sink.deliver r).stdout =
      if sink = .build ∧ r.isShown then warningLine r.level r.message ++ "\n" else "" := by
  obtain ⟨level, target, message⟩ := r
  cases sink <;> cases level <;> rfl

/-- Only what the sink for builds gets is printed. -/
theorem join_stdout_deliver (handed : List (Sink × Record)) :
    String.join (handed.map fun (sink, r) => (sink.deliver r).stdout) =
      String.join (((receivedBy .build handed).filter Record.isShown).map fun r =>
        warningLine r.level r.message ++ "\n") := by
  induction handed with
  | nil => rfl
  | cons pair handed ih =>
    obtain ⟨sink, r⟩ := pair
    rw [List.map_cons, String.join_cons, ih]
    show (sink.deliver r).stdout ++ _ = _
    rw [Sink.stdout_deliver]
    by_cases hsink : sink = .build <;> by_cases hshown : r.isShown <;>
      simp [hsink, hshown, receivedBy]

/-- Lines that are ended by line feeds are found again. -/
theorem splitAtChar_join {lines : List String} (h : ∀ line ∈ lines, '\n' ∉ line.toList) :
    Text.splitAtChar '\n' (String.join (lines.map (· ++ "\n"))).toList =
      lines.map String.toList ++ [[]] := by
  induction lines with
  | nil => rfl
  | cons line lines ih =>
    obtain ⟨hline, hrest⟩ := List.forall_mem_cons.1 h
    have htext : (String.join ((line :: lines).map (· ++ "\n"))).toList =
        line.toList ++ '\n' :: (String.join (lines.map (· ++ "\n"))).toList := by
      simp
    rw [htext, Text.splitAtChar_append, Text.splitAtChar_of_not_mem hline, ih hrest]
    rfl

/-- **What is printed on a new channel:** one line for each warning and each error that the sink for
builds gets. -/
theorem lines_stdout_performAll (calls : List ChannelCall) :
    Text.splitAtChar '\n' (({} : Channel).performAll calls).stdout.toList =
      ((passed .build calls).filter Record.isShown).map
        (fun r => (warningLine r.level r.message).toList) ++ [[]] := by
  have hlines : (({} : Channel).performAll calls).stdout =
      String.join ((((passed .build calls).filter Record.isShown).map fun r =>
        warningLine r.level r.message).map (· ++ "\n")) := by
    rw [Channel.performAll_eq, Delivery.stdout_join, List.map_map, ← receivedBy_handOverAll,
      List.map_map]
    exact join_stdout_deliver _
  have hfeed : ∀ line ∈ ((passed .build calls).filter Record.isShown).map fun r =>
      warningLine r.level r.message, '\n' ∉ line.toList := by
    intro line hline
    obtain ⟨r, -, rfl⟩ := List.mem_map.1 hline
    obtain ⟨lines, -, -, hfree⟩ := warningLine_eq r.level r.message
    exact hfree
  rw [hlines, splitAtChar_join hfeed, List.map_map]
  rfl

end Scaffold.Diagnostics
