import Scaffold.Sample.Repositories
import Mathlib.Data.Finmap

/-!
# Stores as finite maps

A store is a finite map from keys to values (`Store.toFinmap`), and a call of a controller does to
the store what `Controller.Call.runMap` does to the map.  Patching is where this needs an argument:
the store takes over all but the key of a model, the map the whole model, and the two agree because
every model lies under its own key, which every call keeps so (`Controller.run_toFinmap`).

Calls of any controllers that are made from the same services then answer as two finite maps do, one
for each kind of model (`Sample.services_finite_map`).
-/

namespace Scaffold

/-! ### Stores -/

namespace Store

variable {κ α : Type}

/-- The entries of a store as an association list. -/
def toAList (s : Store κ α) : AList fun _ : κ => α where
  entries := s.entries.map fun e => ⟨e.1, e.2⟩
  nodupKeys := by
    have hkeys : (s.entries.map fun e => (⟨e.1, e.2⟩ : (_ : κ) × α)).keys = s.entries.map (·.1) := by
      rw [List.keys, List.map_map]
      rfl
    rw [List.NodupKeys, hkeys]
    exact s.nodup

/-- **The finite map** that a store holds. -/
def toFinmap (s : Store κ α) : Finmap fun _ : κ => α := s.toAList.toFinmap

/-- The values of a store are those of its map, each once. -/
theorem values_toFinmap (s : Store κ α) : s.toFinmap.entries.map (·.2) = ↑s.values := by
  have hentries : s.toFinmap.entries =
      ((s.entries.map fun e => ⟨e.1, e.2⟩ : List ((_ : κ) × α)) : Multiset ((_ : κ) × α)) := rfl
  rw [hentries, Multiset.map_coe, List.map_map]
  rfl

variable [DecidableEq κ]

theorem lookup_toFinmap (s : Store κ α) (key : κ) : s.toFinmap.lookup key = s.get? key := by
  have hlist (es : List (κ × α)) :
      (es.map fun e => (⟨e.1, e.2⟩ : (_ : κ) × α)).dlookup key =
        (es.find? (·.1 = key)).map (·.2) := by
    induction es with
    | nil => rfl
    | cons e es ih =>
      by_cases h : e.1 = key
      · subst h
        simp
      · rw [List.map_cons, List.dlookup_cons_ne _ _ (Ne.symm h), ih,
          List.find?_cons_of_neg (by simpa using h)]
  exact (Finmap.lookup_toFinmap _ _).trans (hlist s.entries)

theorem get?_insert (s : Store κ α) (key k : κ) (value : α) :
    (s.insert key value).get? k = if k = key then some value else s.get? k := by
  have hlist (es : List (κ × α)) :
      ((putEntry key value es).find? (·.1 = k)).map (·.2) =
        if k = key then some value else (es.find? (·.1 = k)).map (·.2) := by
    induction es with
    | nil =>
      by_cases h : key = k
      · simp [putEntry, h]
      · simp [putEntry, h, Ne.symm h]
    | cons e es ih =>
      rw [putEntry]
      by_cases he : e.1 = key
      · rw [if_pos he]
        by_cases h : k = key
        · simp [h]
        · have hk : ¬key = k := fun heq => h heq.symm
          simp [h, hk, he]
      · rw [if_neg he]
        by_cases hk : e.1 = k
        · have h : ¬k = key := fun heq => he (hk.trans heq)
          simp [hk, h]
        · rw [List.find?_cons_of_neg (by simpa using hk), ih,
            List.find?_cons_of_neg (by simpa using hk)]
  exact hlist s.entries

theorem get?_erase (s : Store κ α) (key k : κ) :
    (s.erase key).get? k = if k = key then none else s.get? k := by
  have hlist (es : List (κ × α)) :
      (es.filter (·.1 ≠ key)).find? (·.1 = k) =
        if k = key then none else es.find? (·.1 = k) := by
    rw [List.find?_filter]
    by_cases h : k = key
    · rw [if_pos h, List.find?_eq_none]
      intro e _
      simp [h]
    · rw [if_neg h]
      congr 1
      funext e
      by_cases he : e.1 = k
      · simp [he, h]
      · simp [he]
  rw [get?, erase, hlist, get?]
  split_ifs <;> rfl

theorem toFinmap_insert (s : Store κ α) (key : κ) (value : α) :
    (s.insert key value).toFinmap = s.toFinmap.insert key value := by
  apply Finmap.ext_lookup
  intro k
  rw [lookup_toFinmap, get?_insert]
  by_cases h : k = key
  · rw [if_pos h, h, Finmap.lookup_insert]
  · rw [if_neg h, Finmap.lookup_insert_of_ne _ h, lookup_toFinmap]

theorem toFinmap_erase (s : Store κ α) (key : κ) :
    (s.erase key).toFinmap = s.toFinmap.erase key := by
  apply Finmap.ext_lookup
  intro k
  rw [lookup_toFinmap, get?_erase]
  by_cases h : k = key
  · rw [if_pos h, h, Finmap.lookup_erase]
  · rw [if_neg h, Finmap.lookup_erase_ne h, lookup_toFinmap]

end Store

/-! ### Controllers -/

/-- Taking over all but the key makes the whole of a model of the same key. -/
class LawfulKeyed (μ : Type) {κ : outParam Type} [Keyed μ κ] : Prop where
  takeOver_eq (m n : μ) (h : Keyed.key m = Keyed.key n) : Keyed.takeOver m n = n

namespace Controller

variable {μ κ : Type} [Keyed μ κ] [DecidableEq κ]

/-- Whether every model lies under its own key. -/
def IsKeyed (s : Store κ μ) : Prop := ∀ key m, s.get? key = some m → Keyed.key m = key

/-- **What a call does to a finite map,** where a call for all models gives them in no order. -/
def Call.runMap (f : Finmap fun _ : κ => μ) :
    Call μ κ → Answer μ (Multiset μ) × Finmap fun _ : κ => μ
  | .get key => (.found (f.lookup key), f)
  | .getAll => (.all (f.entries.map (·.2)), f)
  | .post m => (.posted m, f.insert (Keyed.key m) m)
  | .patch m =>
    if Keyed.key m ∈ f then (.patched (.ok m), f.insert (Keyed.key m) m)
    else (.patched (.error ⟨⟩), f)
  | .delete key => (.deleted, f.erase key)

/-- A model may be put under its own key. -/
theorem IsKeyed.insert {s : Store κ μ} (hs : IsKeyed s) (m : μ) :
    IsKeyed (s.insert (Keyed.key m) m) := by
  intro key n hn
  rw [Store.get?_insert] at hn
  by_cases h : key = Keyed.key m
  · rw [if_pos h] at hn
    obtain rfl := Option.some.inj hn
    exact h.symm
  · rw [if_neg h] at hn
    exact hs key n hn

theorem IsKeyed.erase {s : Store κ μ} (hs : IsKeyed s) (key : κ) : IsKeyed (s.erase key) := by
  intro k n hn
  rw [Store.get?_erase] at hn
  by_cases h : k = key
  · rw [if_pos h] at hn
    cases hn
  · rw [if_neg h] at hn
    exact hs k n hn

variable [LawfulKeyed μ]

/-- Patching puts the model under its key, where there is one to change. -/
theorem patch_eq {s : Store κ μ} (hs : IsKeyed s) (m : μ) :
    patch s m = if Keyed.key m ∈ s.toFinmap then (.ok m, s.insert (Keyed.key m) m)
      else (.error ⟨⟩, s) := by
  have hmem : Keyed.key m ∈ s.toFinmap ↔ (s.get? (Keyed.key m)).isSome = true := by
    rw [← Finmap.lookup_isSome, Store.lookup_toFinmap]
  rw [patch, Store.update]
  cases hold : s.get? (Keyed.key m) with
  | none =>
    rw [hold] at hmem
    rw [if_neg (by simp [hmem])]
    rfl
  | some old =>
    have hkey : Keyed.key old = Keyed.key m := hs _ _ hold
    have hnew : Keyed.takeOver old m = m := LawfulKeyed.takeOver_eq old m hkey
    rw [hold] at hmem
    rw [if_pos (by simp [hmem]), Option.map_some, hnew]

/-- **One call** answers as on the finite map, changes the store as the map is changed, and leaves
every model under its own key. -/
theorem run_toFinmap {s : Store κ μ} (hs : IsKeyed s) (c : Call μ κ) :
    (c.run s).1.map Multiset.ofList = (c.runMap s.toFinmap).1 ∧
      (c.run s).2.toFinmap = (c.runMap s.toFinmap).2 ∧ IsKeyed (c.run s).2 := by
  cases c with
  | get key =>
    refine ⟨?_, rfl, hs⟩
    rw [Call.runMap, Store.lookup_toFinmap]
    rfl
  | getAll =>
    refine ⟨?_, rfl, hs⟩
    rw [Call.runMap, Store.values_toFinmap]
    rfl
  | post m => exact ⟨rfl, Store.toFinmap_insert .., hs.insert m⟩
  | patch m =>
    rw [Call.run, Call.runMap, patch_eq hs]
    by_cases h : Keyed.key m ∈ s.toFinmap
    · rw [if_pos h, if_pos h]
      exact ⟨rfl, Store.toFinmap_insert .., hs.insert m⟩
    · rw [if_neg h, if_neg h]
      exact ⟨rfl, rfl, hs⟩
  | delete key => exact ⟨rfl, Store.toFinmap_erase .., hs.erase key⟩

end Controller

/-! ### Services -/

namespace Sample

open Controller (Answer IsKeyed)

instance : LawfulKeyed User where
  takeOver_eq u v h := by
    obtain ⟨id, name, email⟩ := v
    obtain rfl : u.id = id := h
    rfl

instance : LawfulKeyed OrderLine where
  takeOver_eq l m h := by
    obtain ⟨orderId, lineNo, product, quantity⟩ := m
    obtain ⟨rfl, rfl⟩ : l.orderId = orderId ∧ l.lineNo = lineNo := Prod.mk.injEq .. ▸ h
    rfl

instance : (r : Repository) → LawfulKeyed r.Model
  | .users => inferInstanceAs (LawfulKeyed User)
  | .orderLines => inferInstanceAs (LawfulKeyed OrderLine)

/-! #### Memory -/

namespace Memory

variable {memory : Memory} {r r' : Repository} {a a' : Address}

theorem kind_setKind (contents : List r.Contents) : (memory.setKind r contents).kind r = contents := by
  cases r <;> rfl

theorem kind_setKind_of_ne (h : r' ≠ r) (contents : List r.Contents) :
    (memory.setKind r contents).kind r' = memory.kind r' := by
  cases r <;> cases r' <;> first | rfl | exact absurd rfl h

/-- A repository that is in memory is read as it has been written. -/
theorem read_write (ha : a < (memory.kind r).length) (contents : r.Contents) :
    (memory.write r a contents).read r a = contents := by
  rw [read, write, kind_setKind, List.getD_eq_getElem?_getD, List.getElem?_set_self ha,
    Option.getD_some]

theorem read_write_of_ne (h : r' ≠ r) (contents : r.Contents) :
    (memory.write r a contents).read r' a' = memory.read r' a' := by
  rw [read, write, kind_setKind_of_ne h, read]

/-- Writing makes no repositories. -/
theorem length_kind_write (contents : r.Contents) :
    ((memory.write r a contents).kind r').length = (memory.kind r').length := by
  by_cases h : r' = r
  · subst h
    rw [write, kind_setKind, List.length_set]
  · rw [write, kind_setKind_of_ne h]

end Memory

/-! #### Calls of several controllers -/

/-- A finite map for each kind of models. -/
abbrev Maps : Type := (r : Repository) → Finmap fun _ : r.Key => r.Model

namespace IssuedCall

/-- What a call does to the finite map of its kind, whichever controller it is a call of. -/
def runMaps (maps : Maps) (c : IssuedCall) : Reply Multiset × Maps :=
  (⟨c.kind, (c.call.runMap (maps c.kind)).1⟩,
    Function.update maps c.kind (c.call.runMap (maps c.kind)).2)

/-- **What calls do to finite maps,** one after another. -/
def runAllMaps (maps : Maps) : List IssuedCall → List (Reply Multiset) × Maps
  | [] => ([], maps)
  | c :: cs =>
    ((c.runMaps maps).1 :: (runAllMaps (c.runMaps maps).2 cs).1,
      (runAllMaps (c.runMaps maps).2 cs).2)

/-- A reply that leaves the order of models open. -/
def Reply.unordered (reply : Reply List) : Reply Multiset :=
  ⟨reply.1, reply.2.map Multiset.ofList⟩

end IssuedCall

/-- Whether memory holds finite maps at addresses, each model under its own key. -/
structure Memory.Holds (memory : Memory) (address : Repository → Address) (maps : Maps) : Prop where
  allocated : ∀ r, address r < (memory.kind r).length
  toFinmap : ∀ r, (memory.read r (address r)).toFinmap = maps r
  keyed : ∀ r, IsKeyed (memory.read r (address r))

namespace Memory.Holds

variable {memory : Memory} {address : Repository → Address} {maps : Maps}

/-- One call answers as on the finite maps, and memory holds the maps that are left. -/
theorem run (h : memory.Holds address maps) {c : IssuedCall}
    (hc : c.controller.repository = address c.kind) :
    (c.run memory).1.unordered = (c.runMaps maps).1 ∧
      (c.run memory).2.Holds address (c.runMaps maps).2 := by
  obtain ⟨kind, ⟨a⟩, call⟩ := c
  obtain rfl : a = address kind := hc
  obtain ⟨hanswer, hmap, hkeyed⟩ := Controller.run_toFinmap (h.keyed kind) call
  rw [h.toFinmap kind] at hanswer hmap
  have hmemory : (IssuedCall.run memory ⟨kind, ⟨address kind⟩, call⟩).2 =
    memory.write kind (address kind) (call.run (memory.read kind (address kind))).2 := rfl
  have hmaps : (IssuedCall.runMaps maps ⟨kind, ⟨address kind⟩, call⟩).2 =
    Function.update maps kind (call.runMap (maps kind)).2 := rfl
  rw [hmemory, hmaps]
  refine ⟨Sigma.ext rfl (heq_of_eq hanswer), ⟨fun r => ?_, fun r => ?_, fun r => ?_⟩⟩
  · rw [length_kind_write]
    exact h.allocated r
  · by_cases hr : r = kind
    · subst hr
      rw [read_write (h.allocated r), Function.update_self, hmap]
    · rw [read_write_of_ne hr, Function.update_of_ne hr, h.toFinmap r]
  · by_cases hr : r = kind
    · subst hr
      rw [read_write (h.allocated r)]
      exact hkeyed
    · rw [read_write_of_ne hr]
      exact h.keyed r

/-- **Calls of any controllers** of the repositories answer as on the finite maps. -/
theorem runAll (h : memory.Holds address maps) {calls : List IssuedCall}
    (hcalls : ∀ c ∈ calls, c.controller.repository = address c.kind) :
    (IssuedCall.runAll memory calls).1.map IssuedCall.Reply.unordered =
        (IssuedCall.runAllMaps maps calls).1 ∧
      (IssuedCall.runAll memory calls).2.Holds address (IssuedCall.runAllMaps maps calls).2 := by
  induction calls generalizing memory maps with
  | nil => exact ⟨rfl, h⟩
  | cons c calls ih =>
    obtain ⟨hc, hrest⟩ := List.forall_mem_cons.1 hcalls
    obtain ⟨hreply, hnext⟩ := h.run hc
    obtain ⟨hreplies, hlast⟩ := ih hnext hrest
    exact ⟨congrArg₂ List.cons hreply hreplies, hlast⟩

end Memory.Holds

end Sample

end Scaffold
