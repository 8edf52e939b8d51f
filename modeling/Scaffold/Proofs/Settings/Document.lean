import Scaffold.Settings.Document
import Mathlib.Data.List.Nodup
import Mathlib.Data.List.Sort
import Mathlib.Data.String.Basic

/-!
# Settings that are written and read

A record supplies a field under its name in a table, or in its place in a list (`Supplies`).  What
is read for the field is then what that value writes, and the default where no value is supplied
(`Gives`, `readField_eq_some_iff`).  So every section has an exact account of what is read from a
document (`ApiSettings.ofDocument?_eq_some_iff` and its siblings), and settings that are written out
in full are read back as they were (`Settings.ofDocument?_toDocument`).
`Settings.documents_tell_settings` puts these together.
-/

namespace Scaffold

section Lookup

variable {κ α : Type} [DecidableEq κ]

theorem lookup_cons_eq_ite (key : κ) (e : κ × α) (es : List (κ × α)) :
    (e :: es).lookup key = if key = e.1 then some e.2 else es.lookup key := by
  rw [List.lookup_cons]
  by_cases hkey : key = e.1
  · have hbeq : (key == e.1) = true := by simpa using hkey
    rw [hbeq, if_pos hkey]
  · have hbeq : (key == e.1) = false := by simpa using hkey
    rw [hbeq, if_neg hkey]

/-- Where every key stands once, what is found under a key is what stands with it. -/
theorem lookup_eq_some_iff_mem {entries : List (κ × α)} (h : (entries.map (·.1)).Nodup) {key : κ}
    {value : α} : entries.lookup key = some value ↔ (key, value) ∈ entries := by
  induction entries with
  | nil => simp
  | cons e es ih =>
    obtain ⟨hnew, hes⟩ := List.nodup_cons.1 h
    rw [lookup_cons_eq_ite, List.mem_cons, Prod.ext_iff]
    by_cases hkey : key = e.1
    · have hother : (key, value) ∉ es := by
        intro hmem
        apply hnew
        exact List.mem_map.2 ⟨(key, value), hmem, hkey⟩
      rw [if_pos hkey, or_iff_left hother, Option.some.injEq, and_iff_right hkey, eq_comm]
    · rw [if_neg hkey, or_iff_right fun heq => hkey heq.1]
      exact ih hes

end Lookup

/-- A list whose elements are read one by one is what its results write. -/
theorem mapM_eq_some_iff_eq_map {α β : Type} {f : α → Option β} {g : β → α}
    (h : ∀ a b, f a = some b ↔ a = g b) {as : List α} {bs : List β} :
    as.mapM f = some bs ↔ as = bs.map g := by
  induction as generalizing bs with
  | nil =>
    cases bs <;> simp
  | cons a as ih =>
    rw [List.mapM_cons]
    constructor
    · intro hread
      obtain ⟨b, hb, hread⟩ := Option.bind_eq_some_iff.1 hread
      obtain ⟨rest, hrest, hread⟩ := Option.bind_eq_some_iff.1 hread
      obtain rfl := Option.some.inj hread
      rw [List.map_cons, (h a b).1 hb, ih.1 hrest]
    · intro hwritten
      cases bs with
      | nil => cases hwritten
      | cons b bs =>
        obtain ⟨ha, has⟩ := List.cons.inj hwritten
        rw [(h a b).2 ha, ih.2 has]
        rfl

/-! ### Aliases -/

namespace AliasTable

variable {t t' : AliasTable}

theorem nodup_names (t : AliasTable) : (t.entries.map (·.1)).Nodup := by
  have hlt : (t.entries.map (·.1)).Pairwise (· < ·) := List.pairwise_map.2 t.sorted
  exact hlt.imp fun hab => ne_of_lt hab

theorem target?_eq_some_iff {name target : String} :
    t.target? name = some target ↔ (name, target) ∈ t.entries :=
  lookup_eq_some_iff_mem t.nodup_names

/-- Tables with the same targets are the same. -/
theorem ext_target? (h : ∀ name, t.target? name = t'.target? name) : t = t' := by
  have hmem : ∀ e, e ∈ t.entries ↔ e ∈ t'.entries := by
    intro e
    rw [← Prod.mk.eta (p := e), ← target?_eq_some_iff, h, target?_eq_some_iff]
  have hentries : t.entries = t'.entries := t.sorted.eq_of_mem_iff t'.sorted hmem
  cases t
  cases t'
  cases hentries
  rfl

theorem lookup_insertEntry (name target k : String) (es : List (String × String)) :
    (insertEntry name target es).lookup k = if k = name then some target else es.lookup k := by
  induction es with
  | nil => exact lookup_cons_eq_ite k (name, target) []
  | cons e es ih =>
    unfold insertEntry
    split
    next => exact lookup_cons_eq_ite k (name, target) (e :: es)
    next =>
      split
      next heq =>
        rw [lookup_cons_eq_ite, lookup_cons_eq_ite, ← heq]
        by_cases hk : k = name
        · rw [if_pos hk, if_pos hk]
        · rw [if_neg hk, if_neg hk, if_neg hk]
      next hne =>
        rw [lookup_cons_eq_ite, lookup_cons_eq_ite, ih]
        by_cases hk : k = e.1
        · have hother : k ≠ name := fun hsame => hne (hsame.symm.trans hk)
          rw [if_pos hk, if_neg hother, if_pos hk]
        · rw [if_neg hk, if_neg hk]

theorem target?_insert (t : AliasTable) (name target k : String) :
    (t.insert name target).target? k = if k = name then some target else t.target? k :=
  lookup_insertEntry name target k t.entries

/-- The targets of the entries that a table is made of. -/
theorem target?_ofEntries {entries : List (String × String)} (h : (entries.map (·.1)).Nodup)
    (k : String) : (ofEntries entries).target? k = entries.lookup k := by
  -- what an entry sets stays, since no later entry has its name
  have hfold (t : AliasTable) : (entries.foldl (fun t e => t.insert e.1 e.2) t).target? k =
      (entries.lookup k).or (t.target? k) := by
    induction entries generalizing t with
    | nil => rfl
    | cons e es ih =>
      obtain ⟨hnew, hes⟩ := List.nodup_cons.1 h
      rw [List.foldl_cons, ih hes, target?_insert, lookup_cons_eq_ite]
      by_cases hk : k = e.1
      · have hlast : es.lookup k = none := by
          apply List.lookup_eq_none_iff.2
          intro p hp
          rw [bne_iff_ne]
          intro hsame
          exact hnew (List.mem_map.2 ⟨p, hp, hsame.symm.trans hk⟩)
        rw [hlast, if_pos hk, if_pos hk, Option.none_or, Option.some_or]
      · rw [if_neg hk, if_neg hk]
  rw [ofEntries, hfold]
  exact Option.or_none

theorem ofEntries_entries (t : AliasTable) : ofEntries t.entries = t :=
  ext_target? fun name => target?_ofEntries t.nodup_names name

end AliasTable

/-! ### Records -/

namespace Document

/-- **Whether the names in every table are distinct,** throughout a document. -/
inductive HasDistinctNames : Document → Prop where
  | null : HasDistinctNames .null
  | bool (b : Bool) : HasDistinctNames (.bool b)
  | scalar (spelling : String) : HasDistinctNames (.scalar spelling)
  | text (s : String) : HasDistinctNames (.text s)
  | list {items : List Document} (inner : ∀ item ∈ items, HasDistinctNames item) :
    HasDistinctNames (.list items)
  | table {entries : List (String × Document)} (names : (entries.map (·.1)).Nodup)
    (inner : ∀ e ∈ entries, HasDistinctNames e.2) : HasDistinctNames (.table entries)

/-- Whether a document is a record of `arity` fields: a table, or a list that may end early. -/
def IsRecord (arity : Nat) (d : Document) : Prop :=
  (∃ entries, d = .table entries) ∨ ∃ items, d = .list items ∧ items.length ≤ arity

/-- Whether a record supplies a value for the field `name`, which is the one at `index`. -/
def Supplies (d : Document) (index : Nat) (name : String) (value : Document) : Prop :=
  (∃ entries, d = .table entries ∧ (name, value) ∈ entries) ∨
    ∃ items, d = .list items ∧ items[index]? = some value

/-- **Whether a field of a record is `a`:** the value that is supplied for it writes `a`, and where
none is, `a` is the default. -/
structure Gives {α : Type} (d : Document) (index : Nat) (name : String)
    (Writes : Document → α → Prop) (default a : α) : Prop where
  supplied : ∀ value, d.Supplies index name value → Writes value a
  missing : (¬∃ value, d.Supplies index name value) → a = default

variable {d value : Document} {index : Nat} {name : String}

/-- What is read from a record alone is read where there is one. -/
theorem ite_isRecord_eq_some_iff {α : Type} {arity : Nat} {read : Option α} {a : α} :
    (if !d.isRecord .json arity then none else read) = some a ↔
      d.IsRecord arity ∧ read = some a := by
  have hrecord : d.isRecord .json arity = true ↔ d.IsRecord arity := by
    cases d <;> simp [isRecord, IsRecord, Conventions.json]
  rw [← hrecord]
  cases d.isRecord .json arity <;> simp

theorem field?_eq_some_iff (hd : d.HasDistinctNames) :
    d.field? index name = some value ↔ d.Supplies index name value := by
  cases hd with
  | table hnames hinner => simp [field?, Supplies, lookup_eq_some_iff_mem hnames]
  | list hinner => simp [field?, Supplies]
  | _ => simp [field?, Supplies]

theorem Supplies.hasDistinctNames (h : d.Supplies index name value) (hd : d.HasDistinctNames) :
    value.HasDistinctNames := by
  cases hd with
  | table hnames hinner =>
    obtain ⟨entries, heq, hmem⟩ | ⟨items, heq, -⟩ := h
    · obtain rfl := Document.table.inj heq
      exact hinner _ hmem
    · cases heq
  | list hinner =>
    obtain ⟨entries, heq, -⟩ | ⟨items, heq, hitem⟩ := h
    · cases heq
    · obtain rfl := Document.list.inj heq
      exact hinner _ (List.mem_of_getElem? hitem)
  | _ => obtain ⟨entries, heq, -⟩ | ⟨items, heq, -⟩ := h <;> cases heq

/-- **What is read for a field** is what its value writes, and else the default. -/
theorem readField_eq_some_iff {α : Type} {read : Document → Option α}
    {Writes : Document → α → Prop} {default a : α} (hd : d.HasDistinctNames)
    (hread : ∀ value : Document, value.HasDistinctNames → (read value = some a ↔ Writes value a)) :
    d.readField index name read default = some a ↔ d.Gives index name Writes default a := by
  unfold readField
  cases hfield : d.field? index name with
  | some value =>
    have hsupplies := (field?_eq_some_iff hd).1 hfield
    show read value = some a ↔ _
    rw [hread value (hsupplies.hasDistinctNames hd)]
    constructor
    · intro hwrites
      refine ⟨fun value' hsupplies' => ?_, fun hnone => absurd ⟨value, hsupplies⟩ hnone⟩
      rw [← field?_eq_some_iff hd, hfield] at hsupplies'
      rwa [← Option.some.inj hsupplies']
    · intro hgives
      exact hgives.supplied value hsupplies
  | none =>
    have hnone (value : Document) : ¬d.Supplies index name value := by
      rw [← field?_eq_some_iff hd, hfield]
      exact nofun
    show some default = some a ↔ _
    constructor
    · intro heq
      exact ⟨fun value hsupplies => absurd hsupplies (hnone value),
        fun _ => (Option.some.inj heq).symm⟩
    · intro hgives
      rw [hgives.missing fun ⟨value, hsupplies⟩ => hnone value hsupplies]

/-! ### Values -/

theorem text?_eq_some_iff {s : String} : d.text? = some s ↔ d = .text s := by
  cases d <;> simp [text?]

theorem texts?_eq_some_iff {texts : List String} : d.texts? = some texts ↔ d = .ofTexts texts := by
  cases d <;> simp [texts?, ofTexts, mapM_eq_some_iff_eq_map fun _ _ => text?_eq_some_iff]

theorem textTable?_eq_some_iff {pairs : List (String × String)} :
    d.textTable? = some pairs ↔ d = .table (pairs.map fun p => (p.1, .text p.2)) := by
  have hentry (e : String × Document) (p : String × String) :
      (text? e.2).map (e.1, ·) = some p ↔ e = (p.1, .text p.2) := by
    rw [Option.map_eq_some_iff]
    constructor
    · rintro ⟨s, hs, rfl⟩
      rw [← text?_eq_some_iff.1 hs]
    · rintro rfl
      exact ⟨p.2, rfl, rfl⟩
  cases d <;> simp [textTable?, mapM_eq_some_iff_eq_map hentry]

end Document

open Document

/-- Whether a document writes a policy: by its text, or as a table with this name and no value. -/
def InvalidEntityPolicy.IsReadFrom (d : Document) (p : InvalidEntityPolicy) : Prop :=
  d = .text p.text ∨ d = .table [(p.text, .null)]

theorem InvalidEntityPolicy.ofText?_eq_some_iff {s : String} {p : InvalidEntityPolicy} :
    ofText? s = some p ↔ s = p.text := by
  unfold ofText?
  cases p <;> split_ifs <;> simp_all [text]

theorem InvalidEntityPolicy.ofDocument?_eq_some_iff {d : Document} {p : InvalidEntityPolicy} :
    ofDocument? .json d = some p ↔ p.IsReadFrom d := by
  unfold IsReadFrom
  cases d with
  | text s => simp [ofDocument?, ofText?_eq_some_iff]
  | table entries =>
    rcases entries with _ | ⟨⟨name, value⟩, _ | ⟨e, es⟩⟩
    · simp [ofDocument?]
    · cases value <;> simp [ofDocument?, Conventions.json, ofText?_eq_some_iff]
    · simp [ofDocument?]
  | _ => simp [ofDocument?]

/-- Whether a document writes aliases: a table of texts, which are the targets of their names. -/
def AliasTable.IsReadFrom (d : Document) (t : AliasTable) : Prop :=
  ∃ pairs : List (String × String), d = .table (pairs.map fun p => (p.1, .text p.2)) ∧
    ∀ name target, t.target? name = some target ↔ (name, target) ∈ pairs

theorem AliasTable.map_ofEntries_eq_some_iff {d : Document} {t : AliasTable}
    (hd : d.HasDistinctNames) : d.textTable?.map ofEntries = some t ↔ t.IsReadFrom d := by
  have htarget (pairs : List (String × String))
      (hpairs : d = .table (pairs.map fun p => (p.1, .text p.2))) (name target : String) :
      (ofEntries pairs).target? name = some target ↔ (name, target) ∈ pairs := by
    have hnames : (pairs.map (·.1)).Nodup := by
      rw [hpairs] at hd
      cases hd with
      | table hnames hinner => simpa [Function.comp_def] using hnames
    rw [target?_ofEntries hnames, lookup_eq_some_iff_mem hnames]
  rw [Option.map_eq_some_iff]
  constructor
  · rintro ⟨pairs, hpairs, rfl⟩
    have hwritten := textTable?_eq_some_iff.1 hpairs
    exact ⟨pairs, hwritten, htarget pairs hwritten⟩
  · rintro ⟨pairs, hwritten, htargets⟩
    have hsame : ofEntries pairs = t := by
      apply ext_target?
      intro name
      apply Option.ext
      intro target
      exact (htarget pairs hwritten name target).trans (htargets name target).symm
    exact ⟨pairs, textTable?_eq_some_iff.2 hwritten, hsame⟩

/-! ### Settings -/

/-- **What a document says of entities:** every setting is what the document writes for it, and else
the default. -/
structure ApiSettings.IsReadFrom (d : Document) (api : ApiSettings) : Prop where
  record : d.IsRecord 4
  derives : d.Gives 0 "derives" (fun v texts => v = .ofTexts texts)
    ["Debug", "Clone", "PartialEq", "Default"] api.derives
  onInvalidEntity : d.Gives 1 "on_invalid_entity" InvalidEntityPolicy.IsReadFrom .abort
    api.onInvalidEntity
  routePrefix : d.Gives 2 "route_prefix" (fun v text => v = .text text) "/" api.routePrefix
  types : d.Gives 3 "types" AliasTable.IsReadFrom .empty api.types

/-- What a document says of the calls that register a mapping. -/
structure MappingSettings.IsReadFrom (d : Document) (mapping : MappingSettings) : Prop where
  record : d.IsRecord 3
  method : d.Gives 0 "method" (fun v text => v = .text text) "register" mapping.method
  receivers : d.Gives 1 "receivers" (fun v texts => v = .ofTexts texts) ["Mappings"]
    mapping.receivers
  qualifier : d.Gives 2 "qualifier" (fun v text => v = .text text) "stencil" mapping.qualifier

/-- What a document says of handlers. -/
structure HandlerSettings.IsReadFrom (d : Document) (handler : HandlerSettings) : Prop where
  record : d.IsRecord 1
  markers : d.Gives 0 "markers" (fun v texts => v = .ofTexts texts) ["handler"] handler.markers

/-- **What a document says of a run.**  Where it leaves out a part of a section, the default of this
part is in force, and the rest is what the section writes. -/
structure Settings.IsReadFrom (d : Document) (s : Settings) : Prop where
  record : d.IsRecord 4
  runtimePath : d.Gives 0 "runtime_path" (fun v text => v = .text text) "::stencil" s.runtimePath
  api : d.Gives 1 "api" (fun v api => api.IsReadFrom v) {} s.api
  mapping : d.Gives 2 "mapping" (fun v mapping => mapping.IsReadFrom v) {} s.mapping
  handler : d.Gives 3 "handler" (fun v handler => handler.IsReadFrom v) {} s.handler

section Read

variable {d : Document} (hd : d.HasDistinctNames)
include hd

theorem Document.readField_text?_eq_some_iff {index : Nat} {name default text : String} :
    d.readField index name text? default = some text ↔
      d.Gives index name (fun v text => v = .text text) default text :=
  readField_eq_some_iff hd fun _ _ => text?_eq_some_iff

theorem Document.readField_texts?_eq_some_iff {index : Nat} {name : String}
    {default texts : List String} :
    d.readField index name texts? default = some texts ↔
      d.Gives index name (fun v texts => v = .ofTexts texts) default texts :=
  readField_eq_some_iff hd fun _ _ => texts?_eq_some_iff

theorem ApiSettings.ofDocument?_eq_some_iff {api : ApiSettings} :
    ofDocument? .json d = some api ↔ api.IsReadFrom d := by
  have hpolicy (policy : InvalidEntityPolicy) :
      d.readField 1 "on_invalid_entity" (InvalidEntityPolicy.ofDocument? .json) .abort =
        some policy ↔
      d.Gives 1 "on_invalid_entity" InvalidEntityPolicy.IsReadFrom .abort policy :=
    readField_eq_some_iff hd fun _ _ => InvalidEntityPolicy.ofDocument?_eq_some_iff
  have htypes (types : AliasTable) :
      d.readField 3 "types" (fun t => t.textTable?.map AliasTable.ofEntries) .empty = some types ↔
      d.Gives 3 "types" AliasTable.IsReadFrom .empty types :=
    readField_eq_some_iff hd fun _ hvalue => AliasTable.map_ofEntries_eq_some_iff hvalue
  simp only [ofDocument?, ite_isRecord_eq_some_iff, Option.bind_eq_bind, Option.bind_eq_some_iff,
    Option.pure_def, Option.some.injEq, readField_texts?_eq_some_iff hd,
    readField_text?_eq_some_iff hd, hpolicy, htypes]
  constructor
  · rintro ⟨hrecord, derives, hderives, policy, hpolicy, route, hroute, types, htypes, rfl⟩
    exact ⟨hrecord, hderives, hpolicy, hroute, htypes⟩
  · intro h
    exact ⟨h.record, _, h.derives, _, h.onInvalidEntity, _, h.routePrefix, _, h.types, rfl⟩

theorem MappingSettings.ofDocument?_eq_some_iff {mapping : MappingSettings} :
    ofDocument? .json d = some mapping ↔ mapping.IsReadFrom d := by
  simp only [ofDocument?, ite_isRecord_eq_some_iff, Option.bind_eq_bind, Option.bind_eq_some_iff,
    Option.pure_def, Option.some.injEq, readField_texts?_eq_some_iff hd,
    readField_text?_eq_some_iff hd]
  constructor
  · rintro ⟨hrecord, method, hmethod, receivers, hreceivers, qualifier, hqualifier, rfl⟩
    exact ⟨hrecord, hmethod, hreceivers, hqualifier⟩
  · intro h
    exact ⟨h.record, _, h.method, _, h.receivers, _, h.qualifier, rfl⟩

theorem HandlerSettings.ofDocument?_eq_some_iff {handler : HandlerSettings} :
    ofDocument? .json d = some handler ↔ handler.IsReadFrom d := by
  simp only [ofDocument?, ite_isRecord_eq_some_iff, Option.bind_eq_bind, Option.bind_eq_some_iff,
    Option.pure_def, Option.some.injEq, readField_texts?_eq_some_iff hd]
  constructor
  · rintro ⟨hrecord, markers, hmarkers, rfl⟩
    exact ⟨hrecord, hmarkers⟩
  · intro h
    exact ⟨h.record, _, h.markers, rfl⟩

/-- **The settings that are read from a document** are those that it says. -/
theorem Settings.ofDocument?_eq_some_iff {s : Settings} :
    ofDocument? .json d = some s ↔ s.IsReadFrom d := by
  have hapi (api : ApiSettings) :
      d.readField 1 "api" (ApiSettings.ofDocument? .json) {} = some api ↔
      d.Gives 1 "api" (fun v api => api.IsReadFrom v) {} api :=
    readField_eq_some_iff hd fun _ hvalue => ApiSettings.ofDocument?_eq_some_iff hvalue
  have hmapping (mapping : MappingSettings) :
      d.readField 2 "mapping" (MappingSettings.ofDocument? .json) {} = some mapping ↔
      d.Gives 2 "mapping" (fun v mapping => mapping.IsReadFrom v) {} mapping :=
    readField_eq_some_iff hd fun _ hvalue => MappingSettings.ofDocument?_eq_some_iff hvalue
  have hhandler (handler : HandlerSettings) :
      d.readField 3 "handler" (HandlerSettings.ofDocument? .json) {} = some handler ↔
      d.Gives 3 "handler" (fun v handler => handler.IsReadFrom v) {} handler :=
    readField_eq_some_iff hd fun _ hvalue => HandlerSettings.ofDocument?_eq_some_iff hvalue
  simp only [ofDocument?, ite_isRecord_eq_some_iff, Option.bind_eq_bind, Option.bind_eq_some_iff,
    Option.pure_def, Option.some.injEq, readField_text?_eq_some_iff hd, hapi, hmapping, hhandler]
  constructor
  · rintro ⟨hrecord, runtime, hruntime, api, hapi, mapping, hmapping, handler, hhandler, rfl⟩
    exact ⟨hrecord, hruntime, hapi, hmapping, hhandler⟩
  · intro h
    exact ⟨h.record, _, h.runtimePath, _, h.api, _, h.mapping, _, h.handler, rfl⟩

end Read

/-! ### Writing -/

/-- **Settings that are written out in full are read back as they were.** -/
theorem Settings.ofDocument?_toDocument (c : Conventions) (s : Settings) :
    ofDocument? c s.toDocument = some s := by
  have htexts (texts : List String) : (Document.ofTexts texts).texts? = some texts :=
    texts?_eq_some_iff.2 rfl
  have hpolicy (p : InvalidEntityPolicy) :
      InvalidEntityPolicy.ofDocument? c (.text p.text) = some p :=
    InvalidEntityPolicy.ofText?_eq_some_iff.2 rfl
  have haliases (t : AliasTable) :
      (Document.table (t.entries.map fun e => (e.1, .text e.2))).textTable?.map
        AliasTable.ofEntries = some t := by
    rw [textTable?_eq_some_iff.2 rfl, Option.map_some, AliasTable.ofEntries_entries]
  simp [ofDocument?, toDocument, ApiSettings.ofDocument?, MappingSettings.ofDocument?,
    HandlerSettings.ofDocument?, readField, field?, isRecord, lookup_cons_eq_ite, text?, htexts,
    hpolicy, haliases]

/-- **Documents tell settings.**  Settings that are written out in full are read back.  What is read
from a document are the settings in which every field of every section is what the document supplies
for it, and the default of its section where it supplies none; and writing them out does not change
them. -/
theorem Settings.documents_tell_settings :
    (∀ s : Settings, ofDocument? .json s.toDocument = some s) ∧
      ∀ d : Document, d.HasDistinctNames → ∀ s : Settings,
        ofDocument? .json d = some s ↔
          s.IsReadFrom d ∧ ofDocument? .json s.toDocument = some s := by
  constructor
  · intro s
    exact ofDocument?_toDocument .json s
  · intro d hd s
    rw [ofDocument?_eq_some_iff hd]
    exact (and_iff_left (ofDocument?_toDocument .json s)).symm

/-- A list without its last section, in which a section leaves out two of its fields and has one
that is not known, while the last given section is a list itself. -/
theorem Settings.documents_tell_settings_partly_given :
    let d := Document.list
      [.text "::rt",
        .table
          [("note", .null), ("on_invalid_entity", .table [("skip", .null)]),
            ("types", .table [("b", .text "B"), ("a", .text "A")])],
        .list [.text "put"]]
    let s : Settings :=
      { runtimePath := "::rt",
        api :=
          { onInvalidEntity := .skip,
            types := AliasTable.ofEntries [("a", "A"), ("b", "B")] },
        mapping := { method := "put" } }
    d.HasDistinctNames ∧ s.IsReadFrom d ∧ ofDocument? .json s.toDocument = some s := by
  intro d s
  have hd : d.HasDistinctNames := by
    have hpolicy : (Document.table [("skip", .null)]).HasDistinctNames :=
      .table (by decide) (by simpa using .null)
    have haliases : (Document.table [("b", .text "B"), ("a", .text "A")]).HasDistinctNames :=
      .table (by decide) (by simpa using ⟨.text "B", .text "A"⟩)
    apply HasDistinctNames.list
    simp only [List.forall_mem_cons]
    refine ⟨.text "::rt", .table (by decide) ?_, .list ?_, nofun⟩
    · simpa using ⟨.null, hpolicy, haliases⟩
    · simpa using .text "put"
  have hread : ofDocument? .json d = some s := by
    decide +kernel
  exact ⟨hd, (Settings.documents_tell_settings.2 d hd s).1 hread⟩

end Scaffold
