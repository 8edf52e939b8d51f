import Mathlib.Data.List.Sort
import Scaffold.Proofs.Resolve

/-!
# Which members are paired

Pairing is a join: a name is carried over where a public field or getter of the source and a public
field or setter of the destination have it, and on either side the first such member counts.
`IsJoin` says which pairs these are and in which order they stand, and `matchMembers_join` that no
other list of pairs is one.

Of the source, the first member of each name is kept by `distinctBy`.  What is kept is what a search
for its key finds (`mem_distinctBy`), and it is kept in the order in which such searches end
(`pairwise_distinctBy`).
-/

namespace Scaffold

/-! ### What can be read and written -/

namespace TypeMember

variable {m : TypeMember}

/-- Public fields and getters can be read. -/
theorem isReadable_iff : m.isReadable = true ↔
    m.visibility = .exposed ∧ (m.kind = .field ∨ m.kind = .getter) := by
  obtain ⟨name, typeName, visibility, kind, stored⟩ := m
  cases visibility <;> cases kind <;> simp [isReadable, role]

/-- Public fields and setters can be written. -/
theorem isWritable_iff : m.isWritable = true ↔
    m.visibility = .exposed ∧ (m.kind = .field ∨ m.kind = .setter) := by
  obtain ⟨name, typeName, visibility, kind, stored⟩ := m
  cases visibility <;> cases kind <;> simp [isWritable, role]

end TypeMember

/-! ### The first element of each key -/

section DistinctBy

variable {α κ : Type} [BEq κ] [LawfulBEq κ] {key : α → κ}

theorem not_mem_seen_of_mem_distinctBy {seen : List κ} {as : List α} {a : α}
    (h : a ∈ distinctBy key seen as) : key a ∉ seen := by
  intro hseen
  have hmem : a ∈ (distinctBy key seen as).filter (key · == key a) :=
    List.mem_filter.2 ⟨h, beq_self_eq_true _⟩
  rw [filter_distinctBy, if_pos (List.contains_iff_mem.2 hseen)] at hmem
  cases hmem

/-- **What is kept** is the first element of its key. -/
theorem mem_distinctBy {as : List α} {a : α} :
    a ∈ distinctBy key [] as ↔ as.find? (key · == key a) = some a := by
  have hmem : a ∈ distinctBy key [] as ↔
      a ∈ (distinctBy key [] as).filter (key · == key a) := by
    simp [List.mem_filter]
  rw [hmem, filter_distinctBy, if_neg (by simp), Option.mem_toList, List.head?_filter]

/-- **The order of what is kept,** of the elements with a property, is that in which their keys
first come up with the property. -/
theorem pairwise_distinctBy (p : α → Bool) (seen : List κ) (as : List α) :
    (distinctBy key seen (as.filter p)).Pairwise fun a b =>
      as.findIdx (fun c => p c && key c == key a) <
        as.findIdx (fun c => p c && key c == key b) := by
  induction as generalizing seen with
  | nil => exact .nil
  | cons c as ih =>
    -- an element of another key is found one place further on
    have hshift {a : α} (ha : p c = true → key c ≠ key a) :
        (c :: as).findIdx (fun d => p d && key d == key a) =
          as.findIdx (fun d => p d && key d == key a) + 1 := by
      have hother : (p c && key c == key a) = false := by
        cases hp : p c with
        | true => rw [Bool.true_and, beq_false_of_ne (ha hp)]
        | false => rfl
      rw [List.findIdx_cons, hother, cond_false]
    have hlater {seen : List κ} (hseen : p c = true → key c ∈ seen) :
        (distinctBy key seen (as.filter p)).Pairwise fun a b =>
          (c :: as).findIdx (fun d => p d && key d == key a) <
            (c :: as).findIdx (fun d => p d && key d == key b) := by
      refine (ih seen).imp_of_mem fun {a b} ha hb hab => ?_
      have hother {a : α} (ha : a ∈ distinctBy key seen (as.filter p)) (hp : p c = true) :
          key c ≠ key a := fun heq => not_mem_seen_of_mem_distinctBy ha (heq ▸ hseen hp)
      rw [hshift (hother ha), hshift (hother hb)]
      exact Nat.succ_lt_succ hab
    cases hp : p c with
    | false =>
      rw [List.filter_cons_of_neg (by simp [hp])]
      exact hlater fun h => absurd h (by simp [hp])
    | true =>
      rw [List.filter_cons_of_pos hp, distinctBy]
      split_ifs with hseen
      · exact hlater fun _ => List.contains_iff_mem.1 hseen
      · refine List.pairwise_cons.2 ⟨fun b hb => ?_, hlater fun _ => List.mem_cons_self⟩
        have hother : key c ≠ key b := fun heq =>
          not_mem_seen_of_mem_distinctBy hb (heq ▸ List.mem_cons_self)
        have hfirst : (c :: as).findIdx (fun d => p d && key d == key c) = 0 := by
          rw [List.findIdx_cons, hp, beq_self_eq_true, Bool.and_self, cond_true]
        rw [hfirst, hshift fun _ => hother]
        exact Nat.succ_pos _

end DistinctBy

/-! ### The join -/

/-- Whether a member of the source can be read under a name. -/
def TypeMember.isReadableAs (name : String) (m : TypeMember) : Bool :=
  m.isReadable && m.name == name

/-- Whether a member of the destination can be written under a name. -/
def TypeMember.isWritableAs (name : String) (m : TypeMember) : Bool :=
  m.isWritable && m.name == name

namespace TypeMember

variable {m : TypeMember} {name : String}

theorem isReadableAs_iff : m.isReadableAs name = true ↔
    m.visibility = .exposed ∧ (m.kind = .field ∨ m.kind = .getter) ∧ m.name = name := by
  rw [isReadableAs, Bool.and_eq_true, isReadable_iff, beq_iff_eq, and_assoc]

theorem isWritableAs_iff : m.isWritableAs name = true ↔
    m.visibility = .exposed ∧ (m.kind = .field ∨ m.kind = .setter) ∧ m.name = name := by
  rw [isWritableAs, Bool.and_eq_true, isWritable_iff, beq_iff_eq, and_assoc]

end TypeMember

/-- Whether pairs join two lists of members: one pair for each name that can be read on the one side
and written on the other, made of the first such member of each, in the order in which the names can
first be read. -/
structure IsJoin (source dest : List TypeMember) (pairs : List MemberPair) : Prop where
  mem : ∀ pair, pair ∈ pairs ↔ ∃ s d, source.find? (·.isReadableAs pair.source) = some s ∧
    dest.find? (·.isWritableAs pair.source) = some d ∧ pair = ⟨s.name, s.kind, d.name, d.kind⟩
  order : pairs.Pairwise fun p q => source.findIdx (·.isReadableAs p.source) <
    source.findIdx (·.isReadableAs q.source)

section Join

variable {source dest : List TypeMember} {pair : MemberPair}

theorem pairWith_eq_some {s : TypeMember} : pairWith dest s = some pair ↔
    ∃ d, dest.find? (·.isWritableAs s.name) = some d ∧ pair = ⟨s.name, s.kind, d.name, d.kind⟩ := by
  rw [pairWith, Option.map_eq_some_iff]
  exact exists_congr fun d => and_congr_right fun _ => eq_comm

theorem find?_filter_isReadable (source : List TypeMember) (name : String) :
    (source.filter (·.isReadable)).find? (·.name == name) = source.find? (·.isReadableAs name) := by
  rw [List.find?_filter]
  simp only [Bool.decide_and, Bool.decide_eq_true]
  rfl

/-- **A pair** is made of the first members that can be read and written under its name. -/
theorem mem_matchMembers : pair ∈ matchMembers source dest ↔
    ∃ s d, source.find? (·.isReadableAs pair.source) = some s ∧
      dest.find? (·.isWritableAs pair.source) = some d ∧
      pair = ⟨s.name, s.kind, d.name, d.kind⟩ := by
  simp only [matchMembers, List.mem_filterMap, mem_distinctBy, find?_filter_isReadable,
    pairWith_eq_some]
  constructor
  · rintro ⟨s, hs, d, hd, rfl⟩
    exact ⟨s, d, hs, hd, rfl⟩
  · rintro ⟨s, d, hs, hd, rfl⟩
    exact ⟨s, hs, d, hd, rfl⟩

theorem isJoin_matchMembers (source dest : List TypeMember) :
    IsJoin source dest (matchMembers source dest) where
  mem _ := mem_matchMembers
  order := by
    have hnames : (distinctBy TypeMember.name [] (source.filter (·.isReadable))).Pairwise
        fun s s' => source.findIdx (·.isReadableAs s.name) <
          source.findIdx (·.isReadableAs s'.name) :=
      pairwise_distinctBy TypeMember.isReadable [] source
    refine hnames.filterMap _ fun s s' hlt pair hpair pair' hpair' => ?_
    obtain ⟨d, -, rfl⟩ := pairWith_eq_some.1 hpair
    obtain ⟨d', -, rfl⟩ := pairWith_eq_some.1 hpair'
    exact hlt

/-- There is one join of two lists. -/
theorem IsJoin.unique {pairs pairs' : List MemberPair} (h : IsJoin source dest pairs)
    (h' : IsJoin source dest pairs') : pairs = pairs' := by
  let before (p q : MemberPair) : Prop := source.findIdx (·.isReadableAs p.source) <
    source.findIdx (·.isReadableAs q.source)
  have hirrefl : Std.Irrefl before := ⟨fun _ => Nat.lt_irrefl _⟩
  have hantisymm : Std.Antisymm before := ⟨fun _ _ hpq hqp => absurd hpq (Nat.lt_asymm hqp)⟩
  exact List.Pairwise.eq_of_mem_iff h.order h'.order fun pair =>
    (h.mem pair).trans (h'.mem pair).symm

/-- **The names that are carried over** are those that can be read on the one side and written on
the other. -/
theorem mem_names_matchMembers {name : String} :
    name ∈ (matchMembers source dest).map (·.source) ↔
      (∃ s ∈ source, s.isReadableAs name = true) ∧ ∃ d ∈ dest, d.isWritableAs name = true := by
  constructor
  · intro hmem
    obtain ⟨pair, hpair, rfl⟩ := List.mem_map.1 hmem
    obtain ⟨s, d, hs, hd, -⟩ := mem_matchMembers.1 hpair
    exact ⟨⟨s, List.mem_of_find?_eq_some hs, List.find?_some hs⟩,
      d, List.mem_of_find?_eq_some hd, List.find?_some hd⟩
  · rintro ⟨hreadable, hwritable⟩
    obtain ⟨s, hs⟩ := Option.isSome_iff_exists.1 (List.find?_isSome.2 hreadable)
    obtain ⟨d, hd⟩ := Option.isSome_iff_exists.1 (List.find?_isSome.2 hwritable)
    have hname := (TypeMember.isReadableAs_iff.1 (List.find?_some hs)).2.2
    refine List.mem_map.2 ⟨⟨s.name, s.kind, d.name, d.kind⟩, ?_, hname⟩
    exact mem_matchMembers.2 ⟨s, d, hname ▸ hs, hname ▸ hd, rfl⟩

/-- A pair has one name, and no access that does not fit its side. -/
theorem access_of_mem_matchMembers (h : pair ∈ matchMembers source dest) :
    pair.dest = pair.source ∧ pair.sourceAccess ≠ .setter ∧ pair.destAccess ≠ .getter := by
  obtain ⟨s, d, hs, hd, heq⟩ := mem_matchMembers.1 h
  obtain ⟨-, hskind, -⟩ := TypeMember.isReadableAs_iff.1 (List.find?_some hs)
  obtain ⟨-, hdkind, hname⟩ := TypeMember.isWritableAs_iff.1 (List.find?_some hd)
  rw [heq]
  refine ⟨hname.trans (congrArg MemberPair.source heq), fun h => ?_, fun h => ?_⟩
  · simp [show s.kind = .setter from h] at hskind
  · simp [show d.kind = .getter from h] at hdkind

/-- What is not public takes no part. -/
theorem matchMembers_filter_exposed (source dest : List TypeMember) :
    matchMembers (source.filter (·.visibility = .exposed)) (dest.filter (·.visibility = .exposed)) =
      matchMembers source dest := by
  have hsource : (source.filter (·.visibility = .exposed)).filter (·.isReadable) =
      source.filter (·.isReadable) := by
    rw [List.filter_filter]
    refine List.filter_congr fun s _ => ?_
    rw [Bool.eq_iff_iff, Bool.and_eq_true, decide_eq_true_eq]
    exact ⟨And.left, fun h => ⟨h, (TypeMember.isReadable_iff.1 h).1⟩⟩
  have hdest : pairWith (dest.filter (·.visibility = .exposed)) = pairWith dest := by
    funext s
    rw [pairWith, pairWith, List.find?_filter]
    congr 2
    funext d
    rw [Bool.eq_iff_iff, decide_eq_true_eq, decide_eq_true_eq]
    refine ⟨And.right, fun h => ⟨?_, h⟩⟩
    exact (TypeMember.isWritable_iff.1 (Bool.and_eq_true_iff.1 h).1).1
  rw [matchMembers, matchMembers, hsource, hdest]

/-- **Pairing is the join** of what can be read in the source with what can be written in the
destination, and no other list is.  So the names that are carried over are those that a public field
or getter of the source and a public field or setter of the destination have, each of them once; no
member is read through a setter or written through a getter; and what is not public does not
matter. -/
theorem matchMembers_join (source dest : List TypeMember) :
    (∀ pairs, pairs = matchMembers source dest ↔ IsJoin source dest pairs) ∧
    (∀ name, name ∈ (matchMembers source dest).map (·.source) ↔
      (∃ s ∈ source, s.visibility = .exposed ∧ (s.kind = .field ∨ s.kind = .getter) ∧
        s.name = name) ∧
      ∃ d ∈ dest, d.visibility = .exposed ∧ (d.kind = .field ∨ d.kind = .setter) ∧
        d.name = name) ∧
    ((matchMembers source dest).map (·.source)).Nodup ∧
    ((matchMembers source dest).map (·.dest)).Nodup ∧
    (∀ pair ∈ matchMembers source dest, pair.dest = pair.source ∧ pair.sourceAccess ≠ .setter ∧
      pair.destAccess ≠ .getter) ∧
    matchMembers (source.filter (·.visibility = .exposed)) (dest.filter (·.visibility = .exposed)) =
      matchMembers source dest := by
  have hjoin := isJoin_matchMembers source dest
  have hsource : ((matchMembers source dest).map (·.source)).Nodup := by
    refine List.pairwise_map.2 (hjoin.order.imp fun {p q} hlt heq => ?_)
    rw [heq] at hlt
    exact Nat.lt_irrefl _ hlt
  have hdest : (matchMembers source dest).map (·.dest) =
      (matchMembers source dest).map (·.source) :=
    List.map_congr_left fun pair hpair => (access_of_mem_matchMembers hpair).1
  refine ⟨fun pairs => ⟨fun h => h ▸ hjoin, fun h => h.unique hjoin⟩, fun name => ?_, hsource,
    hdest ▸ hsource, fun pair => access_of_mem_matchMembers,
    matchMembers_filter_exposed source dest⟩
  simp only [mem_names_matchMembers, TypeMember.isReadableAs_iff, TypeMember.isWritableAs_iff]

/-- A type whose members have one name each more than once. -/
def kettle : List TypeMember :=
  [⟨"size", "u8", .exposed, .setter, false⟩, ⟨"size", "u8", .hidden, .field, true⟩,
    ⟨"lid", "Lid", .restricted, .field, true⟩, ⟨"size", "u16", .exposed, .getter, false⟩,
    ⟨"name", "String", .exposed, .field, true⟩, ⟨"size", "u8", .exposed, .field, true⟩]

/-- A type that is written in other ways than it is read. -/
def teapot : List TypeMember :=
  [⟨"name", "String", .exposed, .getter, false⟩, ⟨"lid", "Lid", .exposed, .field, true⟩,
    ⟨"name", "String", .exposed, .setter, false⟩, ⟨"size", "u8", .exposed, .field, true⟩,
    ⟨"name", "String", .exposed, .field, true⟩]

theorem matchMembers_join_kettle :
    IsJoin kettle teapot [⟨"size", .getter, "size", .field⟩, ⟨"name", .field, "name", .setter⟩] ∧
      "lid" ∉ (matchMembers kettle teapot).map (·.source) := by
  obtain ⟨hjoin, hnames, -⟩ := matchMembers_join kettle teapot
  refine ⟨(hjoin _).1 (by decide), fun hmem => ?_⟩
  obtain ⟨⟨s, hs, hexposed, -, hname⟩, -⟩ := (hnames "lid").1 hmem
  revert s
  decide

end Join

end Scaffold
