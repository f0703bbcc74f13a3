import ContextPolicy.Proofs.Prefixes.Built
import Mathlib.Logic.Basic

/-! Names and namespaces, one for one.

No namespace stands under two names in a table that was built, so the name that is found for a
namespace is the one that the namespace was given to (`Apart.name?_eq_some_iff`), and the table
can be kept as two maps, each of them the other one read backwards. `TwoWay` is a table that is
kept so and changes in place, where an insertion that is refused could leave one map ahead of
the other. `insert_twoWay` says that this does not happen: whatever is inserted, accepted or
not, the two maps are those of one table afterwards. -/
namespace ContextPolicy.Prefixes

variable {p q : Prefixes} {name space : String}

/-! ### Both directions -/

theorem space?_of_name? (h : p.name? space = some name) : p.space? name = some space := by
  obtain ⟨e, hfind, rfl⟩ := Option.map_eq_some_iff.mp h
  have hspace : e.2 = space := beq_iff_eq.mp (List.find?_some hfind :)
  exact hspace ▸ mem_entries_iff.mp (List.mem_of_find?_eq_some hfind)

theorem Apart.name?_eq_some_iff (hp : p.Apart) :
    p.name? space = some name ↔ p.space? name = some space := by
  refine ⟨space?_of_name?, fun h => ?_⟩
  cases hname : p.name? space with
  | none => exact absurd h (name?_eq_none_iff.mp hname name)
  | some other => rw [hp other name space (space?_of_name? hname) h]

/-! ### What is accepted -/

theorem insert_eq_ok_iff : p.insert name space = .ok q ↔ isWritable name space = true ∧
    (p.space? name = some space ∧ q = p ∨
      p.space? name = none ∧ p.name? space = none ∧ q = ⟨p.spaces.insert name space⟩) := by
  refine ⟨insert_ok, ?_⟩
  rintro ⟨hwritable, ⟨hthere, rfl⟩ | ⟨hname, hspace, rfl⟩⟩
  · simp [insert, hwritable, hthere]
  · simp [insert, hwritable, hname, hspace]

theorem fault_of_insert {fault : PrefixFault} (h : p.insert name space = .error fault) :
    fault = if isWritable name space then .duplicate name else .invalid name space := by
  unfold insert at h
  split at h
  · next hnew =>
    cases h
    rw [if_neg (by simpa using hnew)]
  · next hnew =>
    rw [if_pos (by simpa using hnew)]
    split at h
    · cases h
    · split at h <;> cases h
      rfl

/-- An insertion adds the one entry. -/
theorem space?_insert_eq_some_iff (h : p.insert name space = .ok q) {a s : String} :
    q.space? a = some s ↔ p.space? a = some s ∨ a = name ∧ s = space := by
  obtain ⟨-, ⟨hthere, rfl⟩ | ⟨hname, -, rfl⟩⟩ := insert_ok h
  · refine (or_iff_left_of_imp ?_).symm
    rintro ⟨rfl, rfl⟩
    exact hthere
  · rw [space?_insert]
    split
    · next heq =>
      subst heq
      rw [hname, Option.some_inj, or_iff_right nofun, and_iff_right rfl, eq_comm]
    · next hne => exact (or_iff_left fun heq => hne heq.1.symm).symm

/-- Backwards, an insertion adds the one entry too. -/
theorem Apart.name?_insert (hp : p.Apart) (h : p.insert name space = .ok q) (other : String) :
    q.name? other = if space = other then some name else p.name? other := by
  have hq := hp.insert h
  split
  · next heq =>
    subst heq
    exact hq.name?_eq_some_iff.mpr ((space?_insert_eq_some_iff h).mpr (.inr ⟨rfl, rfl⟩))
  · next hne =>
    ext a
    rw [hq.name?_eq_some_iff, hp.name?_eq_some_iff, space?_insert_eq_some_iff h]
    exact or_iff_left fun heq => hne heq.2.symm

/-! ### In place -/

/-- A table that is kept in both directions and changes in place. -/
structure TwoWay where
  /-- The namespace of each name. -/
  spaces : Std.ExtTreeMap String String
  /-- The name of each namespace. -/
  names : Std.ExtTreeMap String String

namespace TwoWay

/-- Binds a name and a namespace to each other, unless one of them is bound. -/
def bindNew (t : TwoWay) (name space : String) : Except PrefixFault Unit × TwoWay :=
  if t.spaces[name]?.isSome || t.names[space]?.isSome then (.error (.duplicate name), t)
  else (.ok (), ⟨t.spaces.insert name space, t.names.insert space name⟩)

/-- `Prefixes.insert` for such a table: whether the entry is accepted, and the table that is
left. -/
def insert (t : TwoWay) (name space : String) : Except PrefixFault Unit × TwoWay :=
  if !isWritable name space then (.error (.invalid name space), t)
  else if t.spaces[name]? = some space then (.ok (), t)
  else t.bindNew name space

/-- The table behind insertions one after the other, whether they are accepted or not. -/
def run (t : TwoWay) (calls : List (String × String)) : TwoWay :=
  calls.foldl (fun t call => (t.insert call.1 call.2).2) t

end TwoWay

/-- The entries of a table, read in both directions. -/
def twoWay (p : Prefixes) : TwoWay :=
  ⟨p.spaces, .ofList (p.entries.map Prod.swap)⟩

theorem Apart.distinct_swapped (hp : p.Apart) :
    (p.entries.map Prod.swap).Pairwise fun a b => ¬compare a.1 b.1 = .eq := by
  refine List.pairwise_map.mpr (Std.ExtTreeMap.distinct_keys_toList.imp_of_mem ?_)
  intro a b ha hb hne heq
  have hspace : a.2 = b.2 := Std.compare_eq_iff_eq.mp heq
  have hname := hp a.1 b.1 a.2 (mem_entries_iff.mp ha) (hspace ▸ mem_entries_iff.mp hb)
  exact hne (Std.compare_eq_iff_eq.mpr hname)

theorem Apart.names_twoWay (hp : p.Apart) (space : String) :
    p.twoWay.names[space]? = p.name? space := by
  cases hname : p.name? space with
  | none =>
    refine Std.ExtTreeMap.getElem?_ofList_of_contains_eq_false (Bool.eq_false_iff.mpr ?_)
    intro hcontains
    obtain ⟨e, he, rfl⟩ := List.mem_map.mp (List.contains_iff_mem.mp hcontains)
    obtain ⟨entry, hentry, rfl⟩ := List.mem_map.mp he
    exact name?_eq_none_iff.mp hname entry.1 (mem_entries_iff.mp hentry)
  | some name =>
    have hentry : (name, space) ∈ p.entries := mem_entries_iff.mpr (space?_of_name? hname)
    exact Std.ExtTreeMap.getElem?_ofList_of_mem Std.compare_self hp.distinct_swapped
      (List.mem_map_of_mem (f := Prod.swap) hentry)

/-- An insertion in place gives the two maps of the table with the entry, or leaves them both
as they are. -/
theorem Apart.insert_twoWay (hp : p.Apart) (name space : String) :
    p.twoWay.insert name space =
      match p.insert name space with
      | .ok q => (.ok (), q.twoWay)
      | .error fault => (.error fault, p.twoWay) := by
  have hspaces : p.twoWay.spaces[name]? = p.space? name := rfl
  rw [TwoWay.insert, TwoWay.bindNew, hspaces, hp.names_twoWay]
  cases hinsert : p.insert name space with
  | error fault =>
    unfold Prefixes.insert at hinsert
    split at hinsert
    · next hnew =>
      cases hinsert
      rw [if_pos hnew]
    · next hnew =>
      split at hinsert
      · cases hinsert
      · next hthere =>
        split at hinsert
        · next htaken =>
          cases hinsert
          rw [if_neg hnew, if_neg hthere, if_pos htaken]
        · cases hinsert
  | ok q =>
    obtain ⟨hwritable, ⟨hthere, rfl⟩ | ⟨hname, hspace, rfl⟩⟩ := insert_ok hinsert
    · simp [hwritable, hthere]
    · have hnames : p.twoWay.names.insert space name =
          (Prefixes.mk (p.spaces.insert name space)).twoWay.names := by
        refine Std.ExtTreeMap.ext_getElem? fun other => ?_
        rw [Std.ExtTreeMap.getElem?_insert, hp.names_twoWay, (hp.insert hinsert).names_twoWay,
          hp.name?_insert hinsert]
        simp only [Std.compare_eq_iff_eq]
      simp only [hwritable, hname, hspace, hnames]
      rfl

theorem Built.run_twoWay (hp : p.Built) (calls : List (String × String)) :
    ∃ q : Prefixes, q.Built ∧ p.twoWay.run calls = q.twoWay := by
  induction calls generalizing p with
  | nil => exact ⟨p, hp, rfl⟩
  | cons call rest ih =>
    show ∃ q : Prefixes, q.Built ∧ TwoWay.run (p.twoWay.insert call.1 call.2).2 rest = q.twoWay
    rw [hp.apart.insert_twoWay]
    cases hinsert : p.insert call.1 call.2 with
    | error fault => exact ih hp
    | ok q => exact ih (hp.insert hinsert)

/-! ### Tables of entries -/

theorem insertAll_cons_eq_ok_iff {e : String × String} {rest : List (String × String)} :
    p.insertAll (e :: rest) = .ok q ↔
      ∃ middle, p.insert e.1 e.2 = .ok middle ∧ middle.insertAll rest = .ok q := by
  rw [insertAll, List.foldlM_cons, bind_eq_ok]
  rfl

/-- Behind an insertion, a namespace is free if it was and is not the one of the new entry. -/
theorem Apart.free_insert_iff (hp : p.Apart) (h : p.insert name space = .ok q)
    (entries : List (String × String)) : (∀ e ∈ entries, q.name? e.2 = none) ↔
      space ∉ entries.map (·.2) ∧ ∀ e ∈ entries, p.name? e.2 = none := by
  have hfree : ∀ other, q.name? other = none ↔ other ≠ space ∧ p.name? other = none := by
    intro other
    rw [hp.name?_insert h]
    split
    · next heq => exact iff_of_false nofun fun hne => hne.1 heq.symm
    · next hne => exact (and_iff_right (Ne.symm hne)).symm
  simp only [hfree, List.mem_map, not_exists, not_and]
  exact forall₂_and

/-- Entries under names that are new and distinct are added if all of them can be declared and
no namespace is there already or comes twice. -/
theorem insertAll_eq_ok_iff (hp : p.Apart) {entries : List (String × String)}
    (hnew : ∀ e ∈ entries, p.space? e.1 = none) (hnames : (entries.map (·.1)).Nodup) :
    p.insertAll entries = .ok q ↔ (∀ e ∈ entries, isWritable e.1 e.2 = true) ∧
      ((entries.map (·.2)).Nodup ∧ ∀ e ∈ entries, p.name? e.2 = none) ∧
      q = ⟨p.spaces.insertMany entries⟩ := by
  induction entries generalizing p with
  | nil =>
    simp only [List.not_mem_nil, false_implies, implies_true, List.map_nil, List.nodup_nil,
      Std.ExtTreeMap.insertMany_nil, true_and, and_self]
    exact ⟨fun h => (Except.ok.inj h).symm, fun h => congrArg Except.ok h.symm⟩
  | cons e rest ih =>
    obtain ⟨hname, hnew⟩ := List.forall_mem_cons.mp hnew
    obtain ⟨hdistinct, hnames⟩ := List.nodup_cons.mp hnames
    have hstill : ∀ d ∈ rest, (Prefixes.mk (p.spaces.insert e.1 e.2)).space? d.1 = none := by
      intro d hd
      have hne : e.1 ≠ d.1 := fun heq => hdistinct (List.mem_map.mpr ⟨d, hd, heq.symm⟩)
      rw [space?_insert, if_neg hne, hnew d hd]
    rw [insertAll_cons_eq_ok_iff, List.forall_mem_cons, List.map_cons, List.nodup_cons,
      List.forall_mem_cons, Std.ExtTreeMap.insertMany_cons]
    constructor
    · rintro ⟨middle, hinsert, hrest⟩
      obtain ⟨hwritable, ⟨hthere, -⟩ | ⟨-, hspace, rfl⟩⟩ := insert_ok hinsert
      · rw [hname] at hthere
        cases hthere
      · obtain ⟨hall, ⟨hspaces, hfree⟩, rfl⟩ := (ih (hp.insert hinsert) hstill hnames).mp hrest
        obtain ⟨hother, hfree⟩ := (hp.free_insert_iff hinsert rest).mp hfree
        exact ⟨⟨hwritable, hall⟩, ⟨⟨hother, hspaces⟩, hspace, hfree⟩, rfl⟩
    · rintro ⟨⟨hwritable, hall⟩, ⟨⟨hother, hspaces⟩, hspace, hfree⟩, rfl⟩
      have hinsert : p.insert e.1 e.2 = .ok ⟨p.spaces.insert e.1 e.2⟩ :=
        insert_eq_ok_iff.mpr ⟨hwritable, .inr ⟨hname, hspace, rfl⟩⟩
      have hfree := (hp.free_insert_iff hinsert rest).mpr ⟨hother, hfree⟩
      exact ⟨_, hinsert, (ih (hp.insert hinsert) hstill hnames).mpr ⟨hall, ⟨hspaces, hfree⟩, rfl⟩⟩

theorem ofList_toList (m : Std.ExtTreeMap String String) :
    Std.ExtTreeMap.ofList m.toList = m := by
  refine Std.ExtTreeMap.ext_getElem? fun name => ?_
  cases hspace : m[name]? with
  | none =>
    refine Std.ExtTreeMap.getElem?_ofList_of_contains_eq_false (Bool.eq_false_iff.mpr ?_)
    intro hcontains
    obtain ⟨e, he, rfl⟩ := List.mem_map.mp (List.contains_iff_mem.mp hcontains)
    rw [Std.ExtTreeMap.mem_toList_iff_getElem?_eq_some.mp he] at hspace
    cases hspace
  | some space =>
    exact Std.ExtTreeMap.getElem?_ofList_of_mem Std.compare_self
      Std.ExtTreeMap.distinct_keys_toList
      (Std.ExtTreeMap.mem_toList_iff_getElem?_eq_some.mpr hspace)

/-- A table of the entries of a map is made if all of them can be declared and their namespaces
are distinct. It holds these entries and no others. -/
theorem ofList_eq_ok_iff {m : Std.ExtTreeMap String String} :
    ofList m.toList = .ok q ↔ (∀ e ∈ m.toList, isWritable e.1 e.2 = true) ∧
      (m.toList.map (·.2)).Nodup ∧ q.spaces = m := by
  have hmany : (∅ : Prefixes).spaces.insertMany m.toList = m :=
    Std.ExtTreeMap.ofList_eq_insertMany_empty.symm.trans (ofList_toList m)
  have hnames : (m.toList.map (·.1)).Nodup := by
    refine List.pairwise_map.mpr (Std.ExtTreeMap.distinct_keys_toList.imp ?_)
    exact fun hne heq => hne (Std.compare_eq_iff_eq.mpr heq)
  have hfree : ∀ e ∈ m.toList, (∅ : Prefixes).name? e.2 = none := fun e _ =>
    name?_eq_none_iff.mpr fun name h => nomatch (space?_empty name).symm.trans h
  rw [ofList, ofList_toList, insertAll_eq_ok_iff Built.empty.apart (fun e _ => space?_empty e.1)
    hnames, hmany, and_iff_left hfree]
  refine and_congr_right fun _ => and_congr_right fun _ => ?_
  exact ⟨fun h => congrArg spaces h, fun h => congrArg Prefixes.mk h⟩

/-! ### Insertions -/

/-- Whatever is inserted into an empty or a default table, accepted or not, a name has a
namespace exactly where the namespace has the name. An entry is accepted if it can be declared
and is there already, or neither side of it is bound; the table then holds it and is the same
otherwise. If it is refused, the table stays as it is, in both directions. So the entries of a
map are accepted together if all of them can be declared and their namespaces are distinct. -/
theorem run_one_for_one {start : Prefixes} (hstart : start = ∅ ∨ start = defaults)
    (calls : List (String × String)) :
    (∃ p : Prefixes, p.Built ∧ start.twoWay.run calls = p.twoWay ∧
      (∀ name space, p.space? name = some space ↔ p.name? space = some name) ∧
      ∀ name space,
        ((∃ q, p.insert name space = .ok q) ↔
          ((isBookkeeping name ∨ PrefixName.writable name) ∧ Iri.writable space) ∧
            (p.space? name = some space ∨ p.space? name = none ∧ p.name? space = none)) ∧
        (∀ q, p.insert name space = .ok q →
          ∀ e, e ∈ q.entries ↔ e ∈ p.entries ∨ e = (name, space)) ∧
        (∀ fault, p.insert name space = .error fault →
          fault = if isWritable name space then .duplicate name else .invalid name space) ∧
        p.twoWay.insert name space =
          match p.insert name space with
          | .ok q => (.ok (), q.twoWay)
          | .error fault => (.error fault, p.twoWay)) ∧
    ∀ (m : Std.ExtTreeMap String String) (q : Prefixes),
      ofList m.toList = .ok q ↔ (∀ e ∈ m.toList, isWritable e.1 e.2 = true) ∧
        (m.toList.map (·.2)).Nodup ∧ q.spaces = m := by
  have hbuilt : start.Built := by
    rcases hstart with rfl | rfl
    · exact .empty
    · exact .defaults
  obtain ⟨p, hp, hrun⟩ := hbuilt.run_twoWay calls
  refine ⟨⟨p, hp, hrun, fun name space => hp.apart.name?_eq_some_iff.symm, fun name space =>
    ⟨?_, fun q hq e => ?_, fun _ => fault_of_insert, hp.apart.insert_twoWay name space⟩⟩,
    fun m q => ofList_eq_ok_iff⟩
  · simp only [insert_eq_ok_iff, isWritable, Bool.and_eq_true, Bool.or_eq_true]
    constructor
    · rintro ⟨q, hwritable, ⟨hthere, -⟩ | ⟨hname, hspace, -⟩⟩
      · exact ⟨hwritable, .inl hthere⟩
      · exact ⟨hwritable, .inr ⟨hname, hspace⟩⟩
    · rintro ⟨hwritable, hthere | ⟨hname, hspace⟩⟩
      · exact ⟨p, hwritable, .inl ⟨hthere, rfl⟩⟩
      · exact ⟨_, hwritable, .inr ⟨hname, hspace, rfl⟩⟩
  · rw [mem_entries_iff, mem_entries_iff, space?_insert_eq_some_iff hq, Prod.ext_iff]

/-- Among two entries that are accepted, a name that has another namespace, a namespace that has
another name, both at once, and a name that no declaration can hold. -/
theorem run_one_for_one_clashes :
    let calls := [("ex", "urn:a:"), ("ex", "urn:c:"), ("v", "urn:a:"), ("a b", "urn:c:"),
      ("@base", "urn:b:"), ("ex", "urn:b:")]
    ∃ p : Prefixes, (∅ : Prefixes).twoWay.run calls = p.twoWay ∧
      p.entries = [("@base", "urn:b:"), ("ex", "urn:a:")] ∧ p.name? "urn:a:" = some "ex" ∧
      p.twoWay.insert "ex" "urn:b:" = (.error (.duplicate "ex"), p.twoWay) := by
  intro calls
  obtain ⟨p, -, hrun, hboth, hinsert⟩ := (run_one_for_one (.inl rfl) calls).1
  have hspaces : ((∅ : Prefixes).twoWay.run calls).spaces =
      .ofList [("@base", "urn:b:"), ("ex", "urn:a:")] := by decide +kernel
  obtain rfl : p = ⟨.ofList [("@base", "urn:b:"), ("ex", "urn:a:")]⟩ :=
    congrArg Prefixes.mk ((congrArg TwoWay.spaces hrun).symm.trans hspaces)
  refine ⟨_, hrun, by decide +kernel, (hboth "ex" "urn:a:").mp (by decide +kernel), ?_⟩
  obtain ⟨haccept, -, hfault, hplace⟩ := hinsert "ex" "urn:b:"
  rw [hplace]
  split
  · next q hq => exact absurd (haccept.mp ⟨q, hq⟩) (by decide +kernel)
  · next fault herror => rw [hfault fault herror, if_pos (by decide +kernel)]

end ContextPolicy.Prefixes
