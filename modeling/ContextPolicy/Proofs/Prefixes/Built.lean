import ContextPolicy.Prefixes
import ContextPolicy.Proofs.Outcome

/-! Tables of prefixes as they are built.

A table grows by insertions, from the empty table, the default one or one that was read from
a list. What an insertion checks (`insert_ok`) it keeps: names and namespaces that a
declaration can hold (`Writable`), and no namespace under two names (`Apart`). -/
namespace ContextPolicy.Prefixes

variable {p q : Prefixes} {name space : String}

/-! ### Entries -/

theorem mem_entries_iff {e : String × String} : e ∈ p.entries ↔ p.space? e.1 = some e.2 :=
  Std.ExtTreeMap.mem_toList_iff_getElem?_eq_some

theorem mem_declarations_iff {e : String × String} :
    e ∈ p.declarations ↔ p.space? e.1 = some e.2 ∧ isBookkeeping e.1 = false := by
  rw [declarations, List.mem_filter, mem_entries_iff, Bool.not_eq_true']

theorem name?_eq_none_iff : p.name? space = none ↔ ∀ name, p.space? name ≠ some space := by
  rw [name?, Option.map_eq_none_iff, List.find?_eq_none]
  constructor
  · exact fun h name hname => h (name, space) (mem_entries_iff.mpr hname) (beq_self_eq_true space)
  · intro h e he hspace
    rw [← beq_iff_eq.mp hspace] at h
    exact h e.1 (mem_entries_iff.mp he)

/-! ### Insertions -/

theorem isWritable_iff (hdata : isBookkeeping name = false) :
    isWritable name space = true ↔
      PrefixName.writable name = true ∧ Iri.writable space = true := by
  rw [isWritable, hdata, Bool.false_or, Bool.and_eq_true]

/-- What an insertion has checked, and the table that it gives. -/
theorem insert_ok (h : p.insert name space = .ok q) :
    isWritable name space = true ∧
      (p.space? name = some space ∧ q = p ∨
        p.space? name = none ∧ p.name? space = none ∧ q = ⟨p.spaces.insert name space⟩) := by
  unfold insert at h
  split at h
  · cases h
  · next hnew =>
    refine ⟨by simpa using hnew, ?_⟩
    split at h
    · next hthere =>
      cases h
      exact .inl ⟨hthere, rfl⟩
    · split at h
      · cases h
      · next htaken =>
        cases h
        simp only [Bool.or_eq_true, not_or, Option.not_isSome_iff_eq_none] at htaken
        exact .inr ⟨htaken.1, htaken.2, rfl⟩

theorem space?_insert (other : String) :
    (Prefixes.mk (p.spaces.insert name space)).space? other =
      if name = other then some space else p.space? other := by
  simp only [space?, Std.ExtTreeMap.getElem?_insert, Std.compare_eq_iff_eq]

/-- All names and namespaces can be declared. -/
def Writable (p : Prefixes) : Prop :=
  ∀ name space, p.space? name = some space → isWritable name space = true

/-- No namespace stands under two names. -/
def Apart (p : Prefixes) : Prop :=
  ∀ a b space, p.space? a = some space → p.space? b = some space → a = b

theorem Writable.insert (hp : p.Writable) (h : p.insert name space = .ok q) : q.Writable := by
  obtain ⟨hnew, ⟨-, rfl⟩ | ⟨-, -, rfl⟩⟩ := insert_ok h
  · exact hp
  · intro other space' hother
    rw [space?_insert] at hother
    split at hother
    · next heq =>
      cases hother
      exact heq ▸ hnew
    · exact hp other space' hother

theorem Apart.insert (hp : p.Apart) (h : p.insert name space = .ok q) : q.Apart := by
  obtain ⟨-, ⟨-, rfl⟩ | ⟨-, hspace, rfl⟩⟩ := insert_ok h
  · exact hp
  · have hnone := name?_eq_none_iff.mp hspace
    intro a b s ha hb
    rw [space?_insert] at ha hb
    split at ha <;> split at hb
    · next hname hname' => exact hname.symm.trans hname'
    · cases ha
      exact absurd hb (hnone b)
    · cases hb
      exact absurd ha (hnone a)
    · exact hp a b s ha hb

/-! ### Tables -/

/-- The tables that can be made. An insertion that fails leaves the table as it is. -/
inductive Built : Prefixes → Prop
  | empty : Built ∅
  | defaults : Built defaults
  | ofList {entries : List (String × String)} {p : Prefixes} (h : ofList entries = .ok p) : Built p
  | insert {p q : Prefixes} {name space : String} (hp : Built p)
    (h : p.insert name space = .ok q) : Built q

/-- What the first tables have and each insertion keeps, all tables have. -/
theorem Built.keeps {P : Prefixes → Prop} (hempty : P ∅) (hdefaults : P Prefixes.defaults)
    (hinsert : ∀ {p q name space}, P p → p.insert name space = .ok q → P q) (h : p.Built) :
    P p := by
  induction h with
  | empty => exact hempty
  | defaults => exact hdefaults
  | ofList h => exact foldlM_keeps (fun _ _ _ => hinsert) hempty h
  | insert _ h ih => exact hinsert ih h

theorem space?_empty (name : String) : (∅ : Prefixes).space? name = none :=
  Std.ExtTreeMap.getElem?_empty

theorem writable_defaults : defaults.Writable := by
  have hentries : ∀ e ∈ defaults.entries, isWritable e.1 e.2 = true := by
    decide +kernel
  exact fun name space h => hentries (name, space) (mem_entries_iff.mpr h)

theorem apart_defaults : defaults.Apart := by
  have hentries : ∀ d ∈ defaults.entries, ∀ e ∈ defaults.entries, d.2 = e.2 → d.1 = e.1 := by
    decide +kernel
  exact fun a b space ha hb =>
    hentries (a, space) (mem_entries_iff.mpr ha) (b, space) (mem_entries_iff.mpr hb) rfl

theorem Built.writable (h : p.Built) : p.Writable := by
  refine h.keeps (fun name space hspace => ?_) writable_defaults Writable.insert
  rw [space?_empty] at hspace
  cases hspace

theorem Built.apart (h : p.Built) : p.Apart := by
  refine h.keeps (fun a b space hspace => ?_) apart_defaults Apart.insert
  rw [space?_empty] at hspace
  cases hspace

end ContextPolicy.Prefixes
