import ContextPolicy.Facts
import ContextPolicy.Proofs.Outcome

/-! What is asked for, one thing after the other.

A check is told by its requirements, in the order in which they are looked at, each with the
fault of what does not meet it. The check `Obeys` them if it fails exactly with the fault of the
first that is not met; it then succeeds exactly if all are met (`Obeys.ok_iff`). Checks one
behind the other obey their requirements one behind the other (`Obeys.bind`). -/
namespace ContextPolicy

structure Requirement where
  fault : ValidationFault
  met : Prop

namespace Requirement

/-- The fault of the first requirement that is not met. -/
inductive FirstUnmet : List Requirement → ValidationFault → Prop
  | here {r : Requirement} {rest : List Requirement} (h : ¬r.met) : FirstUnmet (r :: rest) r.fault
  | behind {r : Requirement} {rest : List Requirement} {fault : ValidationFault} (hr : r.met)
    (h : FirstUnmet rest fault) : FirstUnmet (r :: rest) fault

section
variable {r : Requirement} {rs qs : List Requirement} {fault : ValidationFault}

theorem not_firstUnmet_nil : ¬FirstUnmet [] fault :=
  nofun

theorem firstUnmet_cons_iff :
    FirstUnmet (r :: rs) fault ↔ ¬r.met ∧ r.fault = fault ∨ r.met ∧ FirstUnmet rs fault := by
  constructor
  · intro h
    cases h with
    | here h => exact .inl ⟨h, rfl⟩
    | behind hr h => exact .inr ⟨hr, h⟩
  · rintro (⟨h, rfl⟩ | ⟨hr, h⟩)
    · exact .here h
    · exact .behind hr h

theorem firstUnmet_append_iff : FirstUnmet (rs ++ qs) fault ↔
    FirstUnmet rs fault ∨ (∀ r ∈ rs, r.met) ∧ FirstUnmet qs fault := by
  induction rs with
  | nil => simp [not_firstUnmet_nil]
  | cons r rest ih =>
    rw [List.cons_append, firstUnmet_cons_iff, firstUnmet_cons_iff, ih, List.forall_mem_cons]
    rw [and_or_left, or_assoc, and_assoc]

/-- Unless all are met, there is a first that is not. -/
theorem all_met_iff : (∀ r ∈ rs, r.met) ↔ ∀ fault, ¬FirstUnmet rs fault := by
  induction rs with
  | nil => simp [not_firstUnmet_nil]
  | cons r rest ih =>
    simp only [List.forall_mem_cons, ih, firstUnmet_cons_iff]
    by_cases hr : r.met
    · simp [hr]
    · simp [hr]

theorem exists_of_firstUnmet (h : FirstUnmet rs fault) : ∃ r ∈ rs, r.fault = fault := by
  induction h with
  | here => exact ⟨_, List.mem_cons_self, rfl⟩
  | behind _ _ ih =>
    obtain ⟨r, hr, hfault⟩ := ih
    exact ⟨r, List.mem_cons_of_mem _ hr, hfault⟩

/-- Among requirements group by group, the first that is not met is in the first group with any. -/
theorem firstUnmet_flatMap_iff {α : Type} {as : List α} {f : α → List Requirement} :
    FirstUnmet (as.flatMap f) fault ↔ ∃ before a behind, as = before ++ a :: behind ∧
      FirstUnmet (f a) fault ∧ ∀ b ∈ before, ∀ r ∈ f b, r.met := by
  induction as with
  | nil => simp [not_firstUnmet_nil]
  | cons a rest ih =>
    rw [List.flatMap_cons, firstUnmet_append_iff, ih]
    constructor
    · rintro (h | ⟨ha, before, b, behind, rfl, hb, hbefore⟩)
      · exact ⟨[], a, rest, rfl, h, fun b hb => absurd hb List.not_mem_nil⟩
      · exact ⟨a :: before, b, behind, rfl, hb, List.forall_mem_cons.mpr ⟨ha, hbefore⟩⟩
    · rintro ⟨before, b, behind, hsplit, hb, hbefore⟩
      cases before with
      | nil =>
        obtain ⟨rfl, -⟩ := List.cons.inj hsplit
        exact .inl hb
      | cons c before =>
        obtain ⟨rfl, rfl⟩ := List.cons.inj hsplit
        obtain ⟨ha, hbefore⟩ := List.forall_mem_cons.mp hbefore
        exact .inr ⟨ha, before, b, behind, rfl, hb, hbefore⟩

end

/-- The check fails exactly with the fault of the first requirement that is not met. -/
def Obeys {α : Type} (x : Except ValidationFault α) (rs : List Requirement) : Prop :=
  ∀ fault, x = .error fault ↔ FirstUnmet rs fault

namespace Obeys
variable {α β : Type} {x : Except ValidationFault α} {r : Requirement} {rs qs : List Requirement}

theorem ok_iff (h : Obeys x rs) : (∃ a, x = .ok a) ↔ ∀ r ∈ rs, r.met := by
  rw [all_met_iff]
  simp only [← h _]
  cases x with
  | ok a => simp
  | error fault => simp

theorem ok (a : α) : Obeys (.ok a) [] :=
  fun _ => ⟨nofun, nofun⟩

theorem single (hmet : r.met → ∃ a, x = .ok a) (hunmet : ¬r.met → x = .error r.fault) :
    Obeys x [r] := by
  intro fault
  rw [firstUnmet_cons_iff]
  by_cases hr : r.met
  · obtain ⟨a, rfl⟩ := hmet hr
    simp [hr, not_firstUnmet_nil]
  · rw [hunmet hr]
    simp [hr]

theorem bind {f : α → Except ValidationFault β} (hx : Obeys x rs)
    (hf : ∀ a, x = .ok a → Obeys (f a) qs) : Obeys (x >>= f) (rs ++ qs) := by
  intro fault
  rw [bind_eq_error, firstUnmet_append_iff, hx fault, ← hx.ok_iff]
  refine or_congr_right ⟨?_, ?_⟩
  · rintro ⟨a, ha, hfault⟩
    exact ⟨⟨a, ha⟩, (hf a ha fault).mp hfault⟩
  · rintro ⟨⟨a, ha⟩, hfault⟩
    exact ⟨a, ha, (hf a ha fault).mpr hfault⟩

theorem map {f : α → β} (hx : Obeys x rs) : Obeys (x.map f) rs := by
  intro fault
  rw [← hx fault]
  cases x <;> simp [Except.map]

end Obeys

end Requirement

end ContextPolicy
