import ContextPolicy.Proofs.Condition.Terms
import ContextPolicy.Proofs.Document.ReadBack
import ContextPolicy.Proofs.Session.Relabel

/-! The written form of a condition.

Conditions are written with absolute IRIs, which a reader takes as they stand against any
base (`Iri.Absolute.resolve`), and with labels that the grammar has, also where they are
relabelled (`Composed.relabel`). So only the root can be read as something else: it comes
from the settings, and may be a reference that resolves to another IRI. `Triple.reroot` is
what becomes of a triple then, and `Composed.statement` that its line is read so. -/
namespace ContextPolicy

open Turtle

/-! ### Absolute IRIs -/

namespace Iri

/-- An IRI with a scheme, and without dot segments. -/
def Absolute (cs : List Char) : Prop :=
  (parts cs).scheme.isSome ∧
    ({ parts cs with path := removeDots (parts cs).path } : Parts).join = cs

instance (cs : List Char) : Decidable (Absolute cs) :=
  inferInstanceAs (Decidable (_ ∧ _))

theorem scheme_of_colon (cs : List Char) : (parts (':' :: cs)).scheme = none :=
  rfl

theorem Absolute.resolve {cs : List Char} (h : Absolute cs) (b : Base) :
    b.resolve cs = some cs := by
  obtain ⟨hscheme, hjoin⟩ := h
  have hcolon : cs.head? ≠ some ':' := by
    intro hhead
    obtain ⟨rest, rfl⟩ := List.head?_eq_some_iff.mp hhead
    rw [scheme_of_colon] at hscheme
    cases hscheme
  unfold Base.resolve
  rw [if_neg hcolon]
  cases b with
  | none => exact if_pos hscheme
  | some base =>
    show some (resolveParts base (parts cs)).join = _
    rw [resolveParts, if_pos hscheme]
    exact congrArg some hjoin

end Iri

/-! ### Terms of conditions -/

theorem readable_of_mem_conditionIris {iri : String} (h : iri ∈ conditionIris) (b : Iri.Base) :
    Iri.Readable b.resolve iri := by
  have hall : ∀ iri ∈ conditionIris, IsReference iri.toList ∧ Iri.Absolute iri.toList := by
    decide +kernel
  exact ⟨(hall iri h).1, (hall iri h).2.resolve b⟩

theorem isLabel_conditionLabel (n : Nat) : IsLabel (conditionLabel n).toList := by
  obtain ⟨ds, htext, hds⟩ := toList_conditionLabel n
  have hrest : ∀ c ∈ 'c' :: ds, isNameChar c = true ∧ c ≠ '.' := by
    rw [List.forall_mem_cons]
    refine ⟨by decide, fun c hc => ?_⟩
    have hdigit := hds c hc
    refine ⟨by simp [isNameChar, isLabelStart, hdigit], ?_⟩
    rintro rfl
    cases hdigit
  rw [htext]
  refine ⟨by decide, fun c hc => .inl (hrest c hc).1, fun hlast => ?_⟩
  exact (hrest '.' (List.mem_of_getLast? hlast)).2 rfl

theorem Term.OfCondition.readable {x : Term} (h : x.OfCondition) (b : Iri.Base) :
    x.Readable b.resolve := by
  cases h with
  | node k => exact isLabel_conditionLabel k
  | named h => exact readable_of_mem_conditionIris h b
  | plain value => trivial
  | typed value h => exact readable_of_mem_conditionIris h b

/-! ### Labels -/

/-- A condition with new labels is written with the same terms. -/
theorem Composed.relabel {iri : String} {ts : List Triple}
    (h : ∀ t ∈ ts, Composed (.named iri) t) (taken : List String) :
    ∀ t ∈ relabel taken ts, Composed (.named iri) t := by
  intro u hu
  rw [relabel_eq] at hu
  obtain ⟨t, ht, rfl⟩ := List.mem_map.mp hu
  obtain ⟨hsubject, hpredicate, hobject⟩ := h t ht
  have hlabel : ∀ label, (t.subject = .blank label ∨ t.object = .blank label) →
      ∃ k, relabelling taken ts label = conditionLabel k :=
    fun label hx => relabelling_eq_conditionLabel (mem_labelsOf.mpr ⟨t, ht, hx⟩)
  refine ⟨?_, hpredicate, ?_⟩
  · show t.subject.rename _ = _ ∨ ∃ k, t.subject.rename _ = conditionNode k
    obtain hroot | ⟨k, hnode⟩ := hsubject
    · rw [hroot]
      exact .inl rfl
    · obtain ⟨j, hj⟩ := hlabel _ (.inl hnode)
      rw [hnode]
      exact .inr ⟨j, congrArg Term.blank hj⟩
  · show (t.object.rename _).OfCondition
    cases hterm : t.object with
    | blank label =>
      obtain ⟨k, hk⟩ := hlabel _ (.inr hterm)
      rw [Term.rename, hk]
      exact .node k
    | named iri | literal value datatype lang => rwa [hterm] at hobject

/-! ### Roots -/

/-- The triple with another IRI for its subject, if that is the root. -/
def Triple.reroot (root : Term) (iri : List Char) (t : Triple) : Triple :=
  if t.subject = root then { t with subject := .named (String.ofList iri) } else t

section Reroot
variable {iri : String} {resolved : List Char} {t : Triple}

theorem Triple.reroot_self : t.reroot (.named iri) iri.toList = t := by
  rw [reroot, String.ofList_toList]
  split_ifs with hsubject
  · rw [← hsubject]
  · rfl

theorem Triple.reroot_subject_ne (h : resolved ≠ iri.toList) :
    (t.reroot (.named iri) resolved).subject ≠ .named iri := by
  rw [reroot]
  split_ifs with hsubject
  · intro heq
    rw [← Term.named.inj heq, String.toList_ofList] at h
    exact h rfl
  · exact hsubject

/-- A triple is read with the IRI that its root resolves to, and otherwise as it is. -/
theorem Composed.statement {b : Iri.Base} (h : Composed (.named iri) t)
    (hroot : IsReference iri.toList) (hresolved : b.resolve iri.toList = some resolved) :
    Statement b.resolve t.written [t.reroot (.named iri) resolved] := by
  have hpredicate := (readable_of_mem_conditionIris h.predicate b).iriText
  have hobject := (h.object.readable b).termText
  rw [Triple.reroot]
  split_ifs with hsubject
  · refine Triple.statement_of_texts ?_ rfl hpredicate hobject
    rw [hsubject]
    exact .iri (.reference hroot hresolved)
  · obtain hself | ⟨k, hnode⟩ := h.subject
    · exact absurd hself hsubject
    · have htext := ((Term.OfCondition.node k).readable b).termText
      exact Triple.statement_of_texts (hnode ▸ htext) (hnode ▸ rfl) hpredicate hobject

end Reroot

end ContextPolicy
