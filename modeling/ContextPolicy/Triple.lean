import ContextPolicy.Term.Writable
import ContextPolicy.Term.Written

/-! Triples. A predicate is an IRI by its type; that a subject is no literal, and that
the written form of a triple can be read back, is what `Triple.ofTerms` checks. -/
namespace ContextPolicy

structure Triple where
  subject : Term
  predicate : String
  object : Term
deriving DecidableEq, Repr

inductive Position where
  | subject
  | predicate
  | object
deriving DecidableEq, Repr

namespace Position

def all : List Position :=
  [subject, predicate, object]

def name : Position → String
  | subject => "subject"
  | predicate => "predicate"
  | object => "object"

end Position

/-- Why three terms make no triple. -/
inductive TripleFault where
  | misplaced (position : Position) (term : Term)
  | unwritable (position : Position) (term : Term)
deriving DecidableEq, Repr

def TripleFault.message : TripleFault → String
  | misplaced position term =>
    term.toText ++ " cannot be used as the " ++ position.name ++ " of a triple"
  | unwritable position term =>
    term.shown ++ " in " ++ position.name ++ " position cannot be written as turtle"

namespace Triple

/-- The term in a position. -/
def term (t : Triple) : Position → Term
  | .subject => t.subject
  | .predicate => .named t.predicate
  | .object => t.object

/-- The first term that its position cannot hold, else the first that cannot be written. -/
def ofTerms (subject predicate object : Term) : Except TripleFault Triple :=
  if subject.isLiteral then .error (.misplaced .subject subject)
  else
    match predicate.iri? with
    | none => .error (.misplaced .predicate predicate)
    | some iri =>
      if !subject.writable then .error (.unwritable .subject subject)
      else if !predicate.writable then .error (.unwritable .predicate predicate)
      else if !object.writable then .error (.unwritable .object object)
      else .ok ⟨subject, iri, object⟩

/-- What `ofTerms` asks of a triple that it gives. -/
def Valid (t : Triple) : Prop :=
  t.subject.isLiteral = false ∧ t.subject.writable ∧ Iri.writable t.predicate ∧ t.object.writable

instance (t : Triple) : Decidable t.Valid :=
  inferInstanceAs (Decidable (_ ∧ _))

theorem ofTerms_valid_iff (t : Triple) :
    ofTerms t.subject (.named t.predicate) t.object = .ok t ↔ t.Valid := by
  unfold Valid ofTerms
  cases hl : t.subject.isLiteral <;> cases hs : t.subject.writable <;>
    cases hp : Iri.writable t.predicate <;> cases ho : t.object.writable <;>
    simp [Term.iri?, Term.writable, hp]

theorem valid_of_ofTerms {subject predicate object : Term} {t : Triple}
    (h : ofTerms subject predicate object = .ok t) : t.Valid := by
  have hself : subject = t.subject ∧ predicate = .named t.predicate ∧ object = t.object := by
    unfold ofTerms at h
    split at h
    · cases h
    · cases predicate with
      | named iri =>
        simp only [Term.iri?] at h
        repeat' split at h
        all_goals cases h
        exact ⟨rfl, rfl, rfl⟩
      | blank label => cases h
      | literal value datatype lang => cases h
  obtain ⟨rfl, rfl, rfl⟩ := hself
  exact (ofTerms_valid_iff t).mp h

/-- The triple with its subject and its object replaced. -/
def mapNodes (f : Term → Term) (t : Triple) : Triple :=
  ⟨f t.subject, t.predicate, f t.object⟩

/-! ### Written form -/

def written (t : Triple) : List Char :=
  t.subject.written ++ ' ' :: (Term.named t.predicate).written ++ ' ' :: t.object.written ++
    [' ', '.']

def toText (t : Triple) : String :=
  String.ofList t.written

/-- A triple as a line of the canonical text. -/
def line (t : Triple) : List Char :=
  t.written ++ ['\n']

end Triple

end ContextPolicy
