/-! The terms of a graph: IRIs, blank nodes and literals, and the order in which sorted
collections hold them: IRIs before blank nodes before literals, terms of one kind by
their texts, a missing tag before any. -/
namespace ContextPolicy

inductive Term where
  | named (iri : String)
  | blank (label : String)
  /-- The value of a literal, with the IRI of its datatype and its language tag. -/
  | literal (value : String) (datatype lang : Option String)
deriving DecidableEq, Repr

namespace Term

def isLiteral : Term → Bool
  | literal .. => true
  | _ => false

def isBlank : Term → Bool
  | blank _ => true
  | _ => false

def literalValue? : Term → Option String
  | literal value .. => some value
  | _ => none

def iri? : Term → Option String
  | named iri => some iri
  | _ => none

def label? : Term → Option String
  | blank label => some label
  | _ => none

/-- A literal without a tag. -/
def plain (value : String) : Term :=
  literal value none none

/-- A literal of a datatype. -/
def typed (value datatype : String) : Term :=
  literal value (some datatype) none

/-- A literal in a language. -/
def tagged (value lang : String) : Term :=
  literal value none (some lang)

/-! ### Order -/

/-- The place of a term's kind among the kinds. -/
def rank : Term → Nat
  | named _ => 0
  | blank _ => 1
  | literal .. => 2

/-- The text that every term has: its IRI, label or value. -/
def content : Term → String
  | named iri => iri
  | blank label => label
  | literal value .. => value

def datatype? : Term → Option String
  | literal _ datatype _ => datatype
  | _ => none

def lang? : Term → Option String
  | literal _ _ lang => lang
  | _ => none

instance : Ord Term where
  compare := compareLex (compareOn rank)
    (compareLex (compareOn content) (compareLex (compareOn datatype?) (compareOn lang?)))

theorem compare_def (a b : Term) : compare a b =
    (compare a.rank b.rank).then ((compare a.content b.content).then
      ((compare a.datatype? b.datatype?).then (compare a.lang? b.lang?))) :=
  rfl

instance : Std.TransOrd Term :=
  inferInstanceAs (Std.TransCmp (compareLex (compareOn rank) _))

instance : Std.LawfulEqOrd Term where
  eq_of_compare {a b} h := by
    simp only [compare_def, Ordering.then_eq_eq, Std.compare_eq_iff_eq] at h
    obtain ⟨hrank, htext, hdatatype, hlang⟩ := h
    cases a <;> cases b <;> simp_all [rank, content, datatype?, lang?]

end Term

end ContextPolicy
