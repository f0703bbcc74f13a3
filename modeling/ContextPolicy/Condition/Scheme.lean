import ContextPolicy.Timestamp
import ContextPolicy.Triple
import ContextPolicy.Vocabulary

/-! What conditions are written with. A condition hangs off its root: a type, and for each
dimension a link to a block, which holds the facts as the user gave them and an ASK query
that tests a context for them. -/
namespace ContextPolicy

structure Scheme where
  root : Term
  vocabulary : Vocabulary
  dateFormat : DateFormat
deriving DecidableEq

/-- The label of the `n`-th blank node of a condition. -/
def conditionLabel (n : Nat) : String :=
  "ac" ++ toString n

def conditionNode (n : Nat) : Term :=
  .blank (conditionLabel n)

namespace Scheme

/-- The triple that makes the root a condition. -/
def typing (s : Scheme) : Triple :=
  ⟨s.root, Names.Rdf.type, .named Names.Context.accessCondition⟩

/-- Whether a triple links the root to a block. -/
def isLink (s : Scheme) (t : Triple) : Bool :=
  t.subject == s.root && Dimension.all.any fun d => d.link == t.predicate

end Scheme

end ContextPolicy
