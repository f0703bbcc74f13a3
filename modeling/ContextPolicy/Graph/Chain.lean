import ContextPolicy.Graph
import ContextPolicy.Names

/-! Lists in a graph: chains of cells, each with a member under `rdf:first` and the rest
of the list under `rdf:rest`, down to `rdf:nil`. Where a cell has several values, the
earliest counts. `Chain.triples` writes a list and `Graph.decode` reads one. -/
namespace ContextPolicy

/-- Why a node heads no list. -/
inductive ListFault where
  | incomplete (cell : Term)
  | circular (cell : Term)
deriving DecidableEq, Repr

namespace ListFault

def cell : ListFault → Term
  | incomplete cell => cell
  | circular cell => cell

def message : ListFault → String
  | incomplete cell =>
    "list node " ++ cell.toText ++ " is missing its rdf:first or rdf:rest value"
  | circular cell =>
    "list node " ++ cell.toText ++ " was reached twice while walking the list"

end ListFault

/-! ### Writing -/

namespace Chain

/-- The empty list. -/
def nil : Term :=
  .named Names.Rdf.nil

/-- The node that stands for a list whose cells are numbered from `k`. -/
def head (cell : Nat → Term) (k : Nat) : List Term → Term
  | [] => nil
  | _ :: _ => cell k

/-- The triples of a list whose cells are numbered from `k`, two for each member. -/
def triples (cell : Nat → Term) (k : Nat) : List Term → List Triple
  | [] => []
  | member :: rest =>
    ⟨cell k, Names.Rdf.first, member⟩ :: ⟨cell k, Names.Rdf.rest, head cell (k + 1) rest⟩ ::
      triples cell (k + 1) rest

end Chain

/-! ### Reading -/

namespace Graph

/-- The members of the list that a node heads, where the marked cells lead to the node. -/
def membersFrom (g : Graph) (marked : List Term) (node : Term) : Except ListFault (List Term) :=
  if node = Chain.nil then .ok []
  else if _ : node ∈ marked then .error (.circular node)
  else
    match _ : g.firstObject node Names.Rdf.first with
    | none => .error (.incomplete node)
    | some member =>
      match g.firstObject node Names.Rdf.rest with
      | none => .error (.incomplete node)
      | some rest => (g.membersFrom (node :: marked) rest).map (member :: ·)
termination_by g.unmarked marked
decreasing_by exact unmarked_lt (mem_subjectTerms_of_firstObject ‹_›) ‹_›

/-- The members of the list that a node heads. -/
def decode (g : Graph) (head : Term) : Except ListFault (List Term) :=
  g.membersFrom [] head

end Graph

end ContextPolicy
