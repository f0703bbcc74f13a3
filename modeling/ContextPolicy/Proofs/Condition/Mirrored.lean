import ContextPolicy.Proofs.Condition.Answers
import ContextPolicy.Proofs.Condition.Reading

/-! Graphs that read alike.

Readers know a graph by lookups alone, each from a node on to the node that it gives. So a
region that no lookup leads out of is all that a reader sees, once it is inside. If the
region looks the same in another graph, maybe under other labels (`Mirrors`), then every
reader finds there what it finds here, and what it is refused here it is refused there, with
a fault about the same cell.

Readers compare a node with those that they have marked, and with nothing else. That is why
no two nodes of a region may get one label. The lemmas follow the readers: lists,
expressions, fields, and the facts of a condition (`Mirrors.extract`). -/
namespace ContextPolicy

/-- The fault of the cell under another label. -/
def ListFault.rename (ρ : String → String) : ListFault → ListFault
  | .incomplete cell => .incomplete (cell.rename ρ)
  | .circular cell => .circular (cell.rename ρ)

theorem ListFault.rename_id (fault : ListFault) : fault.rename id = fault := by
  cases fault with
  | incomplete cell => exact congrArg incomplete cell.rename_id
  | circular cell => exact congrArg circular cell.rename_id

theorem Term.rename_eq_named_iff {ρ : String → String} {x : Term} {iri : String} :
    x.rename ρ = .named iri ↔ x = .named iri := by
  cases x with
  | named | literal => rfl
  | blank => exact ⟨nofun, nofun⟩

theorem Chain.rename_ne_nil {x : Term} (h : x ≠ nil) (ρ : String → String) : x.rename ρ ≠ nil :=
  mt Term.rename_eq_named_iff.mp h

theorem Term.isLiteral_rename (ρ : String → String) (x : Term) :
    (x.rename ρ).isLiteral = x.isLiteral := by
  cases x <;> rfl

theorem Term.literalValue?_rename (ρ : String → String) (x : Term) :
    (x.rename ρ).literalValue? = x.literalValue? := by
  cases x <;> rfl

/-- Facts are read where the root is typed. -/
theorem Scheme.extract_eq {s : Scheme} {g : Graph} (h : g.Indexed) : s.extract g =
    if s.typing ∈ g.triples then Dimension.all.foldlM (s.extractDimension g) ∅ else .ok ∅ := by
  rw [extract]
  by_cases ht : s.typing ∈ g.triples
  · rw [if_pos ht, if_neg (mt List.isEmpty_iff.mp (h.find_ne_nil ht))]
  · rw [if_neg ht, if_pos (List.isEmpty_iff.mpr (h.find_eq_nil_iff.mpr ht))]

namespace Graph

/-- No lookup leads out of the region of a graph, and the other graph answers for its nodes as
this one does, under other labels. -/
structure Mirrors (g h : Graph) (ρ : String → String) (region : Term → Prop) : Prop where
  lookup : ∀ x q, region x → h.firstObject (x.rename ρ) q = (g.firstObject x q).map (Term.rename ρ)
  closed : ∀ x q y, region x → g.firstObject x q = some y → region y
  injective : ∀ x y, region x → region y → x.rename ρ = y.rename ρ → x = y

namespace Mirrors
variable {g h : Graph} {ρ : String → String} {region : Term → Prop} {x : Term}
  {marked : List Term}

theorem mem_map_iff (hm : g.Mirrors h ρ region) (hx : region x)
    (hmarked : ∀ y ∈ marked, region y) : x.rename ρ ∈ marked.map (Term.rename ρ) ↔ x ∈ marked := by
  constructor
  · intro hmem
    obtain ⟨y, hy, heq⟩ := List.mem_map.mp hmem
    rw [hm.injective x y hx (hmarked y hy) heq.symm]
    exact hy
  · exact List.mem_map_of_mem

theorem forall_cons (hx : region x) (hmarked : ∀ y ∈ marked, region y) :
    ∀ y ∈ x :: marked, region y := by
  intro y hy
  rcases List.mem_cons.mp hy with rfl | hy
  · exact hx
  · exact hmarked y hy

/-! ### Lists -/

theorem of_lists (hm : g.Mirrors h ρ region) {members : List Term} (hlist : g.Lists x members)
    (hx : region x) : ∀ m ∈ members, region m := by
  induction hlist with
  | nil => exact fun _ hmem => absurd hmem List.not_mem_nil
  | cons hcell hfirst hrest _ ih =>
    exact forall_cons (hm.closed _ _ _ hx hfirst) (ih (hm.closed _ _ _ hx hrest))

theorem membersFrom (hm : g.Mirrors h ρ region) (hx : region x)
    (hmarked : ∀ y ∈ marked, region y) :
    h.membersFrom (marked.map (Term.rename ρ)) (x.rename ρ) =
      ((g.membersFrom marked x).map (List.map (Term.rename ρ))).mapError (ListFault.rename ρ) := by
  fun_induction Graph.membersFrom g marked x with
  | case1 => exact h.membersFrom_nil _
  | case2 marked x hcell hmem =>
    rw [membersFrom_eq, if_neg (Chain.rename_ne_nil hcell ρ),
      if_pos ((hm.mem_map_iff hx hmarked).mpr hmem)]
    rfl
  | case3 marked x hcell hmem hfirst =>
    rw [membersFrom_eq, if_neg (Chain.rename_ne_nil hcell ρ),
      if_neg (mt (hm.mem_map_iff hx hmarked).mp hmem), hm.lookup x _ hx, hfirst]
    rfl
  | case4 marked x hcell hmem member hfirst hrest =>
    rw [membersFrom_eq, if_neg (Chain.rename_ne_nil hcell ρ),
      if_neg (mt (hm.mem_map_iff hx hmarked).mp hmem), hm.lookup x _ hx, hfirst,
      hm.lookup x _ hx, hrest]
    rfl
  | case5 marked x hcell hmem member hfirst rest hrest ih =>
    rw [membersFrom_eq, if_neg (Chain.rename_ne_nil hcell ρ),
      if_neg (mt (hm.mem_map_iff hx hmarked).mp hmem), hm.lookup x _ hx, hfirst,
      hm.lookup x _ hx, hrest]
    have htail := ih (hm.closed x _ rest hx hrest) (forall_cons hx hmarked)
    show (h.membersFrom ((x :: marked).map (Term.rename ρ)) (rest.rename ρ)).map _ = _
    rw [htail]
    cases g.membersFrom (x :: marked) rest <;> rfl

theorem decode (hm : g.Mirrors h ρ region) (hx : region x) :
    h.decode (x.rename ρ) =
      ((g.decode x).map (List.map (Term.rename ρ))).mapError (ListFault.rename ρ) :=
  hm.membersFrom hx fun _ hy => absurd hy List.not_mem_nil

/-! ### Expressions -/

theorem operator? (hm : g.Mirrors h ρ region) (hx : region x) :
    h.operator? (x.rename ρ) = (g.operator? x).map fun (o, y) => (o, y.rename ρ) := by
  simp only [operator?_eq, hm.lookup x _ hx]
  cases g.firstObject x Names.Context.allOf <;> cases g.firstObject x Names.Context.anyOf <;>
    cases g.firstObject x Names.Context.not <;> rfl

theorem of_operator? (hm : g.Mirrors h ρ region) (hx : region x) {o : Operator} {y : Term}
    (hop : g.operator? x = some (o, y)) : region y := by
  obtain ⟨o, -, hfound⟩ := List.exists_of_findSome?_eq_some hop
  obtain ⟨z, hz, heq⟩ := Option.map_eq_some_iff.mp hfound
  cases heq
  exact hm.closed x _ y hx hz

/-- Nodes that are read alike one by one are read alike one after the other. -/
theorem readMembers {read read' : Term → Except ListFault (Option Expression)} {xs : List Term}
    (heach : ∀ m ∈ xs, read' (m.rename ρ) = (read m).mapError (ListFault.rename ρ)) :
    Graph.readMembers read' (xs.map (Term.rename ρ)) =
      (Graph.readMembers read xs).mapError (ListFault.rename ρ) := by
  induction xs with
  | nil => rfl
  | cons m rest ih =>
    rw [List.map_cons, Graph.readMembers, Graph.readMembers, mapError_bind,
      heach m List.mem_cons_self, ih fun y hy => heach y (List.mem_cons_of_mem m hy)]
    congr 1
    funext o
    cases o with
    | none => rfl
    | some e => exact (mapError_map ..).symm

/-- A list of nodes that are read alike is read alike. -/
theorem readList (hm : g.Mirrors h ρ region)
    {read read' : Term → Except ListFault (Option Expression)}
    {operator : List Expression → Expression} (hx : region x)
    (heach : ∀ m, region m → read' (m.rename ρ) = (read m).mapError (ListFault.rename ρ)) :
    ((h.decode (x.rename ρ)).bind fun members =>
        (Graph.readMembers read' members).map (·.map operator)) =
      ((g.decode x).bind fun members =>
        (Graph.readMembers read members).map (·.map operator)).mapError (ListFault.rename ρ) := by
  rw [hm.decode hx]
  cases hlist : g.decode x with
  | error fault => rfl
  | ok members =>
    have hmembers := hm.of_lists (decode_eq_ok_iff.mp hlist) hx
    show (Graph.readMembers read' (members.map (Term.rename ρ))).map _ = Except.mapError _ _
    rw [readMembers fun m hmem => heach m (hmembers m hmem)]
    exact (mapError_map ..).symm

theorem readExpression (hm : g.Mirrors h ρ region) (hx : region x)
    (hmarked : ∀ y ∈ marked, region y) :
    h.readExpression (marked.map (Term.rename ρ)) (x.rename ρ) =
      (g.readExpression marked x).mapError (ListFault.rename ρ) := by
  induction marked, x using readExpression_induction (g := g) with
  | literal =>
    rw [readExpression_literal]
    exact h.readExpression_literal ..
  | met marked x hlit hmem =>
    rw [readExpression_eq hlit, readExpression_eq ((x.isLiteral_rename ρ).trans hlit),
      if_pos hmem, if_pos ((hm.mem_map_iff hx hmarked).mpr hmem)]
    rfl
  | bare marked x hlit hmem hop =>
    rw [readExpression_eq hlit, readExpression_eq ((x.isLiteral_rename ρ).trans hlit),
      if_neg hmem, if_neg (mt (hm.mem_map_iff hx hmarked).mp hmem), hm.operator? hx, hop]
    rfl
  | operator marked x o y hlit hmem hop ih =>
    rw [readExpression_eq hlit, readExpression_eq ((x.isLiteral_rename ρ).trans hlit),
      if_neg hmem, if_neg (mt (hm.mem_map_iff hx hmarked).mp hmem), hm.operator? hx, hop]
    have hy := hm.of_operator? hx hop
    have hread := fun m hmregion => ih m hmregion (forall_cons hx hmarked)
    cases o with
    | not => exact (congrArg _ (hread y hy)).trans (mapError_map ..).symm
    | all | any => exact hm.readList hy hread

theorem expressionOf (hm : g.Mirrors h ρ region) (hx : region x) :
    h.expressionOf (x.rename ρ) = (g.expressionOf x).mapError (ListFault.rename ρ) := by
  rw [Graph.expressionOf, Graph.expressionOf, hm.lookup x _ hx]
  cases hfirst : g.firstObject x Names.Context.expression with
  | none => rfl
  | some e =>
    exact hm.readExpression (hm.closed x _ e hx hfirst) fun _ hy => absurd hy List.not_mem_nil

/-! ### Facts -/

theorem literalOf (hm : g.Mirrors h ρ region) (hx : region x) (q : String) :
    h.literalOf (x.rename ρ) q = g.literalOf x q := by
  rw [Graph.literalOf, Graph.literalOf, hm.lookup x q hx, Option.bind_map]
  exact congrArg _ (funext fun y => y.literalValue?_rename ρ)

theorem factOf (hm : g.Mirrors h ρ region) (hx : region x) (d : Dimension) :
    h.factOf (x.rename ρ) d = (g.factOf x d).mapError (ListFault.rename ρ) := by
  cases d with
  | user | environment | device =>
    rw [Graph.factOf, Graph.factOf, hm.expressionOf hx]
    exact (mapError_map ..).symm
  | time =>
    simp only [Graph.factOf, timeWindowOf, hm.literalOf hx]
    rfl
  | outdoor =>
    simp only [Graph.factOf, outdoorAreaOf, numberOf, hm.literalOf hx]
    rfl

section Extract
variable {s : Scheme}

theorem extractDimension (hm : g.Mirrors h ρ region) (hroot : region s.root)
    (hself : s.root.rename ρ = s.root) (facts : Facts) (d : Dimension) :
    s.extractDimension h facts d =
      (s.extractDimension g facts d).mapError (ListFault.rename ρ) := by
  have hlink := hm.lookup s.root d.link hroot
  rw [hself] at hlink
  rw [Scheme.extractDimension, Scheme.extractDimension, hlink]
  cases hblock : g.firstObject s.root d.link with
  | none => rfl
  | some block =>
    show (h.factOf (block.rename ρ) d).map _ = _
    rw [hm.factOf (hm.closed s.root _ block hroot hblock)]
    exact (mapError_map ..).symm

theorem extractEach (hm : g.Mirrors h ρ region) (hroot : region s.root)
    (hself : s.root.rename ρ = s.root) (facts : Facts) (ds : List Dimension) :
    ds.foldlM (s.extractDimension h) facts =
      (ds.foldlM (s.extractDimension g) facts).mapError (ListFault.rename ρ) := by
  induction ds generalizing facts with
  | nil => rfl
  | cons d ds ih =>
    rw [List.foldlM_cons, List.foldlM_cons, hm.extractDimension hroot hself]
    cases s.extractDimension g facts d with
    | error fault => rfl
    | ok facts' => exact ih facts'

/-- A condition has the same facts in both graphs, or the same fault. -/
theorem extract (hm : g.Mirrors h ρ region) (hroot : region s.root)
    (hself : s.root.rename ρ = s.root) (hg : g.Indexed) (hh : h.Indexed)
    (htyping : s.typing ∈ h.triples ↔ s.typing ∈ g.triples) :
    s.extract h = (s.extract g).mapError (ListFault.rename ρ) := by
  rw [Scheme.extract_eq hg, Scheme.extract_eq hh]
  by_cases ht : s.typing ∈ g.triples
  · rw [if_pos ht, if_pos (htyping.mpr ht)]
    exact hm.extractEach hroot hself ∅ Dimension.all
  · rw [if_neg ht, if_neg (mt htyping.mp ht)]
    rfl

end Extract

end Mirrors

end Graph

end ContextPolicy
