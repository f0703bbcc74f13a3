import Mathlib.Data.List.Forall2
import ContextPolicy.Proofs.Condition.Reads

/-! The reader of expressions reads what there is to read.

`Reads` is said again by the values of a node alone (`reads_iff`), so that nothing in it
depends on how the reader looks them up. The reader finds the expression of a node that has
one, whatever it shares with others (`Reads.readExpression`), and finds no other
(`reads_of_readExpression`).

It marks the operators that it is inside of, and ends because each of them is a subject of
the graph that it was not inside of before (`Graph.unmarked_lt`). Each leads to the node that
is read, operand by operand, so a node that is marked when it is met is an operand of its own,
at some distance. This and the faults of lists are all that it refuses
(`readExpression_fault`). -/
namespace ContextPolicy.Graph

variable {g : Graph} {x : Term} {e : Expression}

/-! ### By the values of a node -/

theorem operator?_eq (g : Graph) (x : Term) : g.operator? x =
    match g.firstObject x Names.Context.allOf, g.firstObject x Names.Context.anyOf,
      g.firstObject x Names.Context.not with
    | some list, _, _ => some (.all, list)
    | none, some list, _ => some (.any, list)
    | none, none, some y => some (.not, y)
    | none, none, none => none := by
  simp only [operator?, List.findSome?_cons, List.findSome?_nil, Operator.property]
  cases g.firstObject x Names.Context.allOf <;> cases g.firstObject x Names.Context.anyOf <;>
    cases g.firstObject x Names.Context.not <;> rfl

theorem readsEach_iff {xs : List Term} {es : List Expression} :
    g.ReadsEach xs es ↔ List.Forall₂ g.Reads xs es := by
  constructor
  · intro h
    induction xs generalizing es with
    | nil =>
      cases h
      exact .nil
    | cons x xs ih =>
      cases h with
      | cons he hes => exact .cons he (ih hes)
  · intro h
    induction h with
    | nil => exact .nil
    | cons he _ ih => exact .cons he ih

/-- The members of a list stand for the expressions. -/
def ReadsList (g : Graph) (list : Term) (es : List Expression) : Prop :=
  ∃ members, g.Lists list members ∧ List.Forall₂ g.Reads members es

theorem reads_literal_iff {value : String} {datatype lang : Option String} :
    g.Reads (.literal value datatype lang) e ↔ e = .keyword value := by
  constructor
  · intro h
    cases h with
    | keyword => rfl
    | not hx _ _ | all hx _ _ _ | any hx _ _ _ => cases hx
  · rintro rfl
    exact .keyword

theorem reads_iff (hx : x.isLiteral = false) : g.Reads x e ↔
    match g.firstObject x Names.Context.allOf, g.firstObject x Names.Context.anyOf,
      g.firstObject x Names.Context.not with
    | some list, _, _ => ∃ es, g.ReadsList list es ∧ e = .all es
    | none, some list, _ => ∃ es, g.ReadsList list es ∧ e = .any es
    | none, none, some y => ∃ f, g.Reads y f ∧ e = .not f
    | none, none, none => False := by
  have hop := g.operator?_eq x
  constructor
  · intro h
    cases h with
    | keyword => cases hx
    | not _ h he =>
      rw [h] at hop
      split at hop <;> cases hop
      exact ⟨_, he, rfl⟩
    | all _ h hlist hes =>
      rw [h] at hop
      split at hop <;> cases hop
      exact ⟨_, ⟨_, decode_eq_ok_iff.mp hlist, readsEach_iff.mp hes⟩, rfl⟩
    | any _ h hlist hes =>
      rw [h] at hop
      split at hop <;> cases hop
      exact ⟨_, ⟨_, decode_eq_ok_iff.mp hlist, readsEach_iff.mp hes⟩, rfl⟩
  · intro h
    split at h
    · obtain ⟨es, ⟨members, hlist, hes⟩, rfl⟩ := h
      simp only [*] at hop
      exact .all hx hop hlist.decode (readsEach_iff.mpr hes)
    · obtain ⟨es, ⟨members, hlist, hes⟩, rfl⟩ := h
      simp only [*] at hop
      exact .any hx hop hlist.decode (readsEach_iff.mpr hes)
    · obtain ⟨f, he, rfl⟩ := h
      simp only [*] at hop
      exact .not hx hop he
    · cases h

/-! ### What is read -/

theorem readMembers_ok {read : Term → Except ListFault (Option Expression)} {xs : List Term}
    {es : List Expression} (h : readMembers read xs = .ok (some es)) :
    List.Forall₂ (fun x e => read x = .ok (some e)) xs es := by
  induction xs generalizing es with
  | nil =>
    cases h
    exact .nil
  | cons x rest ih =>
    obtain ⟨o, hx, hrest⟩ := bind_eq_ok.mp h
    cases o with
    | none => cases hrest
    | some e =>
      obtain ⟨o, hes, heq⟩ := map_eq_ok hrest
      obtain ⟨fs, rfl, rfl⟩ := Option.map_eq_some_iff.mp heq.symm
      exact .cons hx (ih hes)

/-- The members of a list that is read stand for what they are read as. -/
theorem readsList_of_bind {read : Term → Except ListFault (Option Expression)}
    {operator : List Expression → Expression} {list : Term}
    (h : (g.decode list).bind (fun members => (readMembers read members).map (·.map operator)) =
      .ok (some e))
    (hread : ∀ m f, read m = .ok (some f) → g.Reads m f) :
    ∃ members es, g.decode list = .ok members ∧ g.ReadsEach members es ∧ e = operator es := by
  obtain ⟨members, hlist, hmembers⟩ := bind_eq_ok.mp h
  obtain ⟨o, hes, heq⟩ := map_eq_ok hmembers
  obtain ⟨es, rfl, rfl⟩ := Option.map_eq_some_iff.mp heq.symm
  have heach := (readMembers_ok hes).imp hread
  exact ⟨members, es, hlist, readsEach_iff.mpr heach, rfl⟩

/-- Whatever operators it is inside of, the reader finds nothing but the expression. -/
theorem reads_of_readExpression {marked : List Term}
    (h : g.readExpression marked x = .ok (some e)) : g.Reads x e := by
  induction marked, x using readExpression_induction (g := g) generalizing e with
  | literal =>
    rw [readExpression_literal] at h
    cases h
    exact .keyword
  | met marked x hx hmem =>
    rw [readExpression_eq hx, if_pos hmem] at h
    cases h
  | bare marked x hx hmem hop =>
    rw [readExpression_eq hx, if_neg hmem, hop] at h
    cases h
  | operator marked x o y hx hmem hop ih =>
    rw [readExpression_eq hx, if_neg hmem, hop] at h
    cases o with
    | not =>
      obtain ⟨o, hy, heq⟩ := map_eq_ok h
      obtain ⟨f, rfl, rfl⟩ := Option.map_eq_some_iff.mp heq.symm
      exact .not hx hop (ih y hy)
    | all =>
      obtain ⟨members, es, hlist, hes, rfl⟩ := readsList_of_bind h fun m f => ih m
      exact .all hx hop hlist hes
    | any =>
      obtain ⟨members, es, hlist, hes, rfl⟩ := readsList_of_bind h fun m f => ih m
      exact .any hx hop hlist hes

theorem readExpression_eq_ok_iff :
    g.readExpression [] x = .ok (some e) ↔ g.Reads x e :=
  ⟨reads_of_readExpression, fun h => h.readExpression fun _ hy => absurd hy List.not_mem_nil⟩

/-! ### What is refused -/

/-- The node has an operator over a list, and the list begins at the other node. -/
def ListOf (g : Graph) (x list : Term) : Prop :=
  x.isLiteral = false ∧ (g.firstObject x Names.Context.allOf = some list ∨
    g.firstObject x Names.Context.allOf = none ∧ g.firstObject x Names.Context.anyOf = some list)

/-- The second node is an operand of the first. -/
inductive OperandOf (g : Graph) : Term → Term → Prop
  | member {x list y : Term} {members : List Term} (hlist : g.ListOf x list)
      (hmembers : g.Lists list members) (hy : y ∈ members) : OperandOf g x y
  | not {x y : Term} (hx : x.isLiteral = false)
      (hall : g.firstObject x Names.Context.allOf = none)
      (hany : g.firstObject x Names.Context.anyOf = none)
      (hnot : g.firstObject x Names.Context.not = some y) : OperandOf g x y

/-- The second node is in a list of operands, as a cell or at its end, somewhere below the
first one. -/
def CellBelow (g : Graph) (x cell : Term) : Prop :=
  ∃ y list, Relation.ReflTransGen g.OperandOf x y ∧ g.ListOf y list ∧
    Relation.ReflTransGen g.RestOf list cell

theorem ListOf.of_operator? {o : Operator} {list : Term} (hx : x.isLiteral = false)
    (hop : g.operator? x = some (o, list)) (ho : o ≠ .not) : g.ListOf x list := by
  refine ⟨hx, ?_⟩
  rw [operator?_eq] at hop
  split at hop
  · next hall =>
    cases hop
    exact .inl hall
  · next hall hany =>
    cases hop
    exact .inr ⟨hall, hany⟩
  · cases hop
    exact absurd rfl ho
  · cases hop

theorem OperandOf.of_operator? {y : Term} (hx : x.isLiteral = false)
    (hop : g.operator? x = some (.not, y)) : g.OperandOf x y := by
  rw [operator?_eq] at hop
  split at hop
  · cases hop
  · cases hop
  · next hall hany hnot =>
    cases hop
    exact .not hx hall hany hnot
  · cases hop

theorem readMembers_error {read : Term → Except ListFault (Option Expression)} {xs : List Term}
    {fault : ListFault} (h : readMembers read xs = .error fault) :
    ∃ x ∈ xs, read x = .error fault := by
  induction xs with
  | nil => cases h
  | cons x rest ih =>
    obtain hx | ⟨o, -, hrest⟩ := bind_eq_error.mp h
    · exact ⟨x, List.mem_cons_self, hx⟩
    · cases o with
      | none => cases hrest
      | some e =>
        obtain ⟨y, hy, hfault⟩ := ih (eq_error_of_map hrest)
        exact ⟨y, List.mem_cons_of_mem x hy, hfault⟩

/-- What a fault of the reader says, seen from a node. -/
inductive Obstructs (g : Graph) : Term → ListFault → Prop
  /-- An operator is below itself. -/
  | operator {x y : Term} (hreach : Relation.ReflTransGen g.OperandOf x y)
      (hcycle : Relation.TransGen g.OperandOf y y) : Obstructs g x (.circular y)
  /-- Operands are no list. -/
  | list {x : Term} {fault : ListFault} (hcell : g.CellBelow x fault.cell)
      (hfault : g.Warrants fault) : Obstructs g x fault

theorem Obstructs.of_operand {y : Term} {fault : ListFault} (hstep : g.OperandOf x y)
    (h : g.Obstructs y fault) : g.Obstructs x fault := by
  cases h with
  | operator hreach hcycle => exact .operator (.head hstep hreach) hcycle
  | list hcell hfault =>
    obtain ⟨z, list, hreach, hlist, hrest⟩ := hcell
    exact .list ⟨z, list, .head hstep hreach, hlist, hrest⟩ hfault

/-- A fault over a list is that of the list, or of one of its members. -/
theorem obstructs_of_bind {read : Term → Except ListFault (Option Expression)}
    {operator : List Expression → Expression} {list : Term} {fault : ListFault}
    (h : (g.decode list).bind (fun members => (readMembers read members).map (·.map operator)) =
      .error fault)
    (hlist : g.ListOf x list)
    (hread : ∀ m, g.OperandOf x m → read m = .error fault → g.Obstructs m fault) :
    g.Obstructs x fault := by
  obtain hdecode | ⟨members, hmembers, hfault⟩ := bind_eq_error.mp h
  · obtain ⟨hrest, hwarrants⟩ := decode_fault hdecode
    exact .list ⟨x, list, .refl, hlist, hrest⟩ hwarrants
  · obtain ⟨m, hm, hfault⟩ := readMembers_error (eq_error_of_map hfault)
    have hstep : g.OperandOf x m := .member hlist (decode_eq_ok_iff.mp hmembers) hm
    exact (hread m hstep hfault).of_operand hstep

/-- The reader refuses nothing without a reason, as long as the operators that it is inside
of lead to the node. -/
theorem readExpression_fault {marked : List Term} {fault : ListFault}
    (h : g.readExpression marked x = .error fault)
    (hmarked : ∀ y ∈ marked, Relation.TransGen g.OperandOf y x) : g.Obstructs x fault := by
  have hbelow : ∀ {marked : List Term} {x z : Term},
      (∀ y ∈ marked, Relation.TransGen g.OperandOf y x) → g.OperandOf x z →
        ∀ y ∈ x :: marked, Relation.TransGen g.OperandOf y z := by
    intro marked x z hmarked hstep y hy
    rcases List.mem_cons.mp hy with rfl | hy
    · exact .single hstep
    · exact (hmarked y hy).tail hstep
  induction marked, x using readExpression_induction (g := g) with
  | literal =>
    rw [readExpression_literal] at h
    cases h
  | met marked x hx hmem =>
    rw [readExpression_eq hx, if_pos hmem] at h
    cases h
    exact .operator .refl (hmarked x hmem)
  | bare marked x hx hmem hop =>
    rw [readExpression_eq hx, if_neg hmem, hop] at h
    cases h
  | operator marked x o y hx hmem hop ih =>
    rw [readExpression_eq hx, if_neg hmem, hop] at h
    cases o with
    | not =>
      have hstep := OperandOf.of_operator? hx hop
      exact (ih y (eq_error_of_map h) (hbelow hmarked hstep)).of_operand hstep
    | all | any =>
      have hlist := ListOf.of_operator? hx hop (by simp)
      exact obstructs_of_bind h hlist fun m hstep hm => ih m hm (hbelow hmarked hstep)

/-- An expression is read from a node exactly if the node stands for it, by the values of the
node and of those below it. A node is reported as met again only if it is an operand of its
own or, a cell, one of its own rests, and one as no cell only if operands lead to it as one
and it lacks a member or a rest. -/
theorem reading_is_exact (g : Graph) (x : Term) :
    (∀ e, g.readExpression [] x = .ok (some e) ↔ g.Reads x e) ∧
    (∀ value datatype lang e, g.Reads (.literal value datatype lang) e ↔ e = .keyword value) ∧
    (∀ y : Term, y.isLiteral = false → ∀ e, g.Reads y e ↔
      match g.firstObject y Names.Context.allOf, g.firstObject y Names.Context.anyOf,
        g.firstObject y Names.Context.not with
      | some list, _, _ => ∃ es, g.ReadsList list es ∧ e = .all es
      | none, some list, _ => ∃ es, g.ReadsList list es ∧ e = .any es
      | none, none, some z => ∃ f, g.Reads z f ∧ e = .not f
      | none, none, none => False) ∧
    (∀ y, g.readExpression [] x = .error (.circular y) →
      Relation.ReflTransGen g.OperandOf x y ∧ Relation.TransGen g.OperandOf y y ∨
        g.CellBelow x y ∧ Relation.TransGen g.RestOf y y) ∧
    ∀ y, g.readExpression [] x = .error (.incomplete y) →
      g.CellBelow x y ∧ y ≠ Chain.nil ∧
        (g.firstObject y Names.Rdf.first = none ∨ g.firstObject y Names.Rdf.rest = none) := by
  have hfault : ∀ fault, g.readExpression [] x = .error fault → g.Obstructs x fault :=
    fun fault h => readExpression_fault h fun _ hy => absurd hy List.not_mem_nil
  refine ⟨fun e => readExpression_eq_ok_iff, fun value datatype lang e => reads_literal_iff,
    fun y hy e => reads_iff hy, fun y h => ?_, fun y h => ?_⟩
  · cases hfault _ h with
    | operator hreach hcycle => exact .inl ⟨hreach, hcycle⟩
    | list hcell hcycle => exact .inr ⟨hcell, hcycle⟩
  · cases hfault _ h with
    | list hcell hlacks => exact ⟨hcell, hlacks⟩

end ContextPolicy.Graph
