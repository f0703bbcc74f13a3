import ContextPolicy.Condition.Extract
import ContextPolicy.Proofs.Graph.Chain

/-! What the reader of expressions finds.

`Reads` says which expression a node stands for, by the operator that it is linked to and
the operands behind the link. The reader refuses an operator that it meets again below
itself. It meets none: a node stands for one expression at most (`Reads.unique`), and an
operator below itself would stand for a part of its own expression. -/
namespace ContextPolicy.Graph

variable {g : Graph}

mutual

/-- The node stands for the expression. -/
inductive Reads (g : Graph) : Term → Expression → Prop
  | keyword {value : String} {datatype lang : Option String} :
      Reads g (.literal value datatype lang) (.keyword value)
  | not {x y : Term} {e : Expression} (hx : x.isLiteral = false)
      (hop : g.operator? x = some (.not, y)) (he : Reads g y e) : Reads g x (.not e)
  | all {x list : Term} {members : List Term} {es : List Expression} (hx : x.isLiteral = false)
      (hop : g.operator? x = some (.all, list)) (hlist : g.decode list = .ok members)
      (hes : ReadsEach g members es) : Reads g x (.all es)
  | any {x list : Term} {members : List Term} {es : List Expression} (hx : x.isLiteral = false)
      (hop : g.operator? x = some (.any, list)) (hlist : g.decode list = .ok members)
      (hes : ReadsEach g members es) : Reads g x (.any es)

/-- The nodes stand for the expressions, one by one. -/
inductive ReadsEach (g : Graph) : List Term → List Expression → Prop
  | nil : ReadsEach g [] []
  | cons {x : Term} {xs : List Term} {e : Expression} {es : List Expression} (he : Reads g x e)
      (hes : ReadsEach g xs es) : ReadsEach g (x :: xs) (e :: es)

end

mutual

/-- A node stands for one expression at most. -/
theorem Reads.unique {x : Term} {e f : Expression} (h : g.Reads x e) (h' : g.Reads x f) :
    e = f := by
  cases h with
  | keyword =>
    cases h' with
    | keyword => rfl
    | not hx _ _ | all hx _ _ _ | any hx _ _ _ => cases hx
  | not hx hop he =>
    cases h' with
    | keyword => cases hx
    | not _ hop' he' =>
      rw [hop] at hop'
      cases hop'
      rw [he.unique he']
    | all _ hop' _ _ | any _ hop' _ _ =>
      rw [hop] at hop'
      cases hop'
  | all hx hop hlist hes =>
    cases h' with
    | keyword => cases hx
    | all _ hop' hlist' hes' =>
      rw [hop] at hop'
      cases hop'
      rw [hlist] at hlist'
      cases hlist'
      rw [hes.unique hes']
    | not _ hop' _ | any _ hop' _ _ =>
      rw [hop] at hop'
      cases hop'
  | any hx hop hlist hes =>
    cases h' with
    | keyword => cases hx
    | any _ hop' hlist' hes' =>
      rw [hop] at hop'
      cases hop'
      rw [hlist] at hlist'
      cases hlist'
      rw [hes.unique hes']
    | not _ hop' _ | all _ hop' _ _ =>
      rw [hop] at hop'
      cases hop'

theorem ReadsEach.unique {xs : List Term} {es fs : List Expression} (h : g.ReadsEach xs es)
    (h' : g.ReadsEach xs fs) : es = fs := by
  cases h with
  | nil =>
    cases h'
    rfl
  | cons he hes =>
    cases h' with
    | cons he' hes' => rw [he.unique he', hes.unique hes']

end

/-! ### One step of the reader -/

theorem readExpression_literal (g : Graph) (marked : List Term) (value : String)
    (datatype lang : Option String) :
    g.readExpression marked (.literal value datatype lang) = .ok (some (.keyword value)) := by
  rw [readExpression]

section Step
variable {x y : Term} {marked members : List Term}

theorem readExpression_eq (hx : x.isLiteral = false) : g.readExpression marked x =
    if x ∈ marked then .error (.circular x)
    else match g.operator? x with
      | none => .ok none
      | some (.not, y) => (g.readExpression (x :: marked) y).map (·.map .not)
      | some (.all, list) => (g.decode list).bind fun members =>
          (readMembers (g.readExpression (x :: marked)) members).map (·.map .all)
      | some (.any, list) => (g.decode list).bind fun members =>
          (readMembers (g.readExpression (x :: marked)) members).map (·.map .any) := by
  cases x with
  | literal => cases hx
  | named iri | blank label =>
    rw [readExpression]
    · split
      · rfl
      · split <;> simp_all
    · simp

theorem readExpression_not (hx : x.isLiteral = false) (hmarked : x ∉ marked)
    (hop : g.operator? x = some (.not, y)) :
    g.readExpression marked x = (g.readExpression (x :: marked) y).map (·.map .not) := by
  rw [readExpression_eq hx, if_neg hmarked, hop]

theorem readExpression_all (hx : x.isLiteral = false) (hmarked : x ∉ marked)
    (hop : g.operator? x = some (.all, y)) (hlist : g.decode y = .ok members) :
    g.readExpression marked x =
      (readMembers (g.readExpression (x :: marked)) members).map (·.map .all) := by
  rw [readExpression_eq hx, if_neg hmarked, hop]
  simp only [hlist, Except.bind]

theorem readExpression_any (hx : x.isLiteral = false) (hmarked : x ∉ marked)
    (hop : g.operator? x = some (.any, y)) (hlist : g.decode y = .ok members) :
    g.readExpression marked x =
      (readMembers (g.readExpression (x :: marked)) members).map (·.map .any) := by
  rw [readExpression_eq hx, if_neg hmarked, hop]
  simp only [hlist, Except.bind]

/-- The reader enters a node behind every one that it is inside of already, so what holds of a
node once it holds of all nodes that are read inside of it, holds of every node. -/
theorem readExpression_induction {motive : List Term → Term → Prop}
    (literal : ∀ marked value datatype lang, motive marked (.literal value datatype lang))
    (met : ∀ marked x, x.isLiteral = false → x ∈ marked → motive marked x)
    (bare : ∀ marked x, x.isLiteral = false → x ∉ marked → g.operator? x = none → motive marked x)
    (operator : ∀ marked x o y, x.isLiteral = false → x ∉ marked → g.operator? x = some (o, y) →
      (∀ z, motive (x :: marked) z) → motive marked x)
    (marked : List Term) (x : Term) : motive marked x := by
  cases hx : x.isLiteral with
  | true =>
    cases x with
    | literal => exact literal ..
    | named | blank => cases hx
  | false =>
    by_cases hmem : x ∈ marked
    · exact met marked x hx hmem
    · cases hop : g.operator? x with
      | none => exact bare marked x hx hmem hop
      | some found =>
        have hlt := unmarked_lt (mem_subjectTerms_of_operator? hop) hmem
        exact operator marked x found.1 found.2 hx hmem hop fun z =>
          readExpression_induction literal met bare operator (x :: marked) z
termination_by g.unmarked marked

end Step

/-! ### Whole expressions -/

/-- Every marked node stands for an expression that is larger than a size. -/
def MarkedAbove (g : Graph) (marked : List Term) (size : Nat) : Prop :=
  ∀ y ∈ marked, ∃ f, g.Reads y f ∧ size < sizeOf f

theorem MarkedAbove.not_mem {x : Term} {e : Expression} {marked : List Term}
    (hm : g.MarkedAbove marked (sizeOf e)) (h : g.Reads x e) : x ∉ marked := by
  intro hmem
  obtain ⟨f, hf, hlt⟩ := hm x hmem
  rw [h.unique hf] at hlt
  exact Nat.lt_irrefl _ hlt

theorem MarkedAbove.mono {marked : List Term} {size size' : Nat}
    (hm : g.MarkedAbove marked size) (hle : size' ≤ size) : g.MarkedAbove marked size' := by
  intro y hy
  obtain ⟨f, hf, hlt⟩ := hm y hy
  exact ⟨f, hf, Nat.lt_of_le_of_lt hle hlt⟩

theorem MarkedAbove.cons {x : Term} {e : Expression} {marked : List Term} {size : Nat}
    (hm : g.MarkedAbove marked (sizeOf e)) (h : g.Reads x e) (hlt : size < sizeOf e) :
    g.MarkedAbove (x :: marked) size := by
  intro y hy
  rcases List.mem_cons.mp hy with rfl | hy
  · exact ⟨e, h, hlt⟩
  · exact hm.mono (Nat.le_of_lt hlt) y hy

mutual

/-- The reader finds the expression of a node, whatever larger ones it is inside of. -/
theorem Reads.readExpression {x : Term} {e : Expression} {marked : List Term} (h : g.Reads x e)
    (hm : g.MarkedAbove marked (sizeOf e)) : g.readExpression marked x = .ok (some e) := by
  have hself := h
  have hnew := hm.not_mem hself
  cases h with
  | keyword => exact g.readExpression_literal ..
  | not hx hop he =>
    rw [readExpression_not hx hnew hop, he.readExpression (hm.cons hself (by simp))]
    rfl
  | all hx hop hlist hes =>
    rw [readExpression_all hx hnew hop hlist, hes.readMembers (hm.cons hself (by simp))]
    rfl
  | any hx hop hlist hes =>
    rw [readExpression_any hx hnew hop hlist, hes.readMembers (hm.cons hself (by simp))]
    rfl

theorem ReadsEach.readMembers {xs : List Term} {es : List Expression} {marked : List Term}
    (h : g.ReadsEach xs es) (hm : g.MarkedAbove marked (sizeOf es)) :
    Graph.readMembers (g.readExpression marked) xs = .ok (some es) := by
  cases h with
  | nil => rfl
  | cons he hes =>
    have hhead := he.readExpression (hm.mono (by simp; omega))
    have htail := hes.readMembers (hm.mono (by simp))
    rw [Graph.readMembers, hhead]
    show (Graph.readMembers _ _).map _ = _
    rw [htail]
    rfl

end

end ContextPolicy.Graph
