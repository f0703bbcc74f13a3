import ContextPolicy.Expression.Reader

/-! The grammar of expressions, and the reader against it.

    disjunction := conjunction | disjunction "or" conjunction
    conjunction := operand | conjunction "and" operand
    operand := "not" operand | word | "(" disjunction ")"

A repetition with one item stands for the item (`gathered`). The reader goes through the
tokens once and keeps what is not complete on a stack, so it is compared with the grammar
from two sides. Each derivation is read as a whole, whatever stands around it (`Operand.run`,
`Conjunction.run`, `Disjunction.run`). And whatever the reader has taken in can be said by
derivations: `Level.Awaits` and `Level.Ends` say it of one level, before and behind an
operand, `Reader.Took` of the whole stack, and each step keeps it (`Reader.Took.step`). At
the end of the tokens both meet in `readTokens_eq_ok_iff`. -/
namespace ContextPolicy.Expression

/-! ### Derivations -/

/-- An operator over operands; a single operand stands for itself. -/
def gathered (operator : List Expression → Expression) : List Expression → Expression
  | [e] => e
  | es => operator es

mutual

inductive Operand : List Token → Expression → Prop
  | word (text : String) : Operand [.word text] (keyword text)
  | not {ts : List Token} {e : Expression} (h : Operand ts e) : Operand (.not :: ts) (not e)
  | parens {ts : List Token} {es : List Expression} (h : Disjunction ts es) :
    Operand (.openParen :: ts ++ [.closeParen]) (gathered any es)

/-- Operands with `and` between them. -/
inductive Conjunction : List Token → List Expression → Prop
  | one {ts : List Token} {e : Expression} (h : Operand ts e) : Conjunction ts [e]
  | snoc {ts us : List Token} {es : List Expression} {e : Expression} (h : Conjunction ts es)
    (h' : Operand us e) : Conjunction (ts ++ .and :: us) (es ++ [e])

/-- Conjunctions with `or` between them. -/
inductive Disjunction : List Token → List Expression → Prop
  | one {ts : List Token} {es : List Expression} (h : Conjunction ts es) :
    Disjunction ts [gathered all es]
  | snoc {ts us : List Token} {es fs : List Expression} (h : Disjunction ts es)
    (h' : Conjunction us fs) : Disjunction (ts ++ .or :: us) (es ++ [gathered all fs])

end

/-- The tokens are those of the expression. -/
def Spells (ts : List Token) (e : Expression) : Prop :=
  ∃ es, Disjunction ts es ∧ e = gathered any es

theorem gathered_eq {operator : List Expression → Expression} {es : List Expression}
    (h : es.length ≠ 1) : gathered operator es = operator es := by
  match es, h with
  | [], _ => rfl
  | [_], h => exact absurd rfl h
  | _ :: _ :: _, _ => rfl

theorem join_eq_gathered (operator : List Expression → Expression) (es : List Expression) :
    join operator es = gathered operator es.reverse := by
  match es with
  | [] => rfl
  | [_] => rfl
  | e :: f :: rest =>
    rw [gathered_eq (by simp)]
    rfl

theorem Conjunction.ne_nil {ts : List Token} {es : List Expression} (h : Conjunction ts es) :
    es ≠ [] := by
  cases h <;> simp

theorem Disjunction.ne_nil {ts : List Token} {es : List Expression} (h : Disjunction ts es) :
    es ≠ [] := by
  cases h <;> simp

/-! Both repetitions can also be taken from the other end. -/

theorem Conjunction.cons {ts us : List Token} {e : Expression} {es : List Expression}
    (h : Operand ts e) (h' : Conjunction us es) : Conjunction (ts ++ .and :: us) (e :: es) := by
  match h' with
  | .one hf => exact .snoc (.one h) hf
  | .snoc hfs hf =>
    have hrest := Conjunction.snoc (Conjunction.cons h hfs) hf
    rwa [List.append_assoc, List.cons_append, List.cons_append] at hrest

theorem Disjunction.cons {ts us : List Token} {es fs : List Expression}
    (h : Conjunction ts es) (h' : Disjunction us fs) :
    Disjunction (ts ++ .or :: us) (gathered all es :: fs) := by
  match h' with
  | .one hf => exact .snoc (.one h) hf
  | .snoc hfs hf =>
    have hrest := Disjunction.snoc (Disjunction.cons h hfs) hf
    rwa [List.append_assoc, List.cons_append, List.cons_append] at hrest

/-! ### Derivations are read -/

theorem Reader.run_append (r : Reader) (as bs : List (Nat × Token)) :
    r.run (as ++ bs) = r.run as >>= fun r => r.run bs := by
  induction as generalizing r with
  | nil => rfl
  | cons a rest ih =>
    obtain ⟨offset, t⟩ := a
    show (r.step offset t >>= fun r => r.run (rest ++ bs)) =
      (r.step offset t >>= fun r => r.run rest) >>= fun r => r.run bs
    cases r.step offset t with
    | error e => rfl
    | ok r' => exact ih r'

/-- A run over three parts, of which the middle one is a token. -/
theorem Reader.run_between {r r₁ r₂ r₃ : Reader} {as bs : List (Nat × Token)} {offset : Nat}
    {t : Token} (h₁ : r.run as = .ok r₁) (h₂ : r₁.step offset t = .ok r₂)
    (h₃ : r₂.run bs = .ok r₃) : r.run (as ++ (offset, t) :: bs) = .ok r₃ := by
  rw [run_append, h₁]
  show (r₁.step offset t >>= fun r => r.run bs) = _
  rw [h₂]
  exact h₃

theorem negated_not (n : Nat) (e : Expression) : negated n (not e) = negated (n + 1) e := by
  induction n with
  | zero => rfl
  | succ n ih => exact congrArg not ih

theorem Level.close_eq_gathered (l : Level) : l.close = gathered any l.next.anys.reverse :=
  join_eq_gathered any l.next.anys

theorem Level.close_of_next {l : Level} {es : List Expression}
    (h : l.next = ⟨es.reverse, [], 0⟩) : l.close = gathered any es := by
  rw [close_eq_gathered, h, List.reverse_reverse]

mutual

/-- An operand is added to the innermost level, whatever this holds. -/
theorem Operand.run {ts : List Token} {e : Expression} (h : Operand ts e)
    {tokens : List (Nat × Token)} (htokens : tokens.map (·.2) = ts) (l : Level) (outer : Outer) :
    Reader.run ⟨l, outer, false⟩ tokens = .ok ⟨l.add e, outer, true⟩ := by
  match h with
  | .word text =>
    obtain ⟨⟨offset, t⟩, rest, rfl, rfl, hrest⟩ := List.map_eq_cons_iff.mp htokens
    obtain rfl := List.map_eq_nil_iff.mp hrest
    rfl
  | .not hf =>
    obtain ⟨⟨offset, t⟩, rest, rfl, rfl, hrest⟩ := List.map_eq_cons_iff.mp htokens
    have hrun := hf.run hrest { l with nots := l.nots + 1 } outer
    show Reader.run ⟨{ l with nots := l.nots + 1 }, outer, false⟩ rest = _
    rw [hrun, Level.add, Level.add, negated_not]
  | @Operand.parens _ es hes =>
    obtain ⟨as, bs, rfl, has, hbs⟩ := List.map_eq_append_iff.mp htokens
    obtain ⟨⟨offset, t⟩, inside, rfl, rfl, hinside⟩ := List.map_eq_cons_iff.mp has
    obtain ⟨⟨close, t⟩, rest, rfl, rfl, hrest⟩ := List.map_eq_cons_iff.mp hbs
    obtain rfl := List.map_eq_nil_iff.mp hrest
    obtain ⟨inner, hrun, hnext⟩ := hes.run hinside ((offset, l) :: outer)
    have hend : Reader.step ⟨inner, (offset, l) :: outer, true⟩ close .closeParen =
        .ok ⟨l.add (gathered any es), outer, true⟩ := by
      rw [← Level.close_of_next hnext]
      rfl
    exact Reader.run_between hrun hend rfl

/-- The operands of a conjunction are added one by one. -/
theorem Conjunction.run {ts : List Token} {es : List Expression} (h : Conjunction ts es)
    {tokens : List (Nat × Token)} (htokens : tokens.map (·.2) = ts) (anys : List Expression)
    (outer : Outer) : Reader.run ⟨⟨anys, [], 0⟩, outer, false⟩ tokens =
      .ok ⟨⟨anys, es.reverse, 0⟩, outer, true⟩ := by
  match h with
  | .one he => exact he.run htokens ⟨anys, [], 0⟩ outer
  | @Conjunction.snoc _ _ fs e hfs he =>
    obtain ⟨as, bs, rfl, has, hbs⟩ := List.map_eq_append_iff.mp htokens
    obtain ⟨⟨offset, t⟩, rest, rfl, rfl, hrest⟩ := List.map_eq_cons_iff.mp hbs
    have hlast := he.run hrest ⟨anys, fs.reverse, 0⟩ outer
    have hand : Reader.step ⟨⟨anys, fs.reverse, 0⟩, outer, true⟩ offset .and =
        .ok ⟨⟨anys, fs.reverse, 0⟩, outer, false⟩ := rfl
    rw [Reader.run_between (hfs.run has anys outer) hand hlast, List.reverse_append]
    rfl

/-- The conjunctions of a disjunction are added one by one, the last when the level ends. -/
theorem Disjunction.run {ts : List Token} {es : List Expression} (h : Disjunction ts es)
    {tokens : List (Nat × Token)} (htokens : tokens.map (·.2) = ts) (outer : Outer) :
    ∃ l : Level, Reader.run ⟨.empty, outer, false⟩ tokens = .ok ⟨l, outer, true⟩ ∧
      l.next = ⟨es.reverse, [], 0⟩ := by
  match h with
  | @Disjunction.one _ fs hfs =>
    refine ⟨⟨[], fs.reverse, 0⟩, hfs.run htokens [] outer, ?_⟩
    rw [Level.next, join_eq_gathered, List.reverse_reverse]
    rfl
  | @Disjunction.snoc _ _ fs gs hfs hgs =>
    obtain ⟨as, bs, rfl, has, hbs⟩ := List.map_eq_append_iff.mp htokens
    obtain ⟨⟨offset, t⟩, rest, rfl, rfl, hrest⟩ := List.map_eq_cons_iff.mp hbs
    obtain ⟨l, hrun, hnext⟩ := hfs.run has outer
    have hor : Reader.step ⟨l, outer, true⟩ offset .or =
        .ok ⟨⟨fs.reverse, [], 0⟩, outer, false⟩ := by
      rw [← hnext]
      rfl
    have hlast := hgs.run hrest fs.reverse outer
    refine ⟨⟨fs.reverse, gs.reverse, 0⟩, Reader.run_between hrun hor hlast, ?_⟩
    rw [Level.next, join_eq_gathered, List.reverse_reverse, List.reverse_append]
    rfl

end

/-! ### What has been read is derived -/

/-- A repetition with its next separator, or nothing yet. -/
def Before (P : List Token → List Expression → Prop) (separator : Token) (ts : List Token)
    (es : List Expression) : Prop :=
  ts = [] ∧ es = [] ∨ ∃ us, ts = us ++ [separator] ∧ P us es

/-- The tokens fill the level, which waits for an operand. -/
def Level.Awaits (l : Level) (ts : List Token) : Prop :=
  ∃ ds cs, ts = ds ++ cs ++ List.replicate l.nots .not ∧
    Before Disjunction .or ds l.anys.reverse ∧ Before Conjunction .and cs l.alls.reverse

/-- The tokens fill the level, and the last of them ends an operand. -/
def Level.Ends (l : Level) (ts : List Token) : Prop :=
  l.nots = 0 ∧ ∃ ds cs, ts = ds ++ cs ∧
    Before Disjunction .or ds l.anys.reverse ∧ Conjunction cs l.alls.reverse

theorem Operand.negated {ts : List Token} {e : Expression} (h : Operand ts e) (n : Nat) :
    Operand (List.replicate n .not ++ ts) (negated n e) := by
  induction n with
  | zero => exact h
  | succ n ih => exact .not ih

theorem Before.conjunction {ts us : List Token} {es : List Expression} {e : Expression}
    (h : Before Conjunction .and ts es) (h' : Operand us e) :
    Conjunction (ts ++ us) (es ++ [e]) := by
  obtain ⟨rfl, rfl⟩ | ⟨vs, rfl, hes⟩ := h
  · exact .one h'
  · rw [List.append_assoc]
    exact .snoc hes h'

theorem Before.disjunction {ts us : List Token} {es fs : List Expression}
    (h : Before Disjunction .or ts es) (h' : Conjunction us fs) :
    Disjunction (ts ++ us) (es ++ [gathered all fs]) := by
  obtain ⟨rfl, rfl⟩ | ⟨vs, rfl, hes⟩ := h
  · exact .one h'
  · rw [List.append_assoc]
    exact .snoc hes h'

namespace Level

theorem awaits_empty : empty.Awaits [] :=
  ⟨[], [], rfl, .inl ⟨rfl, rfl⟩, .inl ⟨rfl, rfl⟩⟩

variable {l : Level} {ts us : List Token}

theorem Awaits.not (h : l.Awaits ts) :
    Awaits { l with nots := l.nots + 1 } (ts ++ [.not]) := by
  obtain ⟨ds, cs, rfl, hds, hcs⟩ := h
  refine ⟨ds, cs, ?_, hds, hcs⟩
  rw [List.replicate_succ', List.append_assoc _ _ [Token.not]]

theorem Awaits.add {e : Expression} (h : l.Awaits ts) (he : Operand us e) :
    (l.add e).Ends (ts ++ us) := by
  obtain ⟨ds, cs, rfl, hds, hcs⟩ := h
  refine ⟨rfl, ds, cs ++ (List.replicate l.nots .not ++ us), ?_, hds, ?_⟩
  · simp only [List.append_assoc]
  · rw [add, List.reverse_cons]
    exact hcs.conjunction (he.negated l.nots)

theorem Ends.and (h : l.Ends ts) : l.Awaits (ts ++ [.and]) := by
  obtain ⟨hnots, ds, cs, rfl, hds, hcs⟩ := h
  refine ⟨ds, cs ++ [.and], ?_, hds, .inr ⟨cs, rfl, hcs⟩⟩
  rw [hnots, List.replicate_zero, List.append_nil, List.append_assoc]

theorem Ends.next (h : l.Ends ts) : Disjunction ts l.next.anys.reverse := by
  obtain ⟨-, ds, cs, rfl, hds, hcs⟩ := h
  rw [Level.next, List.reverse_cons, join_eq_gathered]
  exact hds.disjunction hcs

theorem Ends.or (h : l.Ends ts) : l.next.Awaits (ts ++ [.or]) :=
  ⟨ts ++ [.or], [], by simp [Level.next], .inr ⟨ts, rfl, h.next⟩, .inl ⟨rfl, rfl⟩⟩

end Level

/-- The tokens up to the innermost level. -/
inductive Nested : Outer → List Token → Prop
  | nil : Nested [] []
  | cons {outer : Outer} {l : Level} {ts us : List Token} (offset : Nat) (h : Nested outer ts)
    (h' : l.Awaits us) : Nested ((offset, l) :: outer) (ts ++ us ++ [.openParen])

namespace Reader

/-- What the reader holds when it has gone through the tokens. -/
inductive Took : Reader → List Token → Prop
  | awaiting {outer : Outer} {l : Level} {ts us : List Token} (h : Nested outer ts)
    (h' : l.Awaits us) : Took ⟨l, outer, false⟩ (ts ++ us)
  | complete {outer : Outer} {l : Level} {ts us : List Token} (h : Nested outer ts)
    (h' : l.Ends us) : Took ⟨l, outer, true⟩ (ts ++ us)

theorem took_start : start.Took [] :=
  .awaiting .nil Level.awaits_empty

theorem Took.begin {l : Level} {outer : Outer} {ts us : List Token} {offset : Nat} {t : Token}
    {r : Reader} (h : Nested outer ts) (h' : l.Awaits us)
    (hbegin : Reader.begin ⟨l, outer, false⟩ offset t = .ok r) : r.Took (ts ++ us ++ [t]) := by
  cases t with
  | not =>
    obtain rfl := Except.ok.inj hbegin
    rw [List.append_assoc]
    exact .awaiting h h'.not
  | word text =>
    obtain rfl := Except.ok.inj hbegin
    rw [List.append_assoc]
    exact .complete h (h'.add (.word text))
  | openParen =>
    obtain rfl := Except.ok.inj hbegin
    rw [← List.append_nil (_ ++ [_])]
    exact .awaiting (.cons offset h h') Level.awaits_empty
  | and => cases hbegin
  | or => cases hbegin
  | closeParen => cases hbegin

theorem Took.proceed {l : Level} {outer : Outer} {ts us : List Token} {offset : Nat} {t : Token}
    {r : Reader} (h : Nested outer ts) (h' : l.Ends us)
    (hproceed : Reader.proceed ⟨l, outer, true⟩ offset t = .ok r) :
    r.Took (ts ++ us ++ [t]) := by
  cases t with
  | and =>
    obtain rfl := Except.ok.inj hproceed
    rw [List.append_assoc]
    exact .awaiting h h'.and
  | or =>
    obtain rfl := Except.ok.inj hproceed
    rw [List.append_assoc]
    exact .awaiting h h'.or
  | closeParen =>
    cases h with
    | nil => cases hproceed
    | cons offset houter hawaits =>
      -- What the parentheses hold is complete, and an operand of the level around them.
      obtain rfl := Except.ok.inj hproceed
      have hends := hawaits.add (.parens h'.next)
      rw [← Level.close_eq_gathered] at hends
      have htook := Took.complete houter hends
      simpa only [List.append_assoc, List.cons_append, List.nil_append] using htook
  | not => cases h <;> cases hproceed
  | openParen => cases h <;> cases hproceed
  | word text => cases h <;> cases hproceed

theorem Took.step {r r' : Reader} {ts : List Token} {offset : Nat} {t : Token} (h : r.Took ts)
    (hstep : r.step offset t = .ok r') : r'.Took (ts ++ [t]) := by
  cases h with
  | awaiting h h' => exact .begin h h' hstep
  | complete h h' => exact .proceed h h' hstep

theorem Took.run {r r' : Reader} {ts : List Token} {tokens : List (Nat × Token)} (h : r.Took ts)
    (hrun : r.run tokens = .ok r') : r'.Took (ts ++ tokens.map (·.2)) := by
  induction tokens generalizing r ts with
  | nil =>
    obtain rfl := Except.ok.inj hrun
    rwa [List.map_nil, List.append_nil]
  | cons token rest ih =>
    obtain ⟨offset, t⟩ := token
    change (r.step offset t >>= fun r => r.run rest) = .ok r' at hrun
    cases hstep : r.step offset t with
    | error e =>
      rw [hstep] at hrun
      cases hrun
    | ok r₁ =>
      rw [hstep] at hrun
      have htook := ih (h.step hstep) hrun
      rwa [List.append_assoc] at htook

theorem Took.finish {r : Reader} {ts : List Token} {n : Nat} {e : Expression} (h : r.Took ts)
    (hfinish : r.finish n = .ok e) : Spells ts e := by
  match h with
  | .awaiting _ _ => cases hfinish
  | .complete .nil hends =>
    obtain rfl := Except.ok.inj hfinish
    exact ⟨_, hends.next, Level.close_eq_gathered _⟩
  | .complete (.cons ..) _ => cases hfinish

end Reader

/-- The tokens are read as the expression whose tokens they are. -/
theorem readTokens_eq_ok_iff (n : Nat) (tokens : List (Nat × Token)) (e : Expression) :
    readTokens n tokens = .ok e ↔ Spells (tokens.map (·.2)) e := by
  constructor
  · intro h
    match tokens with
    | [] => cases h
    | token :: rest =>
      change (Reader.start.run (token :: rest)).bind (fun r => r.finish n) = .ok e at h
      cases hrun : Reader.start.run (token :: rest) with
      | error fault =>
        rw [hrun] at h
        cases h
      | ok r =>
        rw [hrun] at h
        exact (Reader.took_start.run hrun).finish h
  · rintro ⟨es, hes, rfl⟩
    obtain ⟨l, hrun, hnext⟩ := hes.run rfl []
    match tokens with
    | [] => cases hrun
    | token :: rest =>
      show (Reader.start.run (token :: rest)).bind (fun r => r.finish n) = _
      rw [Reader.start, hrun, ← Level.close_of_next hnext]
      rfl

end ContextPolicy.Expression
