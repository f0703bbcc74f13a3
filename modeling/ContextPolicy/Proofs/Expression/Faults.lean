import ContextPolicy.Proofs.Expression.Grammar
import ContextPolicy.Proofs.Expression.Spans
import ContextPolicy.Proofs.Outcome

/-! Where reading stops.

Tokens are viable if some tokens behind them make an expression of them. The reader goes through
viable tokens and no others (`viable_iff`): what it holds can always be completed, by an operand
where it waits for one and by a parenthesis for each one that is open. So it stops at the first
token behind which nothing can help, and this is the token that the fault is about. If there is
none, then the text ends too early, with an operand missing or with a parenthesis open.

Which parentheses are open is said without the reader: behind each of them the parentheses stand
in pairs (`Paired`), up to the next one that is open. The reader has their places on its stack
(`Opened.run`). -/
namespace ContextPolicy.Expression

variable {placed : List (Nat × Token)} {ts us : List Token} {r r' : Reader} {t : Token}
  {offset n : Nat} {e : Expression} {fault : ExpressionFault}

/-- Some continuation of the tokens is an expression. -/
def Viable (ts : List Token) : Prop :=
  ∃ us e, Spells (ts ++ us) e

/-- An operand has to follow. -/
def Token.awaitsOperand : Token → Bool
  | .and | .or | .not | .openParen => true
  | .closeParen | .word _ => false

def Token.isParen : Token → Bool
  | .openParen | .closeParen => true
  | _ => false

/-! ### Steps -/

namespace Reader

/-- What a step does to the stack, and when it completes an operand. -/
theorem step_ok (h : r.step offset t = .ok r') : r'.complete = !t.awaitsOperand ∧
    (t.isParen = false ∧ r'.outer = r.outer ∨
      t = .openParen ∧ r'.outer = (offset, r.inner) :: r.outer ∨
      t = .closeParen ∧ ∃ place level, r.outer = (place, level) :: r'.outer) := by
  obtain ⟨inner, outer, complete⟩ := r
  cases complete with
  | false =>
    cases t with
    | not | word _ =>
      cases h
      exact ⟨rfl, .inl ⟨rfl, rfl⟩⟩
    | openParen =>
      cases h
      exact ⟨rfl, .inr (.inl ⟨rfl, rfl⟩)⟩
    | and | or | closeParen => cases h
  | true =>
    cases t with
    | and | or =>
      cases h
      exact ⟨rfl, .inl ⟨rfl, rfl⟩⟩
    | closeParen =>
      cases outer with
      | nil => cases h
      | cons entry outer =>
        cases h
        exact ⟨rfl, .inr (.inr ⟨rfl, _, _, rfl⟩)⟩
    | not | word _ | openParen => cases outer <;> cases h

/-- A fault in a step is about the token. -/
theorem step_error (h : r.step offset t = .error fault) : fault.offset = offset := by
  obtain ⟨inner, outer, complete⟩ := r
  cases complete <;> cases t <;> cases outer <;> cases h <;> rfl

theorem run_cons (r : Reader) (offset : Nat) (t : Token) (placed : List (Nat × Token)) :
    r.run ((offset, t) :: placed) = r.step offset t >>= fun r => r.run placed :=
  rfl

/-- A run that stops has gone through the tokens in front of the one it stops at. -/
theorem run_error (h : r.run placed = .error fault) : ∃ before offset t after r',
    placed = before ++ (offset, t) :: after ∧ r.run before = .ok r' ∧
      r'.step offset t = .error fault := by
  induction placed generalizing r with
  | nil => cases h
  | cons token rest ih =>
    obtain ⟨offset, t⟩ := token
    rw [run_cons] at h
    rcases bind_eq_error.mp h with hstep | ⟨r₁, hstep, hrun⟩
    · exact ⟨[], offset, t, rest, r, rfl, rfl, hstep⟩
    · obtain ⟨before, place, u, after, r', rfl, hbefore, hfault⟩ := ih hrun
      refine ⟨(offset, t) :: before, place, u, after, r', rfl, ?_, hfault⟩
      rw [run_cons, hstep]
      exact hbefore

end Reader

/-! ### Viable tokens -/

theorem readTokens_eq_ok : readTokens n placed = .ok e ↔
    ∃ r, Reader.start.run placed = .ok r ∧ r.finish n = .ok e := by
  cases placed with
  | nil =>
    constructor
    · intro h
      cases h
    · rintro ⟨r, hrun, hfinish⟩
      cases hrun
      cases hfinish
  | cons token rest => exact bind_eq_ok

/-- Tokens of no text in particular. -/
def unplaced (ts : List Token) : List (Nat × Token) :=
  ts.map fun t => (0, t)

theorem map_unplaced (ts : List Token) : (unplaced ts).map (·.2) = ts := by
  rw [unplaced, List.map_map]
  exact List.map_id ts

namespace Reader

/-- What is open can be closed. -/
theorem run_closing (l : Level) (outer : Outer) : ∃ l' : Level,
    Reader.run ⟨l, outer, true⟩ (unplaced (outer.map fun _ => .closeParen)) =
      .ok ⟨l', [], true⟩ := by
  induction outer generalizing l with
  | nil => exact ⟨l, rfl⟩
  | cons entry outer ih => exact ih (entry.2.add l.close)

/-- Whatever the reader holds can be completed. -/
theorem exists_completion (r : Reader) :
    ∃ placed r', r.run placed = .ok r' ∧ ∃ e, r'.finish 0 = .ok e := by
  obtain ⟨l, outer, complete⟩ := r
  cases complete with
  | true =>
    obtain ⟨l', hclosing⟩ := run_closing l outer
    exact ⟨_, _, hclosing, _, rfl⟩
  | false =>
    -- Any word does as the operand that is waited for.
    obtain ⟨l', hclosing⟩ := run_closing (l.add (keyword "x")) outer
    exact ⟨(0, .word "x") :: _, _, hclosing, _, rfl⟩

end Reader

theorem viable_iff :
    Viable (placed.map (·.2)) ↔ ∃ r, Reader.start.run placed = .ok r := by
  constructor
  · rintro ⟨us, e, hspells⟩
    have htokens : (placed ++ unplaced us).map (·.2) = placed.map (·.2) ++ us := by
      rw [List.map_append, map_unplaced]
    rw [← htokens, ← readTokens_eq_ok_iff 0, readTokens_eq_ok] at hspells
    obtain ⟨r, hrun, -⟩ := hspells
    rw [Reader.run_append, bind_eq_ok] at hrun
    obtain ⟨r', hrun, -⟩ := hrun
    exact ⟨r', hrun⟩
  · rintro ⟨r, hrun⟩
    obtain ⟨more, r', hmore, e, hfinish⟩ := r.exists_completion
    refine ⟨more.map (·.2), e, ?_⟩
    rw [← List.map_append, ← readTokens_eq_ok_iff 0, readTokens_eq_ok, Reader.run_append, hrun]
    exact ⟨r', hmore, hfinish⟩

theorem viable_nil : Viable [] :=
  ⟨[.word "x"], _, _, .one (.one (.word "x")), rfl⟩

/-- What comes before viable tokens is viable. -/
theorem Viable.of_initial (h : Viable us) (hts : ts <+: us) : Viable ts := by
  obtain ⟨vs, rfl⟩ := hts
  obtain ⟨ws, e, hspells⟩ := h
  exact ⟨vs ++ ws, e, List.append_assoc ts vs ws ▸ hspells⟩

/-- The reader stops at the token that makes the tokens up to it not viable. -/
theorem not_viable_of_step (hrun : Reader.start.run placed = .ok r)
    (hstep : r.step offset t = .error fault) : ¬Viable (placed.map (·.2) ++ [t]) := by
  have hmap : (placed ++ [(offset, t)]).map (·.2) = placed.map (·.2) ++ [t] := List.map_append
  rw [← hmap, viable_iff]
  rintro ⟨r', hrun'⟩
  rw [Reader.run_append, hrun] at hrun'
  rcases bind_eq_ok.mp hrun' with ⟨r₁, hok, hrun'⟩
  cases hok
  rw [Reader.run_cons, hstep] at hrun'
  cases hrun'

/-! ### Parentheses -/

/-- The parentheses stand in pairs. -/
inductive Paired : List Token → Prop
  | nil : Paired []
  | snoc {ts : List Token} {t : Token} (h : Paired ts) (ht : t.isParen = false) :
    Paired (ts ++ [t])
  | parens {ts us : List Token} (h : Paired ts) (h' : Paired us) :
    Paired (ts ++ .openParen :: (us ++ [.closeParen]))

/-- The places of the parentheses that are open behind the tokens, the innermost in front. -/
inductive Opened : List Nat → List (Nat × Token) → Prop
  | nil {placed : List (Nat × Token)} (h : Paired (placed.map (·.2))) : Opened [] placed
  | cons {places : List Nat} {outside inside : List (Nat × Token)} (place : Nat)
    (h : Opened places outside) (h' : Paired (inside.map (·.2))) :
    Opened (place :: places) (outside ++ (place, .openParen) :: inside)

namespace Opened
variable {places : List Nat} {place : Nat}

theorem snoc (h : Opened places placed) (ht : t.isParen = false) :
    Opened places (placed ++ [(offset, t)]) := by
  cases h with
  | nil h =>
    refine .nil ?_
    rw [List.map_append]
    exact h.snoc ht
  | cons place h h' =>
    rw [List.append_assoc, List.cons_append]
    refine .cons place h ?_
    rw [List.map_append]
    exact h'.snoc ht

/-- The innermost parenthesis is closed, and makes a pair inside the next one. -/
theorem close (h : Opened (place :: places) placed) :
    Opened places (placed ++ [(offset, .closeParen)]) := by
  cases h with
  | @cons _ outside inside _ h h' =>
    rw [List.append_assoc, List.cons_append]
    cases h with
    | nil h =>
      refine .nil ?_
      simp only [List.map_append, List.map_cons, List.map_nil]
      exact h.parens h'
    | cons outer h h'' =>
      rw [List.append_assoc, List.cons_append]
      refine .cons outer h ?_
      simp only [List.map_append, List.map_cons, List.map_nil]
      exact h''.parens h'

theorem step (h : Opened (r.outer.map (·.1)) placed) (hstep : r.step offset t = .ok r') :
    Opened (r'.outer.map (·.1)) (placed ++ [(offset, t)]) := by
  obtain ⟨-, ⟨ht, houter⟩ | ⟨rfl, houter⟩ | ⟨rfl, place, level, houter⟩⟩ := Reader.step_ok hstep
  · rw [houter]
    exact h.snoc ht
  · rw [houter]
    exact .cons offset h .nil
  · rw [houter] at h
    exact h.close

theorem run {more : List (Nat × Token)} (h : Opened (r.outer.map (·.1)) placed)
    (hrun : r.run more = .ok r') : Opened (r'.outer.map (·.1)) (placed ++ more) := by
  induction more generalizing r placed with
  | nil =>
    cases hrun
    rwa [List.append_nil]
  | cons token rest ih =>
    obtain ⟨offset, t⟩ := token
    obtain ⟨r₁, hstep, hrun⟩ := bind_eq_ok.mp hrun
    rw [List.append_cons]
    exact ih (h.step hstep) hrun

end Opened

theorem opened_of_run (h : Reader.start.run placed = .ok r) :
    Opened (r.outer.map (·.1)) placed := by
  have hstart : Opened (Reader.start.outer.map (·.1)) [] := .nil .nil
  exact hstart.run h

/-- After the last token of a run the reader waits for an operand or it does not. -/
theorem Reader.complete_of_run (h : r.run (placed ++ [(offset, t)]) = .ok r') :
    r'.complete = !t.awaitsOperand := by
  rw [run_append] at h
  obtain ⟨r₁, -, h⟩ := bind_eq_ok.mp h
  obtain ⟨r₂, hstep, h⟩ := bind_eq_ok.mp h
  cases h
  exact (step_ok hstep).1

/-! ### What a fault is about -/

/-- At the end an operand is missing, or the innermost parenthesis that is open. -/
theorem Reader.finish_error (hopened : Opened (r.outer.map (·.1)) placed)
    (h : r.finish n = .error fault) :
    r.complete = false ∧ fault.offset = n ∨
      r.complete = true ∧ ∃ outside inside,
        placed = outside ++ (fault.offset, .openParen) :: inside ∧
          Paired (inside.map (·.2)) := by
  obtain ⟨inner, outer, complete⟩ := r
  cases complete with
  | false =>
    cases h
    exact .inl ⟨rfl, rfl⟩
  | true =>
    cases outer with
    | nil => cases h
    | cons entry outer =>
      cases h
      cases hopened with
      | cons place _ hinside => exact .inr ⟨rfl, _, _, rfl, hinside⟩

theorem readTokens_eq_error (hne : placed ≠ []) (h : readTokens n placed = .error fault) :
    Reader.start.run placed = .error fault ∨
      ∃ r, Reader.start.run placed = .ok r ∧ r.finish n = .error fault := by
  cases placed with
  | nil => exact absurd rfl hne
  | cons token rest => exact bind_eq_error.mp h

/-- The token that a run stops at is the first one that nothing can follow. -/
theorem run_error_offset (h : Reader.start.run placed = .error fault) :
    ∃ before offset t after, placed = before ++ (offset, t) :: after ∧
      Viable (before.map (·.2)) ∧ ¬Viable (before.map (·.2) ++ [t]) ∧ fault.offset = offset := by
  obtain ⟨before, offset, t, after, r, rfl, hrun, hstep⟩ := Reader.run_error h
  exact ⟨before, offset, t, after, rfl, viable_iff.mpr ⟨r, hrun⟩, not_viable_of_step hrun hstep,
    Reader.step_error hstep⟩

/-- The end of a run that no token stopped. -/
theorem finish_offset (hrun : Reader.start.run placed = .ok r)
    (hfinish : r.finish n = .error fault) {before : List (Nat × Token)}
    (hlast : placed = before ++ [(offset, t)]) :
    if t.awaitsOperand then fault.offset = n
    else ∃ outside inside, placed = outside ++ (fault.offset, .openParen) :: inside ∧
      Paired (inside.map (·.2)) := by
  have hopened := opened_of_run hrun
  rw [hlast] at hrun
  have hcomplete := Reader.complete_of_run hrun
  obtain ⟨hr, hend⟩ | ⟨hr, hplace⟩ := Reader.finish_error hopened hfinish
  · rw [hr] at hcomplete
    rw [if_pos (by simpa using hcomplete)]
    exact hend
  · rw [hr] at hcomplete
    rw [if_neg (by simpa using hcomplete)]
    exact hplace

/-- Whatever the fault, a character begins at its place, or the text ends. -/
theorem isValid_fault {text : String} (h : read text = .error fault) :
    (⟨fault.offset⟩ : String.Pos.Raw).IsValid text := by
  by_cases hne : tokens text = []
  · rw [read, hne] at h
    cases h
    exact isValid_of_split (List.nil_append text.toList).symm
  · obtain hrun | ⟨r, hrun, hfinish⟩ := readTokens_eq_error hne h
    · obtain ⟨before, offset, t, after, htokens, -, -, rfl⟩ := run_error_offset hrun
      refine isValid_of_mem_tokens (t := t) ?_
      rw [htokens]
      exact List.mem_append_right before List.mem_cons_self
    · obtain ⟨-, hend⟩ | ⟨-, outside, inside, htokens, -⟩ :=
        Reader.finish_error (opened_of_run hrun) hfinish
      · have hall := isValid_of_split (List.append_nil text.toList).symm
        rwa [width_eq, String.ofList_toList, ← hend] at hall
      · have hmem : (fault.offset, .openParen) ∈ tokens text := by
          rw [htokens]
          exact List.mem_append_right outside List.mem_cons_self
        exact isValid_of_mem_tokens hmem

/-- A text without tokens is at fault where it begins. The fault of any other text is about the
first token that makes the tokens up to it not viable. Where there is none, it is about the end
of the text if an operand has to follow, and about the innermost open parenthesis if not. Tokens
and faults are where characters begin, or at the end. -/
theorem fault_offset (text : String) :
    (tokens text = [] → ∃ fault, read text = .error fault ∧ fault.offset = 0) ∧
    (∀ offset t, (offset, t) ∈ tokens text → ∃ before c rest, text.toList = before ++ c :: rest ∧
      offset = width before ∧ (token c rest).1 = t) ∧
    ∀ fault, read text = .error fault →
      ((∃ ts, ts <+: (tokens text).map (·.2) ∧ ¬Viable ts) →
        ∃ before offset t after, tokens text = before ++ (offset, t) :: after ∧
          ¬Viable (before.map (·.2) ++ [t]) ∧ (∀ ts, ts <+: before.map (·.2) → Viable ts) ∧
          fault.offset = offset) ∧
      ((∀ ts, ts <+: (tokens text).map (·.2) → Viable ts) →
        ∀ before last t, tokens text = before ++ [(last, t)] →
          if t.awaitsOperand then fault.offset = text.utf8ByteSize
          else ∃ outside inside, tokens text = outside ++ (fault.offset, .openParen) :: inside ∧
            Paired (inside.map (·.2))) ∧
      (⟨fault.offset⟩ : String.Pos.Raw).IsValid text ∧ fault.offset ≤ text.utf8ByteSize := by
  refine ⟨fun h => ?_, fun offset t h => ?_, fun fault h => ?_⟩
  · refine ⟨.empty, ?_, rfl⟩
    rw [read, h]
    rfl
  · exact mem_tokens h
  · have hvalid := isValid_fault h
    refine ⟨?_, ?_, hvalid, hvalid.le_rawEndPos⟩
    · rintro ⟨ts, hts, hviable⟩
      have hne : tokens text ≠ [] := by
        intro hnil
        rw [hnil] at hts
        rw [List.prefix_nil.mp hts] at hviable
        exact hviable viable_nil
      obtain hrun | ⟨r, hrun, -⟩ := readTokens_eq_error hne h
      · obtain ⟨before, offset, t, after, htokens, hbefore, ht, hoffset⟩ := run_error_offset hrun
        exact ⟨before, offset, t, after, htokens, ht, fun us hus => hbefore.of_initial hus, hoffset⟩
      · -- The reader would have stopped before the end.
        exact absurd ((viable_iff.mpr ⟨r, hrun⟩).of_initial hts) hviable
    · intro hviable before last t htokens
      have hne : tokens text ≠ [] := by
        rw [htokens]
        exact List.append_ne_nil_of_right_ne_nil before (List.cons_ne_nil _ _)
      obtain hrun | ⟨r, hrun, hfinish⟩ := readTokens_eq_error hne h
      · obtain ⟨r, hok⟩ := viable_iff.mp (hviable _ (List.prefix_refl _))
        rw [hok] at hrun
        cases hrun
      · exact finish_offset hrun hfinish htokens

end ContextPolicy.Expression
