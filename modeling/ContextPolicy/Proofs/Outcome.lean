/-! What becomes of steps that may fail, one behind the other: the whole succeeds as its
parts do, and a fault of the whole is a fault of one of them. Faults may be told in other
words before or after the steps. -/
namespace ContextPolicy

section
variable {ε α β : Type} {x : Except ε α}

theorem bind_eq_ok {f : α → Except ε β} {b : β} :
    x >>= f = .ok b ↔ ∃ a, x = .ok a ∧ f a = .ok b := by
  cases x with
  | error e =>
    constructor
    · intro h
      cases h
    · rintro ⟨a, h, -⟩
      cases h
  | ok a =>
    constructor
    · exact fun h => ⟨a, rfl, h⟩
    · rintro ⟨a', h, hb⟩
      cases h
      exact hb

theorem bind_eq_error {f : α → Except ε β} {e : ε} :
    x >>= f = .error e ↔ x = .error e ∨ ∃ a, x = .ok a ∧ f a = .error e := by
  cases x with
  | error e' =>
    constructor
    · intro h
      cases h
      exact .inl rfl
    · rintro (h | ⟨a, h, -⟩)
      · cases h
        rfl
      · cases h
  | ok a =>
    constructor
    · exact fun h => .inr ⟨a, rfl, h⟩
    · rintro (h | ⟨a', h, he⟩)
      · cases h
      · cases h
        exact he

theorem map_eq_ok {f : α → β} {b : β} (h : x.map f = .ok b) : ∃ a, x = .ok a ∧ b = f a := by
  cases x with
  | error e => cases h
  | ok a =>
    cases h
    exact ⟨a, rfl, rfl⟩

theorem eq_error_of_map {f : α → β} {e : ε} (h : x.map f = .error e) : x = .error e := by
  cases x with
  | error e' =>
    cases h
    rfl
  | ok a => cases h

/-- What each step of a fold keeps, the fold keeps. -/
theorem foldlM_keeps {P : β → Prop} {f : β → α → Except ε β}
    (hstep : ∀ b a b', P b → f b a = .ok b' → P b') {xs : List α} {b b' : β} (hb : P b)
    (h : xs.foldlM f b = .ok b') : P b' := by
  induction xs generalizing b with
  | nil =>
    cases h
    exact hb
  | cons a rest ih =>
    rw [List.foldlM_cons] at h
    obtain ⟨middle, ha, hrest⟩ := bind_eq_ok.mp h
    exact ih (hstep b a middle hb ha) hrest

theorem ok_of_toOption {a : α} (h : x.toOption = some a) : x = .ok a := by
  cases x with
  | error e => cases h
  | ok b => rw [Option.some.inj h]

end

/-! ### Faults told in other words -/

section
variable {ε ε' α β : Type}

theorem mapError_map (f : α → β) (r : ε → ε') (x : Except ε α) :
    (x.map f).mapError r = (x.mapError r).map f := by
  cases x <;> rfl

theorem mapError_bind (f : α → Except ε β) (r : ε → ε') (x : Except ε α) :
    (x.bind f).mapError r = (x.mapError r).bind fun a => (f a).mapError r := by
  cases x <;> rfl

theorem mapError_id (x : Except ε α) : x.mapError id = x := by
  cases x <;> rfl

end

end ContextPolicy
