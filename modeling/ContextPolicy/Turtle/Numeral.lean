import ContextPolicy.Names

/-! The numbers of Turtle. A point belongs to a number only if a digit follows it, or an
exponent where digits stand in front. -/
namespace ContextPolicy.Turtle

/-- The digits in front of a text and what follows them. -/
def digitChars (cs : List Char) : List Char × List Char :=
  (cs.takeWhile Char.isDigit, cs.dropWhile Char.isDigit)

def numberSign : List Char → List Char × List Char
  | '+' :: rest => (['+'], rest)
  | '-' :: rest => (['-'], rest)
  | cs => ([], cs)

/-- An exponent with at least one digit. -/
def exponentChars : List Char → Option (List Char × List Char)
  | [] => none
  | mark :: cs =>
    let (sign, rest) := numberSign cs
    let (ds, rest) := digitChars rest
    if (mark = 'e' ∨ mark = 'E') ∧ ds ≠ [] then some (mark :: sign ++ ds, rest) else none

/-- A point with the digits behind it. A point without digits needs some in front of it and
an exponent behind it. -/
def fractionChars (whole : List Char) : List Char → Option (List Char × List Char)
  | '.' :: rest =>
    let (ds, rest) := digitChars rest
    if ds ≠ [] ∨ (whole ≠ [] ∧ (exponentChars rest).isSome) then some ('.' :: ds, rest) else none
  | _ => none

/-- A number and the IRI of its datatype: without a point or an exponent an integer,
without an exponent a decimal, else a double. -/
def numeral (cs : List Char) : Option ((List Char × String) × List Char) :=
  let (sign, rest) := numberSign cs
  let (whole, rest) := digitChars rest
  match fractionChars whole rest with
  | none =>
    if whole = [] then none
    else
      match exponentChars rest with
      | none => some ((sign ++ whole, Names.Xsd.integer), rest)
      | some (exponent, rest) => some ((sign ++ whole ++ exponent, Names.Xsd.double), rest)
  | some (fraction, rest) =>
    match exponentChars rest with
    | none => some ((sign ++ whole ++ fraction, Names.Xsd.decimal), rest)
    | some (exponent, rest) =>
      some ((sign ++ whole ++ fraction ++ exponent, Names.Xsd.double), rest)

/-! Nothing is lost: what is read stands in front of what follows. -/

theorem numberSign_append (cs : List Char) : (numberSign cs).1 ++ (numberSign cs).2 = cs := by
  unfold numberSign
  split <;> rfl

theorem digitChars_append (cs : List Char) : (digitChars cs).1 ++ (digitChars cs).2 = cs :=
  List.takeWhile_append_dropWhile

theorem exponentChars_append {cs exponent rest : List Char}
    (h : exponentChars cs = some (exponent, rest)) : exponent ++ rest = cs := by
  cases cs with
  | nil => simp [exponentChars] at h
  | cons mark cs =>
    have hs := numberSign_append cs
    have hd := digitChars_append (numberSign cs).2
    simp only [exponentChars] at h
    split at h
    · obtain ⟨rfl, rfl⟩ := Prod.mk.inj (Option.some.inj h)
      simp [hd, hs]
    · simp at h

theorem fractionChars_append {whole cs fraction rest : List Char}
    (h : fractionChars whole cs = some (fraction, rest)) : fraction ++ rest = cs := by
  unfold fractionChars at h
  split at h
  · rename_i rest
    simp only at h
    split at h
    · obtain ⟨rfl, rfl⟩ := Prod.mk.inj (Option.some.inj h)
      simp [digitChars_append]
    · simp at h
  · simp at h

theorem fractionChars_ne_nil {whole cs fraction rest : List Char}
    (h : fractionChars whole cs = some (fraction, rest)) : fraction ≠ [] := by
  unfold fractionChars at h
  split at h
  · simp only at h
    split at h <;> simp_all
    exact fun hf => by simp [← h.1] at hf
  · simp at h

theorem numeral_append {cs rest : List Char} {n : List Char × String}
    (h : numeral cs = some (n, rest)) : n.1 ++ rest = cs ∧ n.1 ≠ [] := by
  have hs := numberSign_append cs
  have hd := digitChars_append (numberSign cs).2
  simp only [numeral] at h
  split at h
  · split at h
    · simp at h
    · split at h
      · obtain ⟨rfl, rfl⟩ := Prod.mk.inj (Option.some.inj h)
        simp_all
      · rename_i he
        obtain ⟨rfl, rfl⟩ := Prod.mk.inj (Option.some.inj h)
        have he := exponentChars_append he
        simp_all
  · rename_i hf
    have hne := fractionChars_ne_nil hf
    have hf := fractionChars_append hf
    split at h
    · obtain ⟨rfl, rfl⟩ := Prod.mk.inj (Option.some.inj h)
      simp_all
    · rename_i he
      obtain ⟨rfl, rfl⟩ := Prod.mk.inj (Option.some.inj h)
      have he := exponentChars_append he
      simp_all

theorem length_of_numeral {cs rest : List Char} {n : List Char × String}
    (h : numeral cs = some (n, rest)) : rest.length < cs.length := by
  obtain ⟨happ, hne⟩ := numeral_append h
  have hpos := List.length_pos_iff.mpr hne
  rw [← happ, List.length_append]
  omega

end ContextPolicy.Turtle
