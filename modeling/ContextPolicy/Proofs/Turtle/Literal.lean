import ContextPolicy.Proofs.Document.Guarded

/-! Literals off the front of a text.

`literal?` reads one by the rules for quoted values: short or long quotes with their
escapes, and right behind them a language tag or a reference, which it does not resolve. It
finds each literal that the grammar derives in front of white space
(`TermText.literal?_eq`), so no text begins with two. What is written for a literal is
such a text, however its value has to be quoted (`literal?_written`). -/
namespace ContextPolicy.Turtle

/-- The literal of a value, with what is read of the text behind its quotes. -/
def literalOf (value : List Char) : List Char → Option (Term × List Char)
  | '@' :: rest =>
    match tagToken rest with
    | some (.tag lang, left) => some (.tagged (String.ofList value) (String.ofList lang), left)
    | _ => none
  | '^' :: '^' :: '<' :: rest =>
    (reference rest).map fun (iri, left) => (.typed (String.ofList value) (String.ofList iri), left)
  | '^' :: _ => none
  | rest => some (.plain (String.ofList value), rest)

/-- The literal that a text begins with, and what follows it. -/
def literal? : List Char → Option (Term × List Char)
  | '"' :: rest =>
    match quotedToken '"' rest with
    | some (.quoted value, left) => literalOf value left
    | _ => none
  | _ => none

theorem literal?_append {cs value rest : List Char} (h : StringText cs value)
    (hrest : Unquoted rest) : literal? (cs ++ rest) = literalOf value rest := by
  obtain ⟨more, rfl, hmore⟩ := h.quotedToken
  rw [List.cons_append, literal?, hmore rest hrest]

theorem unquoted_cons {c : Char} (h : c ≠ '"') (cs : List Char) : Unquoted (c :: cs) :=
  fun hmark => h (Option.some.inj hmark)

theorem separated_blank (cs : List Char) : Separated (' ' :: cs) := by
  rintro c ⟨⟩
  rfl

theorem literalOf_separated (value : List Char) {rest : List Char} (h : Separated rest) :
    literalOf value rest = some (.plain (String.ofList value), rest) := by
  cases rest with
  | nil => rfl
  | cons c rest => obtain rfl | rfl | rfl | rfl := (isBlank_iff c).mp (h c rfl) <;> rfl

/-- A literal of the grammar is read where white space or nothing follows it. -/
theorem TermText.literal?_eq {cs rest : List Char} {t : Term} (h : TermText some cs t)
    (hliteral : t.isLiteral = true) (hrest : Separated rest) :
    literal? (cs ++ rest) = some (t, rest) := by
  cases h with
  | iri h => cases hliteral
  | label h => cases hliteral
  | plain h => rw [literal?_append h hrest.unquoted, literalOf_separated _ hrest]
  | tagged h htag =>
    rw [List.append_assoc, List.cons_append, literal?_append h (unquoted_cons (by decide) _),
      literalOf, htag.tagToken hrest]
  | typed h hdatatype =>
    obtain ⟨htext, hiri⟩ := hdatatype
    cases hiri
    rw [List.append_assoc, List.cons_append, literal?_append h (unquoted_cons (by decide) _)]
    simp only [List.cons_append, List.append_assoc, List.nil_append]
    rw [literalOf, htext.reference]
    rfl

/-- In front of white space a text begins with one literal of the grammar at most. -/
theorem TermText.literal_unique {cs ds rest behind : List Char} {t u : Term}
    (ht : TermText some cs t) (hu : TermText some ds u) (htliteral : t.isLiteral = true)
    (huliteral : u.isLiteral = true) (hrest : Separated rest) (hbehind : Separated behind)
    (h : cs ++ rest = ds ++ behind) : cs = ds ∧ t = u ∧ rest = behind := by
  have hread := ht.literal?_eq htliteral hrest
  rw [h, hu.literal?_eq huliteral hbehind] at hread
  obtain ⟨rfl, rfl⟩ := Prod.mk.inj (Option.some.inj hread)
  exact ⟨List.append_cancel_right h, rfl, rfl⟩

/-- What is written for a literal that passes its guard, with one tag at most, is read as
this literal up to the dot behind it, whatever the value holds and whatever follows. By the
grammar, too, the text begins with this literal and no other. -/
theorem literal?_written {value : String} {datatype lang : Option String}
    (hone : datatype = none ∨ lang = none)
    (h : (Term.literal value datatype lang).writable = true) (behind : List Char) :
    let t := Term.literal value datatype lang
    literal? (t.written ++ ' ' :: '.' :: behind) = some (t, ' ' :: '.' :: behind) ∧
    ∀ cs u rest, TermText some cs u → u.isLiteral = true → Separated rest →
      cs ++ rest = t.written ++ ' ' :: '.' :: behind →
        cs = t.written ∧ u = t ∧ rest = ' ' :: '.' :: behind := by
  intro t
  have htext := Term.literalText_withoutHidden h rfl
  rw [t.withoutHidden_eq_self_iff.mpr hone] at htext
  have hbehind : Separated (' ' :: '.' :: behind) := separated_blank _
  exact ⟨htext.literal?_eq rfl hbehind, fun cs u rest hu hliteral hrest heq =>
    hu.literal_unique htext hliteral rfl hrest hbehind heq⟩

/-- A value of quotation marks around a line feed and what looks like an escape, in front of
what looks like another tag. -/
theorem literal?_written_marks :
    let t := Term.literal "\"\"\"\n\\n\"" none (some "en-GB")
    let behind := " @de .".toList
    t.writable = true ∧
      literal? (t.written ++ ' ' :: '.' :: behind) = some (t, ' ' :: '.' :: behind) :=
  ⟨by decide, (literal?_written (.inl rfl) (by decide) _).1⟩

end ContextPolicy.Turtle
