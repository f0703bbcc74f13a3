import ContextPolicy.Term.Writable
import ContextPolicy.Text.Hex

/-! References between angle brackets and values between quotes, read from behind what
opens them. Either may hold characters by their numbers; a value may also hold letters
behind a backslash. -/
namespace ContextPolicy.Turtle

/-! ### Escapes -/

/-- The character that exactly `n` hexadecimal digits stand for, and what follows them. -/
def numbered (n : Nat) (cs : List Char) : Option (Char × List Char) := do
  let value ← Text.ofHexDigits (cs.take n)
  if n ≤ cs.length ∧ value.isValidChar then pure (Char.ofNat value, cs.drop n) else none

/-- The character that a backslash and `u` or `U` introduce. -/
def numberedEscape (c : Char) (rest : List Char) : Option (Char × List Char) :=
  if c = 'u' then numbered 4 rest else if c = 'U' then numbered 8 rest else none

/-- The character that follows a backslash inside quotes. -/
def escaped (c : Char) (rest : List Char) : Option (Char × List Char) :=
  match c with
  | 't' => some ('\t', rest)
  | 'b' => some ('\x08', rest)
  | 'n' => some ('\n', rest)
  | 'r' => some ('\r', rest)
  | 'f' => some ('\x0c', rest)
  | '"' => some ('"', rest)
  | '\'' => some ('\'', rest)
  | '\\' => some ('\\', rest)
  | c => numberedEscape c rest

theorem numbered_suffix {n : Nat} {c : Char} {cs rest : List Char}
    (h : numbered n cs = some (c, rest)) : rest <:+ cs := by
  obtain ⟨value, -, h⟩ := Option.bind_eq_some_iff.mp h
  split at h
  · obtain ⟨-, rfl⟩ := Prod.mk.inj (Option.some.inj h)
    exact List.drop_suffix n cs
  · simp at h

theorem numberedEscape_suffix {c d : Char} {cs rest : List Char}
    (h : numberedEscape c cs = some (d, rest)) : rest <:+ cs := by
  unfold numberedEscape at h
  split at h
  · exact numbered_suffix h
  · split at h
    · exact numbered_suffix h
    · simp at h

theorem escaped_suffix {c d : Char} {cs rest : List Char}
    (h : escaped c cs = some (d, rest)) : rest <:+ cs := by
  unfold escaped at h
  split at h <;> first
    | exact numberedEscape_suffix h
    | simp_all

/-! ### References -/

/-- A character in front of those that were read. -/
def keep (c : Char) (found : List Char × List Char) : List Char × List Char :=
  (c :: found.1, found.2)

/-- A reference behind its opening bracket, and what follows it. An escape gives it no
character that it cannot hold as it is. -/
def reference (cs : List Char) : Option (List Char × List Char) :=
  match cs with
  | [] => none
  | '>' :: rest => some ([], rest)
  | '\\' :: c :: rest =>
    match h : numberedEscape c rest with
    | none => none
    | some (d, left) =>
      have := (numberedEscape_suffix h).length_le
      if Iri.forbidden d then none else (reference left).map (keep d)
  | c :: rest => if Iri.forbidden c then none else (reference rest).map (keep c)
termination_by cs.length

theorem reference_suffix {cs text rest : List Char} (h : reference cs = some (text, rest)) :
    rest <:+ cs := by
  fun_induction reference cs generalizing text rest with
  | case1 => simp at h
  | case2 => simp_all [List.suffix_cons]
  | case3 => simp at h
  | case4 | case6 => simp at h
  | case5 c rest d left hd _ _ ih =>
    obtain ⟨⟨text, rest⟩, hr, h⟩ := Option.map_eq_some_iff.mp h
    obtain ⟨-, rfl⟩ := Prod.mk.inj h
    have := (ih hr).trans (numberedEscape_suffix hd)
    grind [List.suffix_cons_iff]
  | case7 c rest _ _ _ ih =>
    obtain ⟨⟨text, rest⟩, hr, h⟩ := Option.map_eq_some_iff.mp h
    obtain ⟨-, rfl⟩ := Prod.mk.inj h
    exact List.suffix_cons_iff.mpr (.inr (ih hr))

/-! ### Quotes -/

/-- How a quoted value ends. -/
structure Quotes where
  mark : Char
  long : Bool
deriving DecidableEq, Repr

def Quotes.marks (q : Quotes) : List Char :=
  List.replicate (if q.long then 3 else 1) q.mark

/-- What follows the closing quotes, if they stand here. -/
def Quotes.close? (q : Quotes) (cs : List Char) : Option (List Char) :=
  if q.marks.isPrefixOf cs then some (cs.drop q.marks.length) else none

theorem Quotes.close?_suffix {q : Quotes} {cs rest : List Char} (h : q.close? cs = some rest) :
    rest <:+ cs := by
  unfold close? at h
  split at h
  · exact Option.some.inj h ▸ List.drop_suffix ..
  · simp at h

/-- A value behind its opening quotes, and what follows the closing ones. Only long quotes
hold line ends. -/
def quotedValue (q : Quotes) (cs : List Char) : Option (List Char × List Char) :=
  match q.close? cs with
  | some rest => some ([], rest)
  | none =>
    match cs with
    | [] => none
    | '\\' :: c :: rest =>
      match h : escaped c rest with
      | none => none
      | some (d, left) =>
        have := (escaped_suffix h).length_le
        (quotedValue q left).map (keep d)
    | c :: rest =>
      if c = '\\' || (!q.long && (c = '\n' || c = '\r')) then none
      else (quotedValue q rest).map (keep c)
termination_by cs.length

/-- The quotes that a value behind a quotation mark stands in, and what follows them. -/
def openQuotes (mark : Char) (cs : List Char) : Quotes × List Char :=
  if [mark, mark].isPrefixOf cs then (⟨mark, true⟩, cs.drop 2) else (⟨mark, false⟩, cs)

theorem openQuotes_suffix (mark : Char) (cs : List Char) : (openQuotes mark cs).2 <:+ cs := by
  unfold openQuotes
  split
  · exact List.drop_suffix 2 cs
  · exact List.suffix_refl _

theorem quotedValue_suffix {q : Quotes} {cs value rest : List Char}
    (h : quotedValue q cs = some (value, rest)) : rest <:+ cs := by
  fun_induction quotedValue q cs generalizing value rest with
  | case1 cs left hc =>
    obtain ⟨-, rfl⟩ := Prod.mk.inj (Option.some.inj h)
    exact Quotes.close?_suffix hc
  | case2 | case3 | case5 => simp at h
  | case4 c rest d left hd _ _ ih =>
    obtain ⟨⟨text, rest⟩, hr, h⟩ := Option.map_eq_some_iff.mp h
    obtain ⟨-, rfl⟩ := Prod.mk.inj h
    have := (ih hr).trans (escaped_suffix hd)
    grind [List.suffix_cons_iff]
  | case6 c rest _ _ _ ih =>
    obtain ⟨⟨text, rest⟩, hr, h⟩ := Option.map_eq_some_iff.mp h
    obtain ⟨-, rfl⟩ := Prod.mk.inj h
    exact List.suffix_cons_iff.mpr (.inr (ih hr))

end ContextPolicy.Turtle
