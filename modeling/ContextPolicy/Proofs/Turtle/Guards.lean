import ContextPolicy.Proofs.Turtle.Grammar

/-! What the guards of written terms let through, in terms of the grammar.

For references and tags a guard and its production agree: `Iri.writable_iff`,
`Lang.writable_iff`. The guards of labels and prefix names ask for letters and digits in the
sense of Unicode, where the grammar lists ranges of code points. The ranges have all letters
and digits but those in `strayRanges`, and let a name begin with all of these but those in
`combiningRanges`. So a label or a name that passes its guard is one of the grammar exactly
if it is `Spellable`. -/
namespace ContextPolicy

/-! ### Ranges -/

namespace Text.Ranges

/-- Whether the code points from `low` to `high` lie in the ranges, which may follow on each
other but are looked at in one pass. -/
def spans (ranges : Ranges) (low high : Nat) : Bool :=
  match ranges with
  | [] => high < low
  | r :: rest => spans rest (if r.1 ≤ low then max low (r.2 + 1) else low) high

theorem exists_of_spans {ranges : Ranges} {low high n : Nat} (h : ranges.spans low high = true)
    (hlow : low ≤ n) (hhigh : n ≤ high) : ∃ r ∈ ranges, r.1 ≤ n ∧ n ≤ r.2 := by
  induction ranges generalizing low with
  | nil =>
    have hempty : high < low := of_decide_eq_true h
    omega
  | cons r rest ih =>
    by_cases hr : r.1 ≤ n ∧ n ≤ r.2
    · exact ⟨r, List.mem_cons_self, hr⟩
    · have hnext : (if r.1 ≤ low then max low (r.2 + 1) else low) ≤ n := by
        split <;> omega
      obtain ⟨s, hs, hn⟩ := ih h hnext
      exact ⟨s, List.mem_cons_of_mem r hs, hn⟩

theorem covers_of_spans {ranges others : Ranges} {c : Char}
    (h : ∀ r ∈ ranges, others.spans r.1 r.2 = true) (hc : ranges.covers c = true) :
    others.covers c = true := by
  obtain ⟨r, hr, hlow, hhigh⟩ := (covers_iff ranges c).mp hc
  exact (covers_iff others c).mpr (exists_of_spans (h r hr) hlow hhigh)

theorem not_covers_of_apart {ranges others : Ranges} {c : Char}
    (h : ∀ r ∈ ranges, ∀ s ∈ others, r.2 < s.1 ∨ s.2 < r.1) (hc : ranges.covers c = true) :
    others.covers c = false := by
  refine Bool.eq_false_iff.mpr fun hother => ?_
  obtain ⟨r, hr, hlow, hhigh⟩ := (covers_iff ranges c).mp hc
  obtain ⟨s, hs, hlow', hhigh'⟩ := (covers_iff others c).mp hother
  have := h r hr s hs
  omega

theorem covers_append (ranges others : Ranges) (c : Char) :
    covers (ranges ++ others) c = (ranges.covers c || others.covers c) :=
  List.any_append

end Text.Ranges

/-! ### Names -/

namespace Turtle

/-- Letters and digits that no name has: ordinal signs, the micro sign, digits above the
line, fractions, and what stands in circles, brackets or in front of a full stop. -/
def strayRanges : Text.Ranges := [
  (0xaa, 0xaa), (0xb2, 0xb3), (0xb5, 0xb5), (0xb9, 0xba), (0xbc, 0xbe), (0x2460, 0x249b),
  (0x24b6, 0x24ff), (0x2776, 0x2793)]

/-- Letters that stand on the letter before them, with which a name can only go on. -/
def combiningRanges : Text.Ranges := [(0x345, 0x345), (0x363, 0x36f)]

def isStray (c : Char) : Bool :=
  strayRanges.covers c

def isCombining (c : Char) : Bool :=
  combiningRanges.covers c

/-- Without characters that no name has, and not beginning with one that none begins with. -/
def Spellable (cs : List Char) : Prop :=
  (∀ c ∈ cs, isStray c = false) ∧ cs.head?.any isCombining = false

instance (cs : List Char) : Decidable (Spellable cs) :=
  have := List.decidableBAll (fun c => isStray c = false) cs
  inferInstanceAs (Decidable (_ ∧ _))

theorem isDigit_iff (c : Char) : c.isDigit = true ↔ 0x30 ≤ c.toNat ∧ c.toNat ≤ 0x39 := by
  simp only [Char.isDigit, Bool.and_eq_true, decide_eq_true_eq]
  exact Iff.rfl

/-- Beyond ASCII a label begins like a prefix. -/
theorem isLabelStart_of_le {c : Char} (h : 0x80 ≤ c.toNat) : isLabelStart c = isPrefixStart c := by
  have hdigit : c.isDigit = false := Bool.eq_false_iff.mpr fun hd => by
    have := (isDigit_iff c).mp hd
    omega
  have hscore : (c == '_') = false := beq_false_of_ne fun heq => by
    subst heq
    exact absurd h (by decide)
  rw [isLabelStart, hdigit, hscore, Bool.or_false, Bool.or_false]

theorem isNameChar_of_isLabelStart {c : Char} (h : isLabelStart c = true) :
    isNameChar c = true := by
  rw [isNameChar, h]
  rfl

theorem le_of_isStray {c : Char} (h : isStray c = true) : 0x80 ≤ c.toNat := by
  obtain ⟨r, hr, hle, -⟩ := (Text.Ranges.covers_iff _ c).mp h
  have hfirst : ∀ r ∈ strayRanges, 0x80 ≤ r.1 := by decide
  exact Nat.le_trans (hfirst r hr) hle

theorem le_of_isCombining {c : Char} (h : isCombining c = true) : 0x80 ≤ c.toNat := by
  obtain ⟨r, hr, hle, -⟩ := (Text.Ranges.covers_iff _ c).mp h
  have hfirst : ∀ r ∈ combiningRanges, 0x80 ≤ r.1 := by decide
  exact Nat.le_trans (hfirst r hr) hle

theorem isNameChar_of_isStray {c : Char} (h : isStray c = true) :
    isNameChar c = false ∧ c ≠ '.' := by
  have hle := le_of_isStray h
  have hstart : isPrefixStart c = false := Text.Ranges.not_covers_of_apart (by decide) h
  have hextend : Text.isNameExtend c = false := Text.Ranges.not_covers_of_apart (by decide) h
  have hne : ∀ d : Char, d.toNat < 0x80 → c ≠ d := by
    rintro d hd rfl
    omega
  refine ⟨?_, hne '.' (by decide)⟩
  rw [isNameChar, isLabelStart_of_le hle, hstart, hextend, beq_false_of_ne (hne '-' (by decide))]
  rfl

theorem isLabelStart_of_isCombining {c : Char} (h : isCombining c = true) :
    isLabelStart c = false := by
  rw [isLabelStart_of_le (le_of_isCombining h)]
  exact Text.Ranges.not_covers_of_apart (by decide) h

/-- A letter begins prefixes, or is one of those that do not. -/
theorem isPrefixStart_of_isAlphabetic {c : Char} (h : Text.isAlphabetic c = true) :
    isPrefixStart c = true ∨ isCombining c = true ∨ isStray c = true := by
  -- One range of letters goes on from combining ones into others, so these stand first.
  have hspans : ∀ r ∈ Text.alphabeticRanges, Text.Ranges.spans
      (combiningRanges ++ Text.nameStartRanges ++ strayRanges) r.1 r.2 = true := by
    decide +kernel
  have hcovers := Text.Ranges.covers_of_spans hspans h
  rw [Text.Ranges.covers_append, Text.Ranges.covers_append, Bool.or_eq_true,
    Bool.or_eq_true] at hcovers
  obtain (hcombining | hstart) | hstray := hcovers
  · exact .inr (.inl hcombining)
  · exact .inl hstart
  · exact .inr (.inr hstray)

theorem isLabelStart_of_isNumeric {c : Char} (h : Text.isNumeric c = true) :
    isLabelStart c = true ∨ isStray c = true := by
  have hspans : ∀ r ∈ Text.numericRanges, Text.Ranges.spans
      ([(0x30, 0x39)] ++ Text.nameStartRanges ++ strayRanges) r.1 r.2 = true := by
    decide +kernel
  have hcovers := Text.Ranges.covers_of_spans hspans h
  rw [Text.Ranges.covers_append, Text.Ranges.covers_append, Bool.or_eq_true,
    Bool.or_eq_true] at hcovers
  obtain (hdigit | hstart) | hstray := hcovers
  · left
    obtain ⟨r, hr, hle⟩ := (Text.Ranges.covers_iff _ c).mp hdigit
    rw [List.mem_singleton.mp hr] at hle
    rw [isLabelStart, (isDigit_iff c).mpr hle, Bool.or_true]
  · left
    rw [isLabelStart, isPrefixStart, Text.isNameStart, hstart]
    rfl
  · exact .inr hstray

/-- A letter or digit begins labels, or is one of those that do not. -/
theorem isLabelStart_of_isAlphanumeric {c : Char} (h : Text.isAlphanumeric c = true) :
    isLabelStart c = true ∨ isCombining c = true ∨ isStray c = true := by
  obtain hletter | hdigit := Bool.or_eq_true_iff.mp h
  · obtain hstart | hrest := isPrefixStart_of_isAlphabetic hletter
    · exact .inl (by rw [isLabelStart, hstart]; rfl)
    · exact .inr hrest
  · obtain hstart | hstray := isLabelStart_of_isNumeric hdigit
    · exact .inl hstart
    · exact .inr (.inr hstray)

theorem isNameChar_of_isCombining {c : Char} (h : isCombining c = true) :
    isNameChar c = true := by
  have hextend : Text.isNameExtend c = true := Text.Ranges.covers_of_spans (by decide) h
  rw [isNameChar, hextend, Bool.or_true]

/-- Of the characters that the guards let a name hold, the grammar lacks the stray ones. -/
theorem isNameChar_iff_of_nameChar {c : Char} (h : nameChar c = true) :
    (isNameChar c = true ∨ c = '.') ↔ isStray c = false := by
  constructor
  · rintro hname
    refine Bool.eq_false_iff.mpr fun hstray => ?_
    obtain ⟨hno, hdot⟩ := isNameChar_of_isStray hstray
    obtain hname | rfl := hname
    · rw [hno] at hname
      cases hname
    · exact hdot rfl
  · intro hstray
    simp only [nameChar, Bool.or_eq_true, beq_iff_eq] at h
    obtain ((hletter | rfl) | rfl) | rfl := h
    · obtain hstart | hcombining | hno := isLabelStart_of_isAlphanumeric hletter
      · exact .inl (isNameChar_of_isLabelStart hstart)
      · exact .inl (isNameChar_of_isCombining hcombining)
      · rw [hstray] at hno
        cases hno
    · exact .inl (by decide)
    · exact .inl (by decide)
    · exact .inr rfl

theorem isLabelStart_iff {c : Char} (h : (Text.isAlphanumeric c || c == '_') = true) :
    isLabelStart c = true ↔ isStray c = false ∧ isCombining c = false := by
  constructor
  · intro hstart
    refine ⟨(isNameChar_iff_of_nameChar ?_).mp (.inl (isNameChar_of_isLabelStart hstart)), ?_⟩
    · rw [nameChar, h]
      rfl
    · refine Bool.eq_false_iff.mpr fun hcombining => ?_
      rw [isLabelStart_of_isCombining hcombining] at hstart
      cases hstart
  · rintro ⟨hstray, hcombining⟩
    obtain hletter | hscore := Bool.or_eq_true_iff.mp h
    · have hcases := isLabelStart_of_isAlphanumeric hletter
      simpa [hstray, hcombining] using hcases
    · rw [beq_iff_eq.mp hscore]
      decide

theorem isPrefixStart_iff {c : Char} (h : Text.isAlphabetic c = true) :
    isPrefixStart c = true ↔ isStray c = false ∧ isCombining c = false := by
  have halphanumeric : (Text.isAlphanumeric c || c == '_') = true := by
    rw [Text.isAlphanumeric, h]
    rfl
  rw [← isLabelStart_iff halphanumeric]
  constructor
  · intro hstart
    rw [isLabelStart, hstart]
    rfl
  · intro hstart
    obtain hprefix | hcombining | hstray := isPrefixStart_of_isAlphabetic h
    · exact hprefix
    · rw [isLabelStart_of_isCombining hcombining] at hstart
      cases hstart
    · rw [isLabelStart_of_le (le_of_isStray hstray)] at hstart
      exact hstart

theorem isName_iff_spellable {start : Char → Bool} {c : Char} {rest : List Char}
    (hfirst : start c = true ↔ isStray c = false ∧ isCombining c = false)
    (hlast : (c :: rest).getLast? ≠ some '.') (hchars : ∀ d ∈ c :: rest, nameChar d = true) :
    IsName start (c :: rest) ↔ Spellable (c :: rest) := by
  have hdots : rest.getLast? ≠ some '.' := by
    intro hdot
    rw [List.getLast?_cons, hdot] at hlast
    exact hlast rfl
  have hrest : (∀ d ∈ rest, isNameChar d = true ∨ d = '.') ↔ ∀ d ∈ rest, isStray d = false :=
    forall₂_congr fun d hd => isNameChar_iff_of_nameChar (hchars d (List.mem_cons_of_mem c hd))
  have hhead : ((c :: rest).head?.any isCombining = false) ↔ isCombining c = false := Iff.rfl
  rw [IsName, Spellable, hfirst, hrest, List.forall_mem_cons, hhead]
  constructor
  · rintro ⟨⟨hstray, hcombining⟩, hmore, -⟩
    exact ⟨⟨hstray, hmore⟩, hcombining⟩
  · rintro ⟨⟨hstray, hmore⟩, hcombining⟩
    exact ⟨⟨hstray, hcombining⟩, hmore, hdots⟩

end Turtle

open Turtle

theorem Label.isLabel_iff_spellable {label : String} (h : Label.writable label = true) :
    IsLabel label.toList ↔ Spellable label.toList := by
  unfold Label.writable at h
  split at h
  · cases h
  · next first rest hlabel =>
    simp only [Bool.and_eq_true, bne_iff_ne, List.all_eq_true] at h
    rw [hlabel]
    exact isName_iff_spellable (isLabelStart_iff h.1.1) h.1.2 h.2

theorem PrefixName.isPrefixName_iff_spellable {name : String}
    (h : PrefixName.writable name = true) :
    (name = "" ∨ IsPrefixName name.toList) ↔ Spellable name.toList := by
  unfold PrefixName.writable at h
  split at h
  · next hname =>
    have hempty : name = "" := String.toList_eq_nil_iff.mp hname
    subst hempty
    exact ⟨fun _ => by decide, fun _ => .inl rfl⟩
  · next first rest hname =>
    have hne : name ≠ "" := by
      rintro rfl
      cases hname
    simp only [Bool.and_eq_true, bne_iff_ne, List.all_eq_true] at h
    rw [or_iff_right hne, hname]
    exact isName_iff_spellable (isPrefixStart_iff h.1.1) h.1.2 h.2

/-! ### References and tags -/

/-- The code points that a reference lacks: those up to the blank, and nine signs. -/
theorem Iri.forbidden_iff (c : Char) : Iri.forbidden c = true ↔
    c.toNat ≤ 0x20 ∨ c.toNat ∈ [0x3c, 0x3e, 0x22, 0x7b, 0x7d, 0x7c, 0x5e, 0x60, 0x5c] := by
  simp only [Iri.forbidden, Bool.or_eq_true, decide_eq_true_eq, List.mem_cons, List.not_mem_nil,
    or_false, ← Char.toNat_inj]
  exact Iff.rfl

theorem Iri.writable_iff {iri : String} :
    Iri.writable iri = true ↔ iri ≠ "" ∧ IsReference iri.toList := by
  simp only [Iri.writable, IsReference, Bool.and_eq_true, Bool.not_eq_true', List.any_eq_false,
    List.isEmpty_eq_false_iff, Bool.not_eq_true, ne_eq, String.toList_eq_nil_iff]

theorem Iri.isReference_of_writable {iri : String} (h : Iri.writable iri) :
    IsReference iri.toList :=
  (Iri.writable_iff.mp h).2

/-- The parts of a tag, with the hyphens between them. -/
theorem Lang.parts_join (cs : List Char) :
    ∃ part others, Lang.parts cs = part :: others ∧ cs = part ++ others.flatMap ('-' :: ·) := by
  induction cs with
  | nil => exact ⟨[], [], rfl, rfl⟩
  | cons c rest ih =>
    obtain ⟨part, others, hparts, hrest⟩ := ih
    rw [Lang.parts, hparts]
    by_cases hc : c = '-'
    · subst hc
      refine ⟨[], part :: others, rfl, ?_⟩
      rw [List.nil_append, List.flatMap_cons, List.cons_append, ← hrest]
    · simp only [if_neg hc]
      exact ⟨c :: part, others, rfl, congrArg (c :: ·) hrest⟩

/-- Characters other than hyphens go to the first part. -/
theorem Lang.parts_append {part cs first : List Char} {others : List (List Char)}
    (h : ∀ c ∈ part, c ≠ '-') (hcs : Lang.parts cs = first :: others) :
    Lang.parts (part ++ cs) = (part ++ first) :: others := by
  induction part with
  | nil => exact hcs
  | cons c part ih =>
    have hmore := ih fun d hd => h d (List.mem_cons_of_mem c hd)
    rw [List.cons_append, Lang.parts, hmore]
    simp only [if_neg (h c List.mem_cons_self), List.cons_append]

/-- Parts without hyphens are found again between them. -/
theorem Lang.parts_of_join {part : List Char} {others : List (List Char)}
    (h : ∀ p ∈ part :: others, ∀ c ∈ p, c ≠ '-') :
    Lang.parts (part ++ others.flatMap ('-' :: ·)) = part :: others := by
  induction others generalizing part with
  | nil =>
    have hend : Lang.parts [] = [[]] := rfl
    simpa using Lang.parts_append (h part List.mem_cons_self) hend
  | cons next others ih =>
    have hnext := ih fun p hp => h p (List.mem_cons_of_mem part hp)
    have hbehind : Lang.parts ((next :: others).flatMap ('-' :: ·)) = [] :: next :: others := by
      rw [List.flatMap_cons, List.cons_append, Lang.parts, hnext]
      rfl
    simpa using Lang.parts_append (h part List.mem_cons_self) hbehind

theorem Lang.isTag_of_writable {lang : String} (h : Lang.writable lang) :
    Turtle.IsTag lang.toList := by
  obtain ⟨part, others, hparts, hjoin⟩ := Lang.parts_join lang.toList
  rw [Lang.writable, hparts] at h
  simp only [Bool.and_eq_true, Bool.not_eq_true', List.isEmpty_eq_false_iff, List.all_eq_true]
    at h
  exact ⟨part, others, hjoin, h.1.1, h.1.2, h.2⟩

theorem Lang.writable_iff {lang : String} : Lang.writable lang = true ↔ IsTag lang.toList := by
  refine ⟨Lang.isTag_of_writable, ?_⟩
  rintro ⟨part, others, hjoin, hne, hpart, hothers⟩
  have hhyphen : ∀ p ∈ part :: others, ∀ c ∈ p, c ≠ '-' := by
    rw [List.forall_mem_cons]
    constructor
    · rintro c hc rfl
      cases hpart '-' hc
    · rintro p hp c hc rfl
      cases (hothers p hp).2 '-' hc
  rw [Lang.writable, hjoin, Lang.parts_of_join hhyphen]
  simp only [Bool.and_eq_true, Bool.not_eq_true', List.isEmpty_eq_false_iff, List.all_eq_true]
  exact ⟨⟨hne, hpart⟩, hothers⟩

end ContextPolicy
