import ContextPolicy.Proofs.Condition.Answers
import ContextPolicy.Proofs.Turtle.Lexing
import ContextPolicy.TextFormat

/-! Readers that accept the grammar.

What is asked of a reader is that each derived text gives its triples, in order, with one
new label at most for each of its labels (`Accepts`). The reader of this library does, and
keeps the labels: a statement is a few tokens, these are a few phrases, and over them the
reader goes from waiting for a statement back to waiting for one, with the statement's
triples in front of those it had found (`Statement.read`, `Derives.read`). -/
namespace ContextPolicy.Turtle

/-! ### Phrases -/

theorem phrases_cons {t : Token} {rest left : List Token} {p : Phrase}
    (h : phrase t rest = some (p, left)) : phrases (t :: rest) = (phrases left).map (p :: ·) := by
  rw [phrases]
  split
  · rename_i hnone
    rw [h] at hnone
    cases hnone
  · rename_i q left' hsome
    rw [h] at hsome
    obtain ⟨rfl, rfl⟩ := Prod.mk.inj (Option.some.inj hsome)
    rfl

/-- A phrase that stands for a node, where references are resolved against a base. -/
inductive Means (b : Iri.Base) : Phrase → Term → Prop
  | ref {text iri : List Char} (h : b.resolve text = some iri) :
    Means b (.ref (.reference text)) (.named (String.ofList iri))
  | term (t : Term) : Means b (.term t) t
  | typed {text iri : List Char} (value : List Char) (h : b.resolve text = some iri) :
    Means b (.typed value (.reference text)) (.typed (String.ofList value) (String.ofList iri))

/-- The text of a node gives one phrase for it. Whether a literal has a tag is clear only
from what follows, which is the dot. -/
theorem TermText.phrase {b : Iri.Base} {cs : List Char} {t : Term}
    (h : TermText b.resolve cs t) : ∃ ts p, Lexes Separated cs ts ∧ Means b p t ∧
      ∀ rest, t.isLiteral = false ∨ rest.head? = some (.mark .dot) →
        phrases (ts ++ rest) = (phrases rest).map (p :: ·) := by
  cases h with
  | iri h =>
    obtain ⟨htext, hiri⟩ := h
    exact ⟨_, _, .reference htext, .ref hiri, fun rest _ => phrases_cons rfl⟩
  | label h => exact ⟨_, _, .label h, .term _, fun rest _ => phrases_cons rfl⟩
  | plain h =>
    refine ⟨_, _, (Lexes.string h).weaken fun _ => Separated.unquoted, .term _,
      fun rest hrest => ?_⟩
    obtain hliteral | hdot := hrest
    · cases hliteral
    · match rest, hdot with
      | .mark .dot :: rest, _ => exact phrases_cons rfl
  | tagged h htag =>
    refine ⟨_, _, (Lexes.string h).append (.tag htag) fun _ _ => ?_, .term _,
      fun rest _ => phrases_cons rfl⟩
    exact fun hmark => absurd (Option.some.inj hmark) (by decide)
  | typed h hdatatype =>
    obtain ⟨htext, hiri⟩ := hdatatype
    have htag : Lexes Separated _ _ :=
      Lexes.carets.append (.reference htext) fun _ _ => trivial
    refine ⟨_, _, (Lexes.string h).append htag fun _ _ => ?_, .typed _ hiri,
      fun rest _ => phrases_cons rfl⟩
    exact fun hmark => absurd (Option.some.inj hmark) (by decide)

/-! ### Statements -/

namespace Reader

variable {b : Iri.Base} {spaces : List (List Char × List Char)} {found : List Triple}

theorem run_append (r : Reader) (ps qs : List Phrase) :
    r.run (ps ++ qs) = (r.run ps).bind fun r => r.run qs := by
  induction ps generalizing r with
  | nil => rfl
  | cons p ps ih =>
    show (r.step p).bind (fun r => r.run (ps ++ qs)) = _
    rw [funext ih, ← Option.bind_assoc]
    rfl

/-- Where no predicate is expected, a phrase for a node is taken for that node. -/
theorem step_of_means {p : Phrase} {t : Term} (h : Means b p t) (levels : List Level)
    {e : Expected} (he : e = .statement ∨ e = .object) :
    step ⟨b, spaces, 0, found, levels, e⟩ p = node ⟨b, spaces, 0, found, levels, e⟩ t := by
  cases h with
  | ref h =>
    show ((b.resolve _).map String.ofList).bind _ = _
    rw [h]
    obtain rfl | rfl := he <;> rfl
  | term t => rfl
  | typed value h =>
    show ((b.resolve _).map String.ofList).bind _ = _
    rw [h]
    rfl

/-- The reader before a statement. -/
def ready (b : Iri.Base) (spaces : List (List Char × List Char)) (found : List Triple) : Reader :=
  ⟨b, spaces, 0, found, [], .statement⟩

theorem run_triple {s o : Term} {ps po : Phrase} {text iri : List Char} (hs : Means b ps s)
    (hnode : s.isLiteral = false) (hp : b.resolve text = some iri) (ho : Means b po o) :
    (ready b spaces found).run [ps, .ref (.reference text), po, .mark .dot] =
      some (ready b spaces (⟨s, String.ofList iri, o⟩ :: found)) := by
  have hsubject : (ready b spaces found).step ps =
      some ⟨b, spaces, 0, found, [.subject s false none], .predicate⟩ := by
    rw [ready, step_of_means hs [] (.inl rfl)]
    show (if s.isLiteral then none else _) = _
    rw [if_neg (by simp [hnode])]
  have hpredicate : step ⟨b, spaces, 0, found, [.subject s false none], .predicate⟩
      (.ref (.reference text)) =
        some ⟨b, spaces, 0, found, [.subject s false (some (String.ofList iri))], .object⟩ := by
    show ((b.resolve text).map String.ofList).bind _ = _
    rw [hp]
    rfl
  have hobject : step
      ⟨b, spaces, 0, found, [.subject s false (some (String.ofList iri))], .object⟩ po =
        some ⟨b, spaces, 0, ⟨s, String.ofList iri, o⟩ :: found,
          [.subject s false (some (String.ofList iri))], .separator⟩ := by
    rw [step_of_means ho _ (.inr rfl)]
    rfl
  simp only [run, hsubject, hpredicate, hobject, Option.bind_some]
  rfl

theorem run_directive {name text iri : List Char} (h : b.resolve text = some iri) :
    (ready b spaces found).run [.declare name text] =
      some (ready b ((name, iri) :: spaces) found) := by
  show ((b.resolve text).bind _).bind _ = _
  rw [h]
  rfl

end Reader

theorem isTag_prefix : IsTag "prefix".toList :=
  ⟨"prefix".toList, [], rfl, by decide, List.all_eq_true.mp rfl, nofun⟩

/-- What a statement is for the reader: tokens, phrases, and its triples in front of those
that were found before. -/
theorem Statement.read {b : Iri.Base} {cs : List Char} {ts : List Triple}
    (h : Statement b.resolve cs ts) : ∃ us ps, Lexes Separated cs us ∧
      (∀ rest, phrases (us ++ rest) = (phrases rest).map (ps ++ ·)) ∧
      ∀ spaces found, ∃ spaces', (Reader.ready b spaces found).run ps =
        some (Reader.ready b spaces' (ts.reverse ++ found)) := by
  cases h with
  | @directive name _ _ _ _ _ hname hspace h₁ h₂ h₃ =>
    obtain ⟨htext, hiri⟩ := hspace
    have hlexes := (((Lexes.tag isTag_prefix).behind_gap h₁ (.name hname)).behind_gap h₂
      (.reference htext)).behind_gap h₃ .dot
    refine ⟨_, [.declare name _], hlexes, fun rest => ?_,
      fun spaces found => ⟨_, Reader.run_directive hiri⟩⟩
    exact phrases_cons (t := .tag "prefix".toList) rfl
  | @triple _ _ _ _ _ _ t hs hnode hp ho h₁ h₂ h₃ =>
    obtain ⟨s, p, o⟩ := t
    obtain ⟨us, ps, hus, hps, hsubject⟩ := hs.phrase
    obtain @⟨text, _, htext, hiri⟩ := hp
    obtain ⟨vs, po, hvs, hpo, hobject⟩ := ho.phrase
    have hlexes := ((hus.behind_gap h₁ (.reference htext)).behind_gap h₂ hvs).behind_gap h₃ .dot
    refine ⟨_, [ps, .ref (.reference _), po, .mark .dot], hlexes, fun rest => ?_,
      fun spaces found => ⟨spaces, Reader.run_triple hps hnode hiri hpo⟩⟩
    have hreference : ∀ rest, phrases (.reference text :: rest) =
        (phrases rest).map (.ref (.reference text) :: ·) := fun _ => phrases_cons rfl
    have hdot : phrases (.mark .dot :: rest) = (phrases rest).map (.mark .dot :: ·) :=
      phrases_cons rfl
    simp only [List.append_assoc, List.cons_append, List.nil_append]
    rw [hsubject _ (.inl hnode), hreference, hobject _ (.inr rfl), hdot]
    simp only [Option.map_map]
    rfl

/-- A whole text is read, from the reader before its first statement to the reader before
one that might follow its last. -/
theorem Derives.read {b : Iri.Base} {cs : List Char} {ts : List Triple}
    (h : Derives b.resolve cs ts) : ∃ us ps, tokens cs = some us ∧ phrases us = some ps ∧
      ∀ spaces found, ∃ spaces', (Reader.ready b spaces found).run ps =
        some (Reader.ready b spaces' (ts.reverse ++ found)) := by
  induction h with
  | nil => exact ⟨[], [], by rw [tokens_eq]; rfl, by rw [phrases], fun spaces _ => ⟨spaces, rfl⟩⟩
  | @blank c cs ts hc h ih =>
    obtain ⟨us, ps, hus, hps, hrun⟩ := ih
    exact ⟨us, ps, (tokens_blank hc cs).trans hus, hps, hrun⟩
  | @statement c cs ds ts us hs hc h ih =>
    obtain ⟨as, ps, has, hps, hrun⟩ := hs.read
    obtain ⟨bs, qs, hbs, hqs, hrest⟩ := ih
    have hseparated : Separated (c :: ds) := by
      rintro d ⟨⟩
      exact hc
    refine ⟨as ++ bs, ps ++ qs, ?_, ?_, fun spaces found => ?_⟩
    · rw [has _ hseparated, tokens_blank hc, hbs]
      rfl
    · rw [hps, hqs]
      rfl
    · obtain ⟨spaces₁, hfirst⟩ := hrun spaces found
      obtain ⟨spaces₂, hsecond⟩ := hrest spaces₁ (ts.reverse ++ found)
      refine ⟨spaces₂, ?_⟩
      rw [Reader.run_append, hfirst, Option.bind_some, hsecond, List.reverse_append,
        List.append_assoc]

/-! ### Readers -/

/-- Each derived text is read as its triples, up to a renaming of its labels. -/
def Accepts (resolve : List Char → Option (List Char))
    (read : String → Except SyntaxFault (List Triple)) : Prop :=
  ∀ cs ts, Derives resolve cs ts → ∃ ρ : String → String, Function.Injective ρ ∧
    read (String.ofList cs) = .ok (ts.map (Triple.mapNodes (Term.rename ρ)))

theorem read_of_derives {base : String} {b : Iri.Base} {cs : List Char} {ts : List Triple}
    (hbase : Iri.Base.ofText base.toList = some b) (h : Derives b.resolve cs ts) :
    TextFormat.turtle.read base (String.ofList cs) = .ok ts := by
  obtain ⟨us, ps, hus, hps, hrun⟩ := h.read
  obtain ⟨spaces, hend⟩ := hrun [] []
  have hread : Turtle.read base (String.ofList cs) = some ts := by
    rw [Turtle.read, hbase, String.toList_ofList, hus]
    show (phrases us).bind _ = _
    rw [hps]
    show ((Reader.ready b [] []).run ps).bind Reader.finish = _
    rw [hend]
    show some (ts.reverse ++ []).reverse = _
    rw [List.append_nil, List.reverse_reverse]
  rw [TextFormat.read]
  simp only [hread]

theorem mapNodes_rename_id (t : Triple) : t.mapNodes (Term.rename id) = t := by
  rw [Triple.mapNodes, Term.rename_id, Term.rename_id]

theorem accepts_read {base : String} {b : Iri.Base}
    (hbase : Iri.Base.ofText base.toList = some b) :
    Accepts b.resolve (TextFormat.turtle.read base) := by
  intro cs ts h
  refine ⟨id, Function.injective_id, ?_⟩
  rw [read_of_derives hbase h, List.map_congr_left fun t _ => mapNodes_rename_id t, List.map_id']

end ContextPolicy.Turtle
