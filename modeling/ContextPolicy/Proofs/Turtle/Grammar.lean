import ContextPolicy.Triple
import ContextPolicy.Turtle.Lexer

/-! The part of the Turtle grammar that texts without abbreviations are in: directives for
prefixes, and triples of full IRIs, labelled blank nodes and literals.

The productions of the terminals are predicates on their characters. Those with a meaning
are relations between the characters and what they stand for, up to `Derives`, which
relates a whole text to its triples in the order of the text. `resolve` gives the IRI that
a reference stands for, if it stands for one. Derivations say nothing about where a token
ends: that a reader finds the same tokens is for it to show. -/
namespace ContextPolicy.Turtle

/-! ### Terminals -/

/-- A first character, then name characters and dots, of which a dot is not the last. -/
def IsName (start : Char → Bool) : List Char → Prop
  | [] => False
  | c :: rest =>
    start c = true ∧ (∀ d ∈ rest, isNameChar d = true ∨ d = '.') ∧ rest.getLast? ≠ some '.'

instance (start : Char → Bool) (cs : List Char) : Decidable (IsName start cs) :=
  match cs with
  | [] => .isFalse id
  | _ :: rest =>
    have := List.decidableBAll (fun d => isNameChar d = true ∨ d = '.') rest
    inferInstanceAs (Decidable (_ ∧ _ ∧ _))

/-- `PN_PREFIX` -/
def IsPrefixName (cs : List Char) : Prop :=
  IsName isPrefixStart cs

instance (cs : List Char) : Decidable (IsPrefixName cs) :=
  inferInstanceAs (Decidable (IsName isPrefixStart cs))

/-- `BLANK_NODE_LABEL`, from behind its colon -/
def IsLabel (cs : List Char) : Prop :=
  IsName isLabelStart cs

/-- `LANGTAG`, from behind its at sign: letters, then parts of letters and digits. -/
def IsTag (cs : List Char) : Prop :=
  ∃ (first : List Char) (parts : List (List Char)), cs = first ++ parts.flatMap ('-' :: ·) ∧
    first ≠ [] ∧ (∀ c ∈ first, c.isAlpha = true) ∧
    ∀ part ∈ parts, part ≠ [] ∧ ∀ c ∈ part, c.isAlphanum = true

/-- `IRIREF` between its brackets, without escapes -/
def IsReference (cs : List Char) : Prop :=
  ∀ c ∈ cs, Iri.forbidden c = false

instance (cs : List Char) : Decidable (IsReference cs) :=
  List.decidableBAll (fun c => Iri.forbidden c = false) cs

/-- `WS+` -/
def IsGap (cs : List Char) : Prop :=
  cs ≠ [] ∧ ∀ c ∈ cs, isBlank c = true

/-- `ECHAR`: the letters behind a backslash, and the characters that they stand for. -/
def letterEscapes : List (Char × Char) :=
  [('t', '\t'), ('b', '\x08'), ('n', '\n'), ('r', '\r'), ('f', '\x0c'), ('"', '"'),
    ('\'', '\''), ('\\', '\\')]

/-- What stands between quotation marks, and its value. Only long quotes hold line ends. -/
inductive Quoted (long : Bool) : List Char → List Char → Prop
  | nil : Quoted long [] []
  | char {c : Char} {cs value : List Char} (hmark : c ≠ '"') (hescape : c ≠ '\\')
    (hend : long = true ∨ c ≠ '\n' ∧ c ≠ '\r') (h : Quoted long cs value) :
    Quoted long (c :: cs) (c :: value)
  | escape {letter c : Char} {cs value : List Char} (hletter : (letter, c) ∈ letterEscapes)
    (h : Quoted long cs value) : Quoted long ('\\' :: letter :: cs) (c :: value)

/-- `STRING_LITERAL_QUOTE` and `STRING_LITERAL_LONG_QUOTE` -/
inductive StringText : List Char → List Char → Prop
  | short {cs value : List Char} (h : Quoted false cs value) : StringText ('"' :: cs ++ ['"']) value
  | long {cs value : List Char} (h : Quoted true cs value) :
    StringText ('"' :: '"' :: '"' :: cs ++ ['"', '"', '"']) value

/-! ### Triples and texts -/

section
variable (resolve : List Char → Option (List Char))

inductive IriText : List Char → String → Prop
  | reference {text iri : List Char} (h : IsReference text) (hiri : resolve text = some iri) :
    IriText ('<' :: text ++ ['>']) (String.ofList iri)

inductive TermText : List Char → Term → Prop
  | iri {cs : List Char} {iri : String} (h : IriText resolve cs iri) : TermText cs (.named iri)
  | label {label : List Char} (h : IsLabel label) :
    TermText ('_' :: ':' :: label) (.blank (String.ofList label))
  | plain {cs value : List Char} (h : StringText cs value) :
    TermText cs (.plain (String.ofList value))
  | tagged {cs value tag : List Char} (h : StringText cs value) (htag : IsTag tag) :
    TermText (cs ++ '@' :: tag) (.tagged (String.ofList value) (String.ofList tag))
  | typed {cs ds value : List Char} {datatype : String} (h : StringText cs value)
    (hdatatype : IriText resolve ds datatype) :
    TermText (cs ++ '^' :: '^' :: ds) (.typed (String.ofList value) datatype)

/-- A directive or a triple, with its dot, and the triples that it adds. -/
inductive Statement : List Char → List Triple → Prop
  | directive {name ds gap₁ gap₂ gap₃ : List Char} {space : String}
    (hname : name = [] ∨ IsPrefixName name) (hspace : IriText resolve ds space)
    (h₁ : IsGap gap₁) (h₂ : IsGap gap₂) (h₃ : IsGap gap₃) :
    Statement ("@prefix".toList ++ gap₁ ++ (name ++ [':']) ++ gap₂ ++ ds ++ gap₃ ++ ['.']) []
  | triple {ss ps os gap₁ gap₂ gap₃ : List Char} {t : Triple} (hs : TermText resolve ss t.subject)
    (hnode : t.subject.isLiteral = false) (hp : IriText resolve ps t.predicate)
    (ho : TermText resolve os t.object) (h₁ : IsGap gap₁) (h₂ : IsGap gap₂) (h₃ : IsGap gap₃) :
    Statement (ss ++ gap₁ ++ ps ++ gap₂ ++ os ++ gap₃ ++ ['.']) [t]

/-- A text of statements, each with white space behind it. -/
inductive Derives : List Char → List Triple → Prop
  | nil : Derives [] []
  | blank {c : Char} {cs : List Char} {ts : List Triple} (hc : isBlank c = true)
    (h : Derives cs ts) : Derives (c :: cs) ts
  | statement {c : Char} {cs ds : List Char} {ts us : List Triple} (hs : Statement resolve cs ts)
    (hc : isBlank c = true) (h : Derives ds us) : Derives (cs ++ c :: ds) (ts ++ us)

end

end ContextPolicy.Turtle
