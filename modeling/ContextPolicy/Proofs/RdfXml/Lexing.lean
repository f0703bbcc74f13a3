import Mathlib.Data.List.Nodup
import Mathlib.Tactic.SplitIfs
import ContextPolicy.RdfXml.Writer
import ContextPolicy.Xml.Lexer

/-! The tags and texts of a document that was written.

The lexer hands on its state from one piece of a text to the next (`Lexer.scan`), so the
pieces are looked at one by one: the attributes of a tag, tags, and texts, which lose nothing
if they have no white space at their ends (`Trimmed`). What was escaped cannot end a piece
too early, and stands for itself again. `tokens_documentText` puts the pieces together, property
by property and description by description. -/
namespace ContextPolicy

namespace Xml

/-! ### Texts -/

/-- The characters that end a text or a value do not occur in what was escaped. -/
theorem not_mem_escape {c : Char} (hc : c = '<' ∨ c = '"') (cs : List Char) : c ∉ escape cs := by
  intro hmem
  obtain ⟨d, -, hd⟩ := List.mem_flatMap.mp hmem
  unfold escapeChar at hd
  split_ifs at hd with h1 h2 h3 h4 h5
  case neg =>
    rw [List.mem_singleton.mp hd] at hc
    exact hc.elim h1 h5
  all_goals
    revert hd
    obtain rfl | rfl := hc <;> decide

/-- No white space at the ends. -/
def Trimmed (cs : List Char) : Prop :=
  (∀ c, cs.head? = some c → Lexer.isBlank c = false) ∧
    ∀ c, cs.getLast? = some c → Lexer.isBlank c = false

/-- What a character is written as begins and ends with white space only if it is that. -/
theorem escapeChar_ends {c : Char} (hc : Lexer.isBlank c = false) :
    ∃ first last, (escapeChar c).head? = some first ∧ (escapeChar c).getLast? = some last ∧
      Lexer.isBlank first = false ∧ Lexer.isBlank last = false := by
  unfold escapeChar
  split_ifs
  case neg => exact ⟨c, c, rfl, rfl, hc, hc⟩
  all_goals exact ⟨'&', ';', by decide, by decide, by decide, by decide⟩

theorem Trimmed.escape {cs : List Char} (h : Trimmed cs) : Trimmed (escape cs) := by
  constructor
  · intro d hd
    cases cs with
    | nil => cases hd
    | cons c rest =>
      obtain ⟨first, -, hfirst, -, hblank, -⟩ := escapeChar_ends (h.1 c rfl)
      rw [Xml.escape, List.flatMap_cons, List.head?_append, hfirst] at hd
      cases hd
      exact hblank
  · intro d hd
    obtain rfl | ⟨before, c, rfl⟩ := cs.eq_nil_or_concat
    · cases hd
    · rw [List.concat_eq_append] at h hd
      obtain ⟨-, last, -, hlast, -, hblank⟩ := escapeChar_ends (h.2 c List.getLast?_concat)
      rw [Xml.escape, List.flatMap_append, List.flatMap_singleton, List.getLast?_append,
        hlast] at hd
      cases hd
      exact hblank

namespace Lexer

theorem dropWhile_isBlank {cs : List Char} (h : ∀ c, cs.head? = some c → isBlank c = false) :
    cs.dropWhile isBlank = cs := by
  cases cs with
  | nil => rfl
  | cons c rest => rw [List.dropWhile_cons, h c rfl, if_neg Bool.false_ne_true]

/-- The tokens of a text: none if it is empty. -/
def valueTokens (value : List Char) : List Token :=
  if value = [] then [] else [.text value]

theorem textTokens_escape {value : List Char} (h : Trimmed value) :
    textTokens (escape value).reverse = some (valueTokens value) := by
  have hends := h.escape
  have htail : (escape value).reverse.dropWhile isBlank = (escape value).reverse :=
    dropWhile_isBlank fun c hc => hends.2 c (List.head?_reverse ▸ hc)
  have hnil : escape value = [] ↔ value = [] := by
    constructor
    · intro heq
      have hsome := unescape_escape value
      rw [heq] at hsome
      exact (Option.some.inj hsome).symm
    · rintro rfl
      rfl
  rw [textTokens, htail, List.reverse_reverse, dropWhile_isBlank hends.1, valueTokens]
  simp only [hnil]
  split_ifs
  · rfl
  · rw [unescape_escape]
    rfl

/-! ### Scanning -/

/-- The lexer behind some characters, and the tokens that end among them. -/
def scan (l : Lexer) : List Char → Option (Lexer × List Token)
  | [] => some (l, [])
  | c :: rest => do
    let (next, tokens) ← l.step c
    let (last, more) ← next.scan rest
    pure (last, tokens ++ more)

section
variable {l m n : Lexer} {cs ds : List Char} {ts us : List Token} {c : Char}

theorem scan_cons (h : l.step c = some (m, ts)) (h' : m.scan cs = some (n, us)) :
    l.scan (c :: cs) = some (n, ts ++ us) := by
  simp only [scan, h, h', Option.bind_eq_bind, Option.bind_some, Option.pure_def]

theorem scan_cons_eq_some (h : l.scan (c :: cs) = some (n, us)) :
    ∃ m ts vs, l.step c = some (m, ts) ∧ m.scan cs = some (n, vs) ∧ us = ts ++ vs := by
  simp only [scan, Option.bind_eq_bind, Option.bind_eq_some_iff, Option.pure_def,
    Option.some.injEq, Prod.mk.injEq] at h
  obtain ⟨⟨m, ts⟩, hstep, ⟨_, vs⟩, hscan, rfl, rfl⟩ := h
  exact ⟨m, ts, vs, hstep, hscan, rfl⟩

theorem scan_append (h : l.scan cs = some (m, ts)) (h' : m.scan ds = some (n, us)) :
    l.scan (cs ++ ds) = some (n, ts ++ us) := by
  induction cs generalizing l ts with
  | nil =>
    cases h
    exact h'
  | cons c rest ih =>
    obtain ⟨k, vs, ws, hstep, hrest, rfl⟩ := scan_cons_eq_some h
    rw [List.append_assoc]
    exact scan_cons hstep (ih hrest)

/-- The end of a text that was scanned. -/
theorem run_of_scan (h : l.scan cs = some (m, ts)) :
    l.run cs = m.finish.map (ts ++ ·) := by
  induction cs generalizing l ts with
  | nil =>
    cases h
    simp [run]
  | cons c rest ih =>
    obtain ⟨k, vs, ws, hstep, hrest, rfl⟩ := scan_cons_eq_some h
    rw [run, hstep]
    show (vs ++ ·) <$> k.run rest = _
    rw [ih hrest]
    cases m.finish <;> simp

/-- Characters that only pile up in front of those before them. -/
theorem scan_pile (pile : List Char → Lexer) (h : ∀ c ∈ cs, ∀ ds,
    (pile ds).step c = some (pile (c :: ds), [])) (ds : List Char) :
    (pile ds).scan cs = some (pile (cs.reverse ++ ds), []) := by
  induction cs generalizing ds with
  | nil => rfl
  | cons c rest ih =>
    have hrest := ih (fun d hd => h d (List.mem_cons_of_mem c hd)) (c :: ds)
    rw [scan_cons (h c List.mem_cons_self ds) hrest, List.reverse_cons, List.append_assoc]
    rfl

end

/-- Escaped characters up to a tag. -/
theorem scan_text (value : List Char) :
    (text []).scan (escape value) = some (text (escape value).reverse, []) := by
  have hstep : ∀ c ∈ escape value, ∀ ds, (text ds).step c = some (text (c :: ds), []) :=
    fun c hc _ => if_neg (ne_of_mem_of_not_mem hc (not_mem_escape (.inl rfl) value))
  rw [scan_pile text hstep, List.append_nil]

/-! ### Tags -/

/-- A name of a tag or of an attribute: no character in it could end it. -/
def IsName (name : List Char) : Prop :=
  name ≠ [] ∧ ∀ c ∈ name,
    isBlank c = false ∧ c ∉ ['=', '<', '>', '/', '?', '!', '"', '\'', '&']

instance (name : List Char) : Decidable (IsName name) :=
  have := List.decidableBAll
    (fun c => isBlank c = false ∧ c ∉ ['=', '<', '>', '/', '?', '!', '"', '\'', '&']) name
  inferInstanceAs (Decidable (_ ∧ _))

/-- The lexer goes on as between the attributes of a tag. -/
def Behind (l : Lexer) (tag : Tag) : Prop :=
  ∀ c, isBlank c = true ∨ c = '>' ∨ c = '/' → l.step c = tagStep tag false c

theorem behind_inTag (tag : Tag) : (inTag tag false).Behind tag :=
  fun _ _ => rfl

theorem behind_tagName (cs : List Char) : (tagName cs).Behind ⟨cs.reverse, []⟩ :=
  fun _ hc => if_pos hc

section
variable {l : Lexer} {tag : Tag} {name : List Char}

theorem Behind.close (h : l.Behind tag) : l.scan ['>'] = some (text [], [openToken tag]) :=
  scan_cons (h '>' (.inr (.inl rfl))) rfl

/-- The end of an empty element. -/
theorem Behind.closeEmpty (h : l.Behind tag) :
    l.scan ['/', '>'] = some (text [], [openToken tag, .close tag.name]) :=
  scan_cons (h '/' (.inr (.inr rfl))) rfl

theorem scan_value {value : List Char} (quote : Char) (h : quote ∉ value) :
    (Lexer.value tag name quote []).scan value =
      some (Lexer.value tag name quote value.reverse, []) := by
  have hstep : ∀ c ∈ value, ∀ ds, (Lexer.value tag name quote ds).step c =
      some (Lexer.value tag name quote (c :: ds), []) :=
    fun c hc _ => if_neg (ne_of_mem_of_not_mem hc h)
  rw [scan_pile _ hstep, List.append_nil]

/-- The characters of a key, up to its value. -/
theorem scan_key (h : IsName name) :
    (inTag tag true).scan (name ++ ['=']) = some (equals tag name true, []) := by
  obtain ⟨hne, hchars⟩ := h
  cases name with
  | nil => exact absurd rfl hne
  | cons c rest =>
    obtain ⟨hblank, hc⟩ := hchars c List.mem_cons_self
    simp only [List.mem_cons, List.not_mem_nil, or_false, not_or] at hc
    have hfirst : (inTag tag true).step c = some (key tag [c], []) := by
      simp [step, tagStep, hblank, hc]
    have hstep : ∀ d ∈ rest, ∀ ds, (key tag ds).step d = some (key tag (d :: ds), []) := by
      intro d hd ds
      obtain ⟨hblank, hd⟩ := hchars d (List.mem_cons_of_mem c hd)
      simp only [List.mem_cons, List.not_mem_nil, or_false, not_or] at hd
      simp [step, hblank, hd]
    have hend : (key tag (rest.reverse ++ [c])).scan ['='] =
        some (equals tag (c :: rest) true, []) := by
      simp [scan, step]
    exact scan_cons hfirst (scan_append (scan_pile _ hstep [c]) hend)

/-- The written form of an attribute. -/
def attributeText (a : Attribute) : List Char :=
  ' ' :: a.name ++ '=' :: '"' :: escape a.value ++ ['"']

theorem Behind.attribute (h : l.Behind tag) {a : Attribute} (ha : IsName a.name)
    (hnew : ∀ b ∈ tag.attributes, b.name ≠ a.name) :
    l.scan (attributeText a) = some (inTag ⟨tag.name, a :: tag.attributes⟩ false, []) := by
  have hspace : l.step ' ' = some (inTag tag true, []) := h ' ' (.inl rfl)
  have hquote : (equals tag a.name true).step '"' = some (value tag a.name '"' [], []) := rfl
  have hunique : tag.attributes.any (·.name == a.name) = false :=
    List.any_eq_false.mpr fun b hb => by simpa using hnew b hb
  have hend : (value tag a.name '"' (escape a.value).reverse).scan ['"'] =
      some (inTag ⟨tag.name, a :: tag.attributes⟩ false, []) := by
    simp [scan, step, addAttribute, hunique, unescape_escape]
  have hvalue := scan_append (scan_value '"' (not_mem_escape (.inr rfl) a.value)) hend
  have hall := scan_cons hspace (scan_append (scan_key ha) (scan_cons hquote hvalue))
  simpa [attributeText] using hall

/-- The attributes of a tag, one behind the other. -/
theorem Behind.attributes (h : l.Behind tag) {as : List Attribute}
    (has : ∀ a ∈ as, IsName a.name)
    (hnd : ((as.reverse ++ tag.attributes).map (·.name)).Nodup) :
    ∃ m, l.scan (as.flatMap attributeText) = some (m, []) ∧
      m.Behind ⟨tag.name, as.reverse ++ tag.attributes⟩ := by
  induction as generalizing l tag with
  | nil => exact ⟨l, rfl, h⟩
  | cons a rest ih =>
    -- The lexer has the attributes of a tag in reverse, and looks among them for the new one.
    have hsplit : (a :: rest).reverse ++ tag.attributes =
        rest.reverse ++ (a :: tag.attributes) := by
      rw [List.reverse_cons, List.append_assoc]
      rfl
    rw [hsplit] at hnd ⊢
    have hnew : ∀ b ∈ tag.attributes, b.name ≠ a.name := by
      rw [List.map_append, List.map_cons] at hnd
      have hcons := (List.nodup_append.mp hnd).2.1
      intro b hb heq
      exact (List.nodup_cons.mp hcons).1 (heq ▸ List.mem_map_of_mem hb)
    obtain ⟨m, hscan, hm⟩ := ih (behind_inTag ⟨tag.name, a :: tag.attributes⟩)
      (fun b hb => has b (List.mem_cons_of_mem a hb)) hnd
    exact ⟨m, scan_append (h.attribute (has a List.mem_cons_self) hnew) hscan, hm⟩

/-- A start tag up to its end. -/
theorem scan_startTag (h : IsName name) {as : List Attribute} (has : ∀ a ∈ as, IsName a.name)
    (hnd : (as.map (·.name)).Nodup) : ∃ m,
    (text []).scan ('<' :: name ++ as.flatMap attributeText) = some (m, []) ∧
      m.Behind ⟨name, as.reverse⟩ := by
  obtain ⟨hne, hchars⟩ := h
  cases name with
  | nil => exact absurd rfl hne
  | cons c rest =>
    obtain ⟨hblank, hc⟩ := hchars c List.mem_cons_self
    simp only [List.mem_cons, List.not_mem_nil, or_false, not_or] at hc
    have hopen : (text []).step '<' = some (markup, []) := rfl
    have hfirst : markup.step c = some (tagName [c], []) := by
      simp [step, hblank, hc]
    have hstep : ∀ d ∈ rest, ∀ ds, (tagName ds).step d = some (tagName (d :: ds), []) := by
      intro d hd ds
      obtain ⟨hblank, hd⟩ := hchars d (List.mem_cons_of_mem c hd)
      simp only [List.mem_cons, List.not_mem_nil, or_false, not_or] at hd
      simp [step, hblank, hd]
    have htag : (rest.reverse ++ [c]).reverse = c :: rest := by simp
    have hbehind : (tagName (rest.reverse ++ [c])).Behind ⟨c :: rest, []⟩ :=
      htag ▸ behind_tagName _
    obtain ⟨m, hscan, hm⟩ := hbehind.attributes has (by
      rw [List.append_nil, List.map_reverse]
      exact List.nodup_reverse.mpr hnd)
    rw [List.append_nil] at hm
    have hname := scan_append (scan_pile tagName hstep [c]) hscan
    exact ⟨m, scan_cons hopen (scan_cons hfirst hname), hm⟩

/-- An end tag behind a text. -/
theorem scan_endTag {cs : List Char} {ts : List Token} (h : IsName name)
    (hcs : textTokens cs = some ts) :
    (text cs).scan ('<' :: '/' :: name ++ ['>']) = some (text [], ts ++ [.close name]) := by
  have hopen : (text cs).step '<' = some (markup, ts) := by
    simp [step, hcs]
  have hslash : markup.step '/' = some (endTag [], []) := rfl
  have hstep : ∀ c ∈ name, ∀ ds, (endTag ds).step c = some (endTag (c :: ds), []) := by
    intro c hc ds
    have hne := (h.2 c hc).2
    simp only [List.mem_cons, List.not_mem_nil, or_false, not_or] at hne
    simp [step, hne]
  have hname : ((name.reverse ++ []).dropWhile isBlank).reverse = name := by
    rw [List.append_nil, dropWhile_isBlank fun c hc => ?_, List.reverse_reverse]
    exact (h.2 c (List.mem_reverse.mp (List.mem_of_mem_head? hc))).1
  have hend : (endTag (name.reverse ++ [])).scan ['>'] = some (text [], [.close name]) := by
    rw [scan, step, if_pos rfl, hname]
    rfl
  exact scan_cons hopen (scan_cons hslash (scan_append (scan_pile endTag hstep []) hend))

end

end Lexer

end Xml

namespace RdfXml

open Xml
open Xml.Lexer hiding value

/-! ### Documents -/

/-- The attribute for a node, which is called `name` if the node is an IRI. -/
def nodeAttributes (name : String) : Node → Attribute
  | .named iri => ⟨name.toList, iri.toList⟩
  | .blank label => ⟨"rdf:nodeID".toList, label.toList⟩

/-- The attribute that makes a predicate the namespace of its element. -/
def spaceAttribute (predicate : String) : Attribute :=
  ⟨"xmlns:prop".toList, predicate.toList⟩

def documentTag : Token :=
  .open "rdf:RDF".toList [⟨"xmlns:rdf".toList, Names.Rdf.space.toList⟩]

def descriptionTag (subject : Node) : Token :=
  .open "rdf:Description".toList [nodeAttributes "rdf:about" subject]

/-- The start tag of a property with further attributes. -/
def propertyTag (predicate : String) (attributes : List Attribute) : Token :=
  .open "prop:".toList (spaceAttribute predicate :: attributes)

/-- What names the value of a property, or says how its text is to be taken. -/
def valueAttributes : Value → List Attribute
  | .node n => [nodeAttributes "rdf:resource" n]
  | .plain _ => []
  | .tagged _ lang => [⟨"xml:lang".toList, lang.toList⟩]
  | .typed _ datatype => [⟨"rdf:datatype".toList, datatype.toList⟩]

/-- The text of a literal. -/
def Value.text? : Value → Option String
  | node _ => none
  | plain value | tagged value _ | typed value _ => some value

def contentTokens (v : Value) : List Token :=
  v.text?.elim [] fun value => valueTokens value.toList

/-- The tokens of the element of a property. -/
def propertyTokens (p : String × Value) : List Token :=
  propertyTag p.1 (valueAttributes p.2) :: (contentTokens p.2 ++ [.close "prop:".toList])

def Description.tokens (d : Description) : List Token :=
  descriptionTag d.subject ::
    (d.properties.flatMap propertyTokens ++ [.close "rdf:Description".toList])

def documentTokens (ds : List Description) : List Token :=
  documentTag :: (ds.flatMap Description.tokens ++ [.close "rdf:RDF".toList])

theorem scan_opening : (text []).scan opening = some (text [], [documentTag]) := by
  decide +kernel

theorem scan_closing : (text []).scan closing = some (text [], [.close "rdf:RDF".toList]) := by
  decide +kernel

theorem scan_closeDescription :
    (text []).scan closeDescription = some (text [], [.close "rdf:Description".toList]) := by
  decide +kernel

theorem isName_prop : IsName "prop:".toList := by
  decide

theorem attributeText_eq (name value : String) :
    RdfXml.attributeText name value =
      [⟨name.toList, value.toList⟩].flatMap Lexer.attributeText := by
  rw [List.flatMap_singleton]
  rfl

theorem nodeAttribute_eq (name : String) (n : Node) :
    nodeAttribute name n = [nodeAttributes name n].flatMap Lexer.attributeText := by
  cases n with
  | named iri => exact attributeText_eq name iri
  | blank label => exact attributeText_eq "rdf:nodeID" label

theorem isName_nodeAttributes {name : String} (h : IsName name.toList) (n : Node) :
    IsName (nodeAttributes name n).name := by
  cases n with
  | named iri => exact h
  | blank label => exact (by decide : IsName "rdf:nodeID".toList)

theorem scan_openDescription (subject : Node) :
    (text []).scan (openDescription subject) = some (text [], [descriptionTag subject]) := by
  have hname : IsName (nodeAttributes "rdf:about" subject).name :=
    isName_nodeAttributes (by decide) subject
  have hkey : IsName "rdf:Description".toList := by decide +kernel
  obtain ⟨m, hscan, hm⟩ :=
    scan_startTag hkey (List.forall_mem_singleton.mpr hname) (List.nodup_singleton _)
  have hall := scan_append hscan hm.close
  rw [openToken, List.reverse_reverse, ← nodeAttribute_eq] at hall
  exact hall

theorem isName_valueAttributes (v : Value) : ∀ a ∈ valueAttributes v, IsName a.name := by
  cases v with
  | node n => exact List.forall_mem_singleton.mpr (isName_nodeAttributes (by decide) n)
  | plain value => exact List.forall_mem_nil _
  | tagged value lang =>
    exact List.forall_mem_singleton.mpr (show IsName "xml:lang".toList by decide)
  | typed value datatype =>
    exact List.forall_mem_singleton.mpr (show IsName "rdf:datatype".toList by decide)

theorem nodup_propertyTag (predicate : String) (v : Value) :
    ((spaceAttribute predicate :: valueAttributes v).map (·.name)).Nodup := by
  match v with
  | .node (.named iri) => exact (by decide : ["xmlns:prop".toList, "rdf:resource".toList].Nodup)
  | .node (.blank label) => exact (by decide : ["xmlns:prop".toList, "rdf:nodeID".toList].Nodup)
  | .plain value => exact List.nodup_singleton _
  | .tagged value lang => exact (by decide : ["xmlns:prop".toList, "xml:lang".toList].Nodup)
  | .typed value datatype =>
    exact (by decide : ["xmlns:prop".toList, "rdf:datatype".toList].Nodup)

/-- Up to its end, and behind its attributes, the tag of a property. -/
theorem scan_propertyTag (predicate : String) (v : Value) :
    ∃ m, (text []).scan ("<prop:".toList ++ RdfXml.attributeText "xmlns:prop" predicate ++
        (valueAttributes v).flatMap Lexer.attributeText) = some (m, []) ∧
      m.Behind ⟨"prop:".toList, (spaceAttribute predicate :: valueAttributes v).reverse⟩ := by
  have hnames : ∀ a ∈ spaceAttribute predicate :: valueAttributes v, IsName a.name := by
    rw [List.forall_mem_cons]
    exact ⟨show IsName "xmlns:prop".toList by decide, isName_valueAttributes v⟩
  obtain ⟨m, hscan, hm⟩ := scan_startTag isName_prop hnames (nodup_propertyTag predicate v)
  rw [List.flatMap_cons, ← List.append_assoc] at hscan
  exact ⟨m, hscan, hm⟩

/-- The element of a property whose value is a node. -/
theorem scan_nodeProperty (predicate : String) (n : Node) :
    (text []).scan (propertyText (predicate, .node n)) =
      some (text [], propertyTokens (predicate, .node n)) := by
  obtain ⟨m, hscan, hm⟩ := scan_propertyTag predicate (.node n)
  have hall := scan_append hscan hm.closeEmpty
  rw [openToken, List.reverse_reverse, valueAttributes, ← nodeAttribute_eq] at hall
  exact (congrArg (text []).scan (List.append_assoc _ _ _).symm).trans hall

/-- The element of a property whose value is a literal. -/
theorem scan_textProperty (predicate : String) {v : Value} {value : String}
    (htext : valueText v = (valueAttributes v).flatMap Lexer.attributeText ++
      '>' :: escape value.toList ++ closeProperty)
    (hvalue : Trimmed value.toList) :
    (text []).scan (propertyText (predicate, v)) =
      some (text [], propertyTag predicate (valueAttributes v) ::
        (valueTokens value.toList ++ [.close "prop:".toList])) := by
  obtain ⟨m, hscan, hm⟩ := scan_propertyTag predicate v
  have hend := scan_endTag isName_prop (textTokens_escape hvalue)
  have hall := scan_append (scan_append hscan hm.close) (scan_append (scan_text _) hend)
  rw [openToken, List.reverse_reverse] at hall
  have hassoc : ∀ name tag value closing : List Char, name ++ (tag ++ '>' :: value ++ closing) =
      name ++ tag ++ ['>'] ++ (value ++ closing) := by
    simp
  show (text []).scan (_ ++ valueText v) = _
  rw [htext, hassoc]
  exact hall

theorem scan_property {p : String × Value}
    (h : ∀ value, p.2.text? = some value → Trimmed value.toList) :
    (text []).scan (propertyText p) = some (text [], propertyTokens p) := by
  obtain ⟨predicate, v⟩ := p
  cases v with
  | node n => exact scan_nodeProperty predicate n
  | plain value => exact scan_textProperty predicate rfl (h value rfl)
  | tagged value lang =>
    exact scan_textProperty predicate (attributeText_eq "xml:lang" lang ▸ rfl) (h value rfl)
  | typed value datatype =>
    exact scan_textProperty predicate (attributeText_eq "rdf:datatype" datatype ▸ rfl)
      (h value rfl)

/-- Pieces that the lexer goes through one by one. -/
theorem scan_flatMap {α : Type} {written : α → List Char} {tokens : α → List Token} {xs : List α}
    (h : ∀ x ∈ xs, (text []).scan (written x) = some (text [], tokens x)) :
    (text []).scan (xs.flatMap written) = some (text [], xs.flatMap tokens) := by
  induction xs with
  | nil => rfl
  | cons x rest ih =>
    rw [List.flatMap_cons, List.flatMap_cons]
    exact scan_append (h x List.mem_cons_self)
      (ih fun y hy => h y (List.mem_cons_of_mem x hy))

theorem scan_description {d : Description}
    (h : ∀ p ∈ d.properties, ∀ value, p.2.text? = some value → Trimmed value.toList) :
    (text []).scan d.text = some (text [], d.tokens) := by
  have hproperties := scan_flatMap fun p hp => scan_property (h p hp)
  have hall := scan_append (scan_append (scan_openDescription d.subject) hproperties)
    scan_closeDescription
  exact hall

/-- The tokens of a document, if no literal in it has white space at its ends. -/
theorem tokens_documentText {ds : List Description}
    (h : ∀ d ∈ ds, ∀ p ∈ d.properties, ∀ value, p.2.text? = some value → Trimmed value.toList) :
    Xml.tokens (documentText ds).toList = some (documentTokens ds) := by
  have hdescriptions := scan_flatMap fun d hd => scan_description (h d hd)
  have hscan := scan_append (scan_append scan_opening hdescriptions) scan_closing
  rw [Xml.tokens, documentText, String.toList_ofList, run_of_scan hscan]
  simp [finish, textTokens, documentTokens]

end RdfXml

end ContextPolicy
