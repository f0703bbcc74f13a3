/-! IRI references: the five parts that one consists of, and how a reference is resolved
against a base, after section 5.2 of RFC 3986. Only the delimiters of the parts count; any
other character may stand in them. -/
namespace ContextPolicy.Iri

/-- The parts of a reference. A part that is missing differs from one that is empty. -/
structure Parts where
  scheme : Option (List Char)
  authority : Option (List Char)
  path : List Char
  query : Option (List Char)
  fragment : Option (List Char)
deriving DecidableEq, Repr

/-! ### Taking references apart -/

/-- A letter, then letters, digits, `+`, `-` and `.`. -/
def isScheme : List Char → Bool
  | [] => false
  | c :: rest =>
    c.isAlpha && rest.all fun c => c.isAlphanum || c = '+' || c = '-' || c = '.'

/-- Whether a character ends the part in front of it. -/
def isDelimiter (c : Char) : Bool :=
  c = ':' || c = '/' || c = '?' || c = '#'

def splitScheme (cs : List Char) : Option (List Char) × List Char :=
  match cs.span fun c => !isDelimiter c with
  | (scheme, ':' :: rest) => if isScheme scheme then (some scheme, rest) else (none, cs)
  | _ => (none, cs)

def splitAuthority : List Char → Option (List Char) × List Char
  | '/' :: '/' :: rest =>
    let (authority, rest) := rest.span fun c => c != '/' && c != '?' && c != '#'
    (some authority, rest)
  | cs => (none, cs)

/-- A part that a character introduces, up to another character. -/
def splitPart (mark : Char) (stop : Char → Bool) : List Char → Option (List Char) × List Char
  | [] => (none, [])
  | c :: rest =>
    if c = mark then
      let (part, rest) := rest.span fun c => !stop c
      (some part, rest)
    else (none, c :: rest)

def parts (cs : List Char) : Parts :=
  let (scheme, rest) := splitScheme cs
  let (authority, rest) := splitAuthority rest
  let (path, rest) := rest.span fun c => c != '?' && c != '#'
  let (query, rest) := splitPart '?' (· == '#') rest
  let (fragment, _) := splitPart '#' (fun _ => false) rest
  ⟨scheme, authority, path, query, fragment⟩

/-- A part behind what introduces it. -/
def marked (mark : List Char) : Option (List Char) → List Char
  | none => []
  | some part => mark ++ part

def Parts.join (p : Parts) : List Char :=
  (match p.scheme with
    | none => []
    | some scheme => scheme ++ [':']) ++
    marked ['/', '/'] p.authority ++ p.path ++ marked ['?'] p.query ++ marked ['#'] p.fragment

/-! ### Dot segments -/

/-- A path without the dot segments that it begins with. -/
def dropDots : List Char → List Char
  | '.' :: '.' :: '/' :: rest => dropDots rest
  | '.' :: '/' :: rest => dropDots rest
  | ['.', '.'] => []
  | ['.'] => []
  | cs => cs

/-- The segments of a path, each with the slash in front of it. -/
def segments : List Char → List (List Char)
  | [] => []
  | c :: rest =>
    match segments rest with
    | [] => [[c]]
    | segment :: others =>
      if segment.head? = some '/' then [c] :: segment :: others else (c :: segment) :: others

/-- Drops each dot segment and, for two dots, the segment before; `kept` stands in reverse. -/
def removeSegments (kept : List (List Char)) : List (List Char) → List (List Char)
  | [] => kept.reverse
  | segment :: rest =>
    let slash := if rest = [] then [['/']] else []
    if segment = ['/', '.'] then removeSegments (slash ++ kept) rest
    else if segment = ['/', '.', '.'] then removeSegments (slash ++ kept.tail) rest
    else removeSegments (segment :: kept) rest

def removeDots (path : List Char) : List Char :=
  (removeSegments [] (segments (dropDots path))).flatten

/-! ### Resolution -/

/-- A path that continues the base's path behind its last slash. -/
def merge (base : Parts) (path : List Char) : List Char :=
  if base.authority.isSome ∧ base.path = [] then '/' :: path
  else (base.path.reverse.dropWhile (· != '/')).reverse ++ path

def resolveParts (base r : Parts) : Parts :=
  if r.scheme.isSome then ⟨r.scheme, r.authority, removeDots r.path, r.query, r.fragment⟩
  else if r.authority.isSome then
    ⟨base.scheme, r.authority, removeDots r.path, r.query, r.fragment⟩
  else if r.path = [] then
    ⟨base.scheme, base.authority, base.path, r.query.or base.query, r.fragment⟩
  else
    let path := if r.path.head? = some '/' then r.path else merge base r.path
    ⟨base.scheme, base.authority, removeDots path, r.query, r.fragment⟩

/-- What references are resolved against: nothing, if no base is given. -/
abbrev Base := Option Parts

namespace Base

/-- A base is empty or has a scheme. -/
def ofText (text : List Char) : Option Base :=
  if text = [] then some none
  else
    let p := parts text
    if p.scheme.isSome then some (some p) else none

/-- The IRI that a reference stands for. Without a base a reference has to be an IRI, and
is taken as it is. -/
def resolve (base : Base) (reference : List Char) : Option (List Char) :=
  if reference.head? = some ':' then none
  else
    match base with
    | some base => some (resolveParts base (parts reference)).join
    | none => if (parts reference).scheme.isSome then some reference else none

end Base

end ContextPolicy.Iri
