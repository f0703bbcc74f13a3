import ContextPolicy.Term.Written

/-! ASK queries over group patterns, and their text. -/
namespace ContextPolicy

namespace Ask

/-- A place of a triple pattern. -/
inductive Slot where
  | var (name : String)
  | term (t : Term)
deriving DecidableEq, Repr

namespace Slot

/-- A text behind a dollar sign names a variable, any other is an IRI. -/
def ofText (text : String) : Slot :=
  match text.toList with
  | '$' :: name => var (String.ofList name)
  | _ => term (.named text)

def written : Slot → List Char
  | var name => '?' :: name.toList
  | term t => t.written

end Slot

inductive Clause where
  | triple (subject predicate object : Slot)
  | group (clauses : List Clause)
  | union (alternatives : List Clause)
  | notExists (clause : Clause)
  | filter (condition : String)
deriving Repr

/-- Braces, where they are needed. -/
def braced (needed : Bool) (cs : List Char) : List Char :=
  if needed then '\x7b' :: ' ' :: cs ++ [' ', '\x7d'] else cs

namespace Clause

mutual

/-- A clause, where braces are needed or not; a group has braces anywhere. -/
def writtenIn (needed : Bool) : Clause → List Char
  | triple s p o =>
    braced needed (s.written ++ ' ' :: p.written ++ ' ' :: o.written ++ [' ', '.'])
  | group clauses => '\x7b' :: writtenAfterSpaces clauses ++ [' ', '\x7d']
  | union alternatives =>
    braced needed (" UNION ".toList.intercalate (writtenAlternatives alternatives))
  | notExists clause => braced needed ("FILTER NOT EXISTS ".toList ++ writtenIn true clause)
  | filter condition => braced needed ("FILTER (".toList ++ condition.toList ++ [')'])

/-- Clauses one behind the other, each with a space in front. -/
def writtenAfterSpaces : List Clause → List Char
  | [] => []
  | c :: rest => ' ' :: writtenIn false c ++ writtenAfterSpaces rest

def writtenAlternatives : List Clause → List (List Char)
  | [] => []
  | c :: rest => writtenIn true c :: writtenAlternatives rest

end

end Clause

end Ask

structure Ask where
  clauses : List Ask.Clause
deriving Repr

namespace Ask

def written (q : Ask) : List Char :=
  "ASK WHERE \x7b".toList ++ Clause.writtenAfterSpaces q.clauses ++ [' ', '\x7d']

def toText (q : Ask) : String :=
  String.ofList q.written

end Ask

end ContextPolicy
