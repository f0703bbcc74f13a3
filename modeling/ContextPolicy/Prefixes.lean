import Std.Data.ExtTreeMap
import ContextPolicy.Names
import ContextPolicy.Term.Writable
import ContextPolicy.Text.Quoted

/-! Prefixes and the namespaces that they stand for. No two prefixes stand for the same
namespace. A name that begins with an at sign is an entry for bookkeeping: it is kept with
the others but takes no part in writing or shortening IRIs. -/
namespace ContextPolicy

/-- Why a prefix cannot be declared. -/
inductive PrefixFault where
  /-- No declaration can hold the name or the namespace. -/
  | invalid (name space : String)
  /-- The name or the namespace is bound already, otherwise. -/
  | duplicate (name : String)
deriving DecidableEq, Repr

def PrefixFault.message : PrefixFault → String
  | invalid name space =>
    "prefix " ++ Text.quoted name ++ " <" ++ space ++
      "> cannot be written as a turtle prefix declaration"
  | duplicate name =>
    "prefix " ++ Text.quoted name ++
      " is bound to more than one namespace, or its namespace to more than one prefix"

structure Prefixes where
  /-- The namespace of each name. -/
  spaces : Std.ExtTreeMap String String
deriving DecidableEq

namespace Prefixes

def empty : Prefixes :=
  ⟨∅⟩

instance : EmptyCollection Prefixes :=
  ⟨empty⟩

def defaults : Prefixes :=
  ⟨.ofList [("rdf", Names.Rdf.space), ("xsd", Names.Xsd.space), ("ac", Names.Context.space)]⟩

def isBookkeeping (name : String) : Bool :=
  name.toList.head? == some '@'

/-! ### Entries -/

/-- The names with their namespaces, sorted by name. -/
def entries (p : Prefixes) : List (String × String) :=
  p.spaces.toList

/-- The entries that are prefix declarations. -/
def declarations (p : Prefixes) : List (String × String) :=
  p.entries.filter fun entry => !isBookkeeping entry.1

def size (p : Prefixes) : Nat :=
  p.spaces.size

def isEmpty (p : Prefixes) : Bool :=
  p.spaces.isEmpty

def space? (p : Prefixes) (name : String) : Option String :=
  p.spaces[name]?

def name? (p : Prefixes) (space : String) : Option String :=
  (p.entries.find? fun entry => entry.2 == space).map (·.1)

/-- Whether a declaration can hold a name and a namespace. -/
def isWritable (name space : String) : Bool :=
  (isBookkeeping name || PrefixName.writable name) && Iri.writable space

/-- Adds an entry, which may be there already but clash with no other. -/
def insert (p : Prefixes) (name space : String) : Except PrefixFault Prefixes :=
  if !isWritable name space then .error (.invalid name space)
  else if p.space? name = some space then .ok p
  else if (p.space? name).isSome || (p.name? space).isSome then .error (.duplicate name)
  else .ok ⟨p.spaces.insert name space⟩

def insertAll (p : Prefixes) (entries : List (String × String)) : Except PrefixFault Prefixes :=
  entries.foldlM (fun p entry => p.insert entry.1 entry.2) p

/-- A table of entries, added in the order of their names. -/
def ofList (entries : List (String × String)) : Except PrefixFault Prefixes :=
  insertAll ∅ (Std.ExtTreeMap.ofList entries).toList

/-! ### Short forms -/

/-- What stands in front of the first colon and behind it. -/
def splitAtColon (cs : List Char) : Option (List Char × List Char) :=
  match cs.span (· != ':') with
  | (name, _ :: part) => some (name, part)
  | (_, []) => none

/-- The IRI for a prefix, a colon and the rest of the IRI. -/
def expand (p : Prefixes) (short : String) : Option String :=
  (splitAtColon short.toList).bind fun (name, part) =>
    let name := String.ofList name
    if isBookkeeping name then none
    else (p.space? name).map fun space => space ++ String.ofList part

/-- The longer of two namespaces; the later of two equally long ones. -/
def longer (best : Option (String × String)) (entry : String × String) :
    Option (String × String) :=
  match best with
  | none => some entry
  | some found => if entry.2.length < found.2.length then some found else some entry

/-- The declarations that an IRI can be shortened with: those with a namespace, not an empty
one, that it begins with. -/
def candidates (p : Prefixes) (iri : String) : List (String × String) :=
  p.declarations.filter fun entry =>
    !entry.2.toList.isEmpty && entry.2.toList.isPrefixOf iri.toList

/-- The declaration with the longest namespace that an IRI begins with. -/
def longest? (p : Prefixes) (iri : String) : Option (String × String) :=
  (p.candidates iri).foldl longer none

/-- The short form of an IRI. -/
def compact (p : Prefixes) (iri : String) : Option String :=
  (p.longest? iri).map fun (name, space) =>
    name ++ ":" ++ String.ofList (iri.toList.drop space.length)

end Prefixes

end ContextPolicy
