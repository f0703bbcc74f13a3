import ContextPolicy.Prefixes
import ContextPolicy.Triple

/-! The canonical text: a line for each prefix declaration, an empty line, and a line for
each triple. It is Turtle, with full IRIs throughout. -/
namespace ContextPolicy.Document

def declaration (name space : String) : List Char :=
  "@prefix ".toList ++ name.toList ++ ": <".toList ++ space.toList ++ "> .\n".toList

def declarations (p : Prefixes) : List Char :=
  p.declarations.flatMap fun (name, space) => declaration name space

def lines (ts : List Triple) : List Char :=
  ts.flatMap Triple.line

def written (p : Prefixes) (ts : List Triple) : List Char :=
  declarations p ++ (if p.declarations.isEmpty || ts.isEmpty then [] else ['\n']) ++ lines ts

def toText (p : Prefixes) (ts : List Triple) : String :=
  String.ofList (written p ts)

end ContextPolicy.Document
