import ContextPolicy.Text.Ranges

/-! The characters of names, of which XML and Turtle have the same idea. -/
namespace ContextPolicy.Text

/-- The code points that a name may begin with, `_` apart. -/
def nameStartRanges : Text.Ranges := [
  (0x41, 0x5a), (0x61, 0x7a), (0xc0, 0xd6), (0xd8, 0xf6), (0xf8, 0x2ff), (0x370, 0x37d),
  (0x37f, 0x1fff), (0x200c, 0x200d), (0x2070, 0x218f), (0x2c00, 0x2fef), (0x3001, 0xd7ff),
  (0xf900, 0xfdcf), (0xfdf0, 0xfffd), (0x10000, 0xeffff)]

/-- The code points that a name may also go on with, `_`, `-` and digits apart. -/
def nameExtendRanges : Text.Ranges := [(0xb7, 0xb7), (0x300, 0x36f), (0x203f, 0x2040)]

def isNameStart (c : Char) : Bool :=
  nameStartRanges.covers c

def isNameExtend (c : Char) : Bool :=
  nameExtendRanges.covers c

/-- A name of XML without a colon. -/
def isUncolonedName : List Char → Bool
  | [] => false
  | c :: rest =>
    (isNameStart c || c == '_') && rest.all fun c =>
      isNameStart c || isNameExtend c || c.isDigit || c == '_' || c == '-' || c == '.'

end ContextPolicy.Text
