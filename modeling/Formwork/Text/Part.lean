/-!
Parts of a text, and cutting a text at a separator.
-/

namespace Formwork.Text

/-- The first text is a stretch of the second. -/
def isPart (part : List Char) : List Char → Bool
  | [] => part.isEmpty
  | c :: cs => part.isPrefixOf (c :: cs) || isPart part cs

def endsWith (tail cs : List Char) : Bool := tail.reverse.isPrefixOf cs.reverse

end Formwork.Text
