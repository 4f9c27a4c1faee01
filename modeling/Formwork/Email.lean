import Formwork.Text.Digit
import Formwork.Text.Letter

/-!
Email addresses: a local part, an at sign, and a domain whose last label has two letters or more.
One line feed may follow.
-/

namespace Formwork.Email

def isLabelChar (c : Char) : Bool :=
  Text.isAsciiLetter c || Text.isAsciiDigit c || c = '.' || c = '-'

def isLocalChar (c : Char) : Bool := isLabelChar c || c = '_' || c = '%' || c = '+'

def isTopLevel (cs : List Char) : Bool := 2 ≤ cs.length && cs.all Text.isAsciiLetter

/-- A domain, a point, and the last label. -/
def isDomain (cs : List Char) : Bool :=
  let last := (cs.reverse.takeWhile (· ≠ '.')).reverse
  match cs.reverse.dropWhile (· ≠ '.') with
  | '.' :: before => !before.isEmpty && before.all isLabelChar && isTopLevel last
  | _ => false

def isAddress (cs : List Char) : Bool :=
  let part := cs.takeWhile (· ≠ '@')
  match cs.dropWhile (· ≠ '@') with
  | '@' :: domain => !part.isEmpty && part.all isLocalChar && isDomain domain
  | _ => false

def dropLineFeed (cs : List Char) : List Char :=
  match cs.reverse with
  | '\n' :: before => before.reverse
  | _ => cs

def accepts (s : String) : Bool := isAddress (dropLineFeed s.toList)

end Formwork.Email
