/-!
The characters of a text, each with its line, its column and its distance from the start.
-/

namespace Formwork.Yaml

structure Spot where
  char : Char
  line : Nat
  column : Nat
  index : Nat
deriving DecidableEq, Repr

def nextLine : Char := '\x85'

def lineSeparator : Char := Char.ofNat 0x2028

def paragraphSeparator : Char := Char.ofNat 0x2029

def byteOrderMark : Char := Char.ofNat 0xFEFF

def isBreak (c : Char) : Bool :=
  c = '\n' || c = nextLine || c = lineSeparator || c = paragraphSeparator

/-- The break that a break counts as. -/
def breakAs (c : Char) : Char := if c = nextLine then '\n' else c

def isGap (c : Char) : Bool := c = ' ' || c = '\t'

namespace Spot

def spotsFrom (line column index : Nat) : List Char → List Spot
  | [] => []
  | c :: cs =>
      ⟨c, line, column, index⟩ ::
        if isBreak c then spotsFrom (line + 1) 0 (index + 1) cs
        else spotsFrom line (if c = byteOrderMark then column else column + 1) (index + 1) cs

/-- A return counts as a line feed, and so does one before a line feed, together with it. -/
def unifyBreaks : List Char → List Char
  | [] => []
  | '\r' :: '\n' :: cs => '\n' :: unifyBreaks cs
  | '\r' :: cs => '\n' :: unifyBreaks cs
  | c :: cs => c :: unifyBreaks cs

/-- The characters of a text with their places. -/
def ofText (s : String) : List Spot := spotsFrom 0 0 0 (unifyBreaks s.toList)

end Spot

/-- The character at some distance. -/
def charAt? (rest : List Spot) (n : Nat) : Option Char := rest[n]?.map Spot.char

def text (spots : List Spot) : String := String.ofList (spots.map Spot.char)

/-- The characters at the start that satisfy a condition, and what follows. -/
def span (p : Char → Bool) (rest : List Spot) : List Spot × List Spot := rest.span fun s => p s.char

def skip (p : Char → Bool) (rest : List Spot) : List Spot := rest.dropWhile fun s => p s.char

/-- The line ends here. -/
def atLineEnd (rest : List Spot) : Bool :=
  match rest with
  | [] => true
  | s :: _ => isBreak s.char

/-- The line ends here, or a space stands here. -/
def atSpace (rest : List Spot) : Bool := atLineEnd rest || charAt? rest 0 = some ' '

/-- The line ends here, or a space or a tab stands here. -/
def atGap (rest : List Spot) : Bool := atSpace rest || charAt? rest 0 = some '\t'

/-- A mark of three characters that stands alone. -/
def atMark (mark : Char) (rest : List Spot) : Bool :=
  charAt? rest 0 = some mark && charAt? rest 1 = some mark && charAt? rest 2 = some mark &&
    atGap (rest.drop 3)

/-- Here a document begins or ends, if this is the start of a line. -/
def atDocumentMark (rest : List Spot) : Bool := atMark '-' rest || atMark '.' rest

/-- The column here; the end has none. -/
def columnOf (rest : List Spot) : Nat :=
  match rest with
  | [] => 0
  | s :: _ => s.column

/-- The characters that may occur in a document. -/
def isAllowed (c : Char) : Bool :=
  let n := c.toNat
  n = 9 || n = 10 || n = 13 || (32 ≤ n && n ≤ 126) || n = 0x85 || (0xA0 ≤ n && n ≤ 0xD7FF) ||
    (0xE000 ≤ n && n ≤ 0xFFFD) || 0x10000 ≤ n

end Formwork.Yaml
