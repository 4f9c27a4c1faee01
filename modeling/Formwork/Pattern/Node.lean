import Formwork.Decimal.Power
import Formwork.Text.Blank
import Formwork.Text.CaseClass
import Formwork.Text.Word

/-!
Patterns as trees. What a letter or a class stands for depends on options; every node holds the
options in force where it stands.
-/

namespace Formwork.Pattern

inductive Category
  | digit
  | space
  | word
deriving DecidableEq, Repr

inductive Item
  | point (n : Nat)
  | span (low high : Nat)
  | category (c : Category) (negated : Bool)
deriving DecidableEq, Repr

/-- A class of characters. -/
structure CharSet where
  items : List Item
  negated : Bool := false
  ignoreCase : Bool := false
  ascii : Bool := false
deriving Repr

/-- A place between two characters. -/
inductive Place
  | textStart
  | textEnd
  | lineStart
  | lineEnd
  /-- The end, or before a line feed at the end. -/
  | lastLineEnd
  | wordEdge (ascii : Bool)
  | noWordEdge (ascii : Bool)
deriving DecidableEq, Repr

inductive Greed
  | greedy
  | lazy
  | possessive
deriving DecidableEq, Repr

/-- Widths are not counted beyond this bound. -/
def maxWidth : Nat := Decimal.twoTo 64

structure Width where
  least : Nat
  most : Nat
deriving DecidableEq, Repr

namespace Width

def none : Width := ⟨0, 0⟩

def one : Width := ⟨1, 1⟩

def capped (w : Width) : Width := ⟨min w.least maxWidth, min w.most maxWidth⟩

def add (v w : Width) : Width := capped ⟨v.least + w.least, v.most + w.most⟩

def join (v w : Width) : Width := ⟨min v.least w.least, max v.most w.most⟩

def times (w : Width) (least : Nat) (most : Option Nat) : Width :=
  capped ⟨w.least * least, match most with
    | some n => w.most * n
    | Option.none => if w.most = 0 then 0 else maxWidth⟩

end Width

inductive Node
  | empty
  | chars (set : CharSet)
  /-- Any character, or any but a line feed. -/
  | any (lineFeed : Bool)
  | place (p : Place)
  | seq (first second : Node)
  | either (first second : Node)
  | group (index : Option Nat) (body : Node)
  | atomic (body : Node)
  | repeated (least : Nat) (most : Option Nat) (greed : Greed) (body : Node)
  /-- A look at what follows, or at what stands before, of the width of the body. -/
  | look (behind : Option Width) (negated : Bool) (body : Node)
  | reference (index : Nat) (ignoreCase ascii : Bool)
  | conditional (index : Nat) (yes no : Node)
deriving Repr

def Category.holds (c : Category) (ascii : Bool) (n : Nat) : Bool :=
  let char := Char.ofNat n
  match c, ascii with
  | .digit, false => Text.isDigit char
  | .digit, true => Text.isAsciiDigit char
  | .space, false => Text.isBlank char
  | .space, true => n = 32 || (9 ≤ n && n ≤ 13)
  | .word, false => Text.isWord char
  | .word, true => n < 128 && Text.isWord char

namespace CharSet

def itemHolds (s : CharSet) (n : Nat) : Item → Bool
  | .point m => m = n
  | .span low high => low ≤ n && n ≤ high
  | .category c negated => c.holds s.ascii n != negated

def asciiLower (n : Nat) : Nat := if 65 ≤ n ∧ n ≤ 90 then n + 32 else n

def asciiClass (n : Nat) : List Nat :=
  let m := asciiLower n
  if 97 ≤ m ∧ m ≤ 122 then [m, m - 32] else [n]

/-- The characters that stand for one in a comparison. -/
def variants (s : CharSet) (n : Nat) : List Nat :=
  if !s.ignoreCase then [n] else if s.ascii then asciiClass n else Text.caseClass n

def holds (s : CharSet) (c : Char) : Bool :=
  let variants := s.variants c.toNat
  (s.items.any fun item => variants.any fun n => s.itemHolds n item) != s.negated

def single (n : Nat) (ignoreCase ascii : Bool) : CharSet := { items := [.point n], ignoreCase, ascii }

end CharSet

end Formwork.Pattern
