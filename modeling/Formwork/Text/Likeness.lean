/-!
How alike two words are: twice the number of characters they share, in the blocks that the longest
common part cuts them into, over the number of characters of both.
-/

namespace Formwork.Text

/-- The length of the common beginning. -/
def commonStart : List Char → List Char → Nat
  | a :: as, b :: bs => if a = b then commonStart as bs + 1 else 0
  | _, _ => 0

/-- A part that two words share: where it begins in each, and its length. -/
structure SharedPart where
  first : Nat := 0
  second : Nat := 0
  length : Nat := 0

/-- The longest shared part, and of several the one that begins first in the first word. -/
def longestShared (as bs : List Char) : SharedPart :=
  let starts := (List.range as.length).flatMap fun i => (List.range bs.length).map fun j => (i, j)
  starts.foldl (fun best p =>
    let length := commonStart (as.drop p.1) (bs.drop p.2)
    if best.length < length then ⟨p.1, p.2, length⟩ else best) {}

/-- How many characters two words share, in blocks. Every block takes a character, so `fuel` need not be
more than there are. -/
def sharedCount : (fuel : Nat) → List Char → List Char → Nat
  | 0, _, _ => 0
  | fuel + 1, as, bs =>
      let part := longestShared as bs
      if part.length = 0 then 0
      else part.length + sharedCount fuel (as.take part.first) (bs.take part.second) +
        sharedCount fuel (as.drop (part.first + part.length)) (bs.drop (part.second + part.length))

/-- The likeness is at least six tenths. -/
def isLike (a b : String) : Bool :=
  let shared := sharedCount a.length a.toList b.toList
  6 * (a.length + b.length) ≤ 20 * shared

end Formwork.Text
