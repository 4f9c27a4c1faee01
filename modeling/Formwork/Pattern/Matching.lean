import Formwork.Pattern.Node

/-!
Matching a whole text, by backtracking: what follows a node is a continuation, and a node tries its
ways of matching in order until the continuation succeeds.
-/

namespace Formwork.Pattern

/-- A position in the text, and what each group last matched. -/
structure Progress where
  position : Nat
  groups : List (Nat × Nat × Nat) := []

abbrev Matcher := Progress → (Progress → Option Progress) → Option Progress

def isLineFeed (c : Char) : Bool := c = '\n'

def isWordAt (text : Array Char) (ascii : Bool) (i : Nat) : Bool :=
  (text[i]?).any fun c => Category.word.holds ascii c.toNat

def isWordEdge (text : Array Char) (ascii : Bool) (i : Nat) : Bool :=
  isWordAt text ascii i != (i ≠ 0 && isWordAt text ascii (i - 1))

def Place.holds (text : Array Char) (i : Nat) : Place → Bool
  | .textStart => i = 0
  | .textEnd => i = text.size
  | .lineStart => i = 0 || (text[i - 1]?).any isLineFeed
  | .lineEnd => i = text.size || (text[i]?).any isLineFeed
  | .lastLineEnd => i = text.size || (i + 1 = text.size && (text[i]?).any isLineFeed)
  | .wordEdge ascii => text.size ≠ 0 && isWordEdge text ascii i
  | .noWordEdge ascii => text.size ≠ 0 && !isWordEdge text ascii i

/-- One character of a kind. -/
def step (text : Array Char) (holds : Char → Bool) : Matcher := fun s k =>
  match text[s.position]? with
  | some c => if holds c then k { s with position := s.position + 1 } else none
  | none => none

/-- The characters that a group matched, compared by a normal form. -/
def sameStretch (text : Array Char) (normal : Char → Nat) (start position : Nat) : Nat → Bool
  | 0 => true
  | n + 1 =>
      match text[start]?, text[position]? with
      | some a, some b => normal a = normal b && sameStretch text normal (start + 1) (position + 1) n
      | _, _ => false

def groupAt? (s : Progress) (index : Nat) : Option (Nat × Nat) :=
  (s.groups.find? fun g => g.1 = index).map (·.2)

def normalForm (ignoreCase ascii : Bool) (c : Char) : Nat :=
  if !ignoreCase then c.toNat
  else if ascii then CharSet.asciiLower c.toNat
  else Text.lowerPoint c.toNat

def reference (text : Array Char) (index : Nat) (normal : Char → Nat) : Matcher := fun s k =>
  match groupAt? s index with
  | some (start, stop) =>
      if sameStretch text normal start s.position (stop - start) then
        k { s with position := s.position + (stop - start) }
      else none
  | none => none

/-- The first way in which a matcher succeeds, taken on its own. -/
def alone (m : Matcher) (s : Progress) : Option Progress := m s some

def mayRepeat (most : Option Nat) (count : Nat) : Bool := most.all fun m => count < m

/-- A repetition after `count` rounds, the last of them begun at `last`. A round that would begin
where the one before it began ends the repetition. -/
def rounds (body : Matcher) (least : Nat) (most : Option Nat) (greed : Greed) :
    (fuel count : Nat) → (last : Option Nat) → Matcher
  | 0, _, _ => fun _ _ => none
  | fuel + 1, count, last => fun s k =>
      if count < least then
        match greed with
        | .possessive => (alone body s).bind fun s => rounds body least most greed fuel (count + 1) last s k
        | _ => body s fun s => rounds body least most greed fuel (count + 1) last s k
      else
        let more := mayRepeat most count && last != some s.position
        let again (s : Progress) := rounds body least most greed fuel (count + 1) (some s.position)
        match greed with
        | .greedy =>
            (if more then body s fun t => again s t k else none) <|> k s
        | .lazy => k s <|> if more then body s fun t => again s t k else none
        | .possessive =>
            if more then
              match alone body s with
              | some t => again s t k
              | none => k s
            else k s

/-- Every round beyond the least number that does not end the repetition takes a character. -/
def roundLimit (text : Array Char) (least : Nat) (s : Progress) : Nat :=
  least + (text.size - s.position) + 3

namespace Node

def run (text : Array Char) : Node → Matcher
  | .empty => fun s k => k s
  | .chars set => step text set.holds
  | .any lineFeed => step text fun c => lineFeed || !isLineFeed c
  | .place p => fun s k => if p.holds text s.position then k s else none
  | .seq first second => fun s k => run text first s fun s => run text second s k
  | .either first second => fun s k => run text first s k <|> run text second s k
  | .group none body => run text body
  | .group (some index) body => fun s k => run text body s fun t =>
      k { t with groups := (index, s.position, t.position) :: t.groups.filter fun g => g.1 ≠ index }
  | .atomic body => fun s k => (alone (run text body) s).bind k
  | .repeated least most greed body => fun s k =>
      rounds (run text body) least most greed (roundLimit text least s) 0 none s k
  | .look behind negated body => fun s k =>
      let back := (behind.map Width.least).getD 0
      let found := if s.position < back then none
        else alone (run text body) { s with position := s.position - back }
      match negated, found with
      | false, some t => k { t with position := s.position }
      | false, none => none
      | true, some _ => none
      | true, none => k s
  | .reference index ignoreCase ascii => Pattern.reference text index (normalForm ignoreCase ascii)
  | .conditional index yes no => fun s k =>
      if (groupAt? s index).isSome then run text yes s k else run text no s k

/-- The pattern matches the text from its start to its end. -/
def matchesAll (node : Node) (text : String) : Bool :=
  let text := text.toList.toArray
  (run text node { position := 0 } fun s => if s.position = text.size then some s else none).isSome

end Node
end Formwork.Pattern
