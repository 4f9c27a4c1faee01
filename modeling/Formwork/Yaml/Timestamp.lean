import Formwork.Fault

/-!
Timestamps: a date, or a date and a time of day with a fraction of a second and an offset from universal
time, both of which may be missing.
-/

namespace Formwork.Yaml

structure TimeOfDay where
  hour : Nat
  minute : Nat
  second : Nat
  /-- The digits after the point. -/
  fraction : List Char := []
  /-- In minutes. -/
  offset : Option Int := none

structure Timestamp where
  year : Nat
  month : Nat
  day : Nat
  /-- Month and day have two digits each. -/
  padded : Bool
  time : Option TimeOfDay := none

namespace Timestamp

def digitsValue (cs : List Char) : Nat := cs.foldl (fun n c => 10 * n + (c.toNat - 48)) 0

/-- At least `least` digits and at most `most`, with their number and what follows. -/
def digits? (least most : Nat) (cs : List Char) : Option (Nat × Nat × List Char) :=
  let ds := (cs.take most).takeWhile Char.isDigit
  if least ≤ ds.length then some (digitsValue ds, ds.length, cs.drop ds.length) else none

def mark? (mark : Char) : List Char → Option (List Char)
  | [] => none
  | c :: cs => if c = mark then some cs else none

def isBlank (c : Char) : Bool := c = ' ' || c = '\t'

def offsetMinutes? (cs : List Char) : Option Int := do
  let (hours, _, cs) ← digits? 1 2 cs
  match cs with
  | [] => some (hours * 60)
  | cs => do
      let (minutes, _, cs) ← digits? 2 2 (← mark? ':' cs)
      if cs.isEmpty then some (hours * 60 + minutes) else none

/-- The offset at the end, or nothing if there is none; fails on anything else. -/
def offset? (cs : List Char) : Option (Option Int) :=
  match cs, cs.dropWhile isBlank with
  | [], _ => some none
  | _, ['Z'] => some (some 0)
  | _, '+' :: cs => (offsetMinutes? cs).map some
  | _, '-' :: cs => (offsetMinutes? cs).map fun n => some (-n)
  | _, _ => none

/-- The time of day after the mark or the blanks that separate it from the date. -/
def timeOfDay? (cs : List Char) : Option TimeOfDay := do
  let cs ← match cs with
    | 'T' :: cs | 't' :: cs => some cs
    | c :: cs => if isBlank c then some (cs.dropWhile isBlank) else none
    | [] => none
  let (hour, _, cs) ← digits? 1 2 cs
  let (minute, _, cs) ← digits? 2 2 (← mark? ':' cs)
  let (second, _, cs) ← digits? 2 2 (← mark? ':' cs)
  let (fraction, cs) := match cs with
    | '.' :: cs => (cs.takeWhile Char.isDigit, cs.dropWhile Char.isDigit)
    | cs => ([], cs)
  return { hour, minute, second, fraction, offset := ← offset? cs }

def read? (cs : List Char) : Option Timestamp := do
  let (year, _, cs) ← digits? 4 4 cs
  let (month, m, cs) ← digits? 1 2 (← mark? '-' cs)
  let (day, d, cs) ← digits? 1 2 (← mark? '-' cs)
  let padded := m = 2 && d = 2
  match cs with
  | [] => return { year, month, day, padded }
  | cs => return { year, month, day, padded, time := some (← timeOfDay? cs) }

/-- A plain scalar of this form is a timestamp; a date alone must have two digits in each place. -/
def isPlain (cs : List Char) : Bool := (read? cs).any fun t => t.padded || t.time.isSome

/-- The fraction in millionths; further digits are dropped. -/
def micros (fraction : List Char) : Nat :=
  digitsValue (fraction.take 6 ++ List.replicate (6 - fraction.length) '0')

def value (t : Timestamp) : Except Fault Value :=
  match t.time with
  | none => match Date.ofParts t.year t.month t.day with
    | .ok d => .ok (.date d)
    | .error e => .error (.badTime (.date e))
  | some time =>
      match DateTime.ofParts t.year t.month t.day time.hour time.minute time.second (micros time.fraction)
          time.offset with
      | .ok m => .ok (.moment m)
      | .error e => .error (.badTime e)

/-- The value of a scalar that is marked as a timestamp. A line feed at its end is passed over. -/
def valueOf (text : String) : Except Fault Value :=
  let cs := text.toList
  let cs := if cs.getLast? = some '\n' then cs.dropLast else cs
  match read? cs with
  | some t => t.value
  | none => .error .notATime

end Timestamp
end Formwork.Yaml
