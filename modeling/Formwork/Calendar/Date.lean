/-!
Calendar dates of the years 1 to 9999, and their ten-character form `2024-02-29`.
-/

namespace Formwork

namespace Calendar

def isLeap (year : Nat) : Bool := year % 4 = 0 && (year % 100 ≠ 0 || year % 400 = 0)

def daysIn (year month : Nat) : Nat :=
  if month = 2 then (if isLeap year then 29 else 28)
  else if month = 4 ∨ month = 6 ∨ month = 9 ∨ month = 11 then 30
  else 31

/-- The first reason, in this order, for which three numbers are no date. -/
inductive DateError
  | year (n : Nat)
  | month
  | day
deriving DecidableEq, Repr

def DateError.message : DateError → String
  | .year n => s!"year {n} is out of range"
  | .month => "month must be in 1..12"
  | .day => "day is out of range for month"

def dateError? (year month day : Nat) : Option DateError :=
  if year < 1 ∨ 9999 < year then some (.year year)
  else if month < 1 ∨ 12 < month then some .month
  else if day < 1 ∨ daysIn year month < day then some .day
  else none

/-- The digits of `n`, at least `width` of them. -/
def padded (width n : Nat) : String :=
  let digits := toString n
  String.ofList (List.replicate (width - digits.length) '0') ++ digits

/-- A number of decimal digits and nothing else. -/
def readDigits? (cs : List Char) : Option Nat :=
  if cs ≠ [] ∧ cs.all Char.isDigit then some (cs.foldl (fun n c => 10 * n + (c.toNat - 48)) 0) else none

end Calendar

open Calendar

structure Date where
  year : Nat
  month : Nat
  day : Nat
  valid : dateError? year month day = none
deriving DecidableEq, Repr

namespace Date

def ofParts (year month day : Nat) : Except DateError Date :=
  match h : dateError? year month day with
  | none => .ok ⟨year, month, day, h⟩
  | some e => .error e

def iso (d : Date) : String := padded 4 d.year ++ "-" ++ padded 2 d.month ++ "-" ++ padded 2 d.day

/-- Reads exactly the ten-character form. -/
def ofIso? : List Char → Option Date
  | [y₁, y₂, y₃, y₄, '-', m₁, m₂, '-', d₁, d₂] => do
      let year ← readDigits? [y₁, y₂, y₃, y₄]
      let month ← readDigits? [m₁, m₂]
      let day ← readDigits? [d₁, d₂]
      (ofParts year month day).toOption
  | _ => none

/-- The date as it is written inside a list or a map. -/
def notated (d : Date) : String := s!"datetime.date({d.year}, {d.month}, {d.day})"

/-- Days since the day before the first of the calendar. -/
def ordinal (d : Date) : Nat :=
  let y := d.year - 1
  365 * y + y / 4 - y / 100 + y / 400 +
    (List.range (d.month - 1)).foldl (fun n m => n + daysIn d.year (m + 1)) 0 + d.day

end Date
end Formwork
