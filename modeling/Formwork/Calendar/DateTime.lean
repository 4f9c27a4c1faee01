import Formwork.Calendar.Date

/-!
A date with a time of day to the microsecond and, if known, the offset from universal time in
minutes.
-/

namespace Formwork

namespace Calendar

inductive TimeError
  | date (e : DateError)
  | hour
  | minute
  | second
  | offset (minutes : Int)
deriving DecidableEq, Repr

/-- A span of time is written as days and the seconds left over. -/
def spanText (minutes : Int) : String :=
  let days := minutes / 1440
  let seconds := minutes % 1440 * 60
  let parts := (if days = 0 then [] else [s!"days={days}"]) ++
    (if seconds = 0 then [] else [s!"seconds={seconds}"])
  "datetime.timedelta(" ++ (if parts = [] then "0" else ", ".intercalate parts) ++ ")"

def TimeError.message : TimeError → String
  | .date e => e.message
  | .hour => "hour must be in 0..23"
  | .minute => "minute must be in 0..59"
  | .second => "second must be in 0..59"
  | .offset minutes =>
      "offset must be a timedelta strictly between -timedelta(hours=24) and " ++
        s!"timedelta(hours=24), not {spanText minutes}."

def timeError? (hour minute second : Nat) (offset : Option Int) : Option TimeError :=
  if offset.any fun o => o ≤ -1440 ∨ 1440 ≤ o then some (.offset (offset.getD 0))
  else if 23 < hour then some .hour
  else if 59 < minute then some .minute
  else if 59 < second then some .second
  else none

end Calendar

open Calendar

structure DateTime where
  date : Date
  hour : Nat
  minute : Nat
  second : Nat
  microsecond : Nat := 0
  offset : Option Int := none
deriving DecidableEq, Repr

namespace DateTime

/-- A bad offset is reported before a bad date, and that before a bad time. -/
def ofParts (year month day hour minute second microsecond : Nat) (offset : Option Int) :
    Except TimeError DateTime :=
  match timeError? 0 0 0 offset, Date.ofParts year month day, timeError? hour minute second none with
  | some e, _, _ => .error e
  | _, .error e, _ => .error (.date e)
  | _, _, some e => .error e
  | _, .ok date, none => .ok ⟨date, hour, minute, second, microsecond, offset⟩

def offsetText (minutes : Int) : String :=
  (if minutes < 0 then "-" else "+") ++ padded 2 (minutes.natAbs / 60) ++ ":" ++
    padded 2 (minutes.natAbs % 60)

def isoWith (separator : String) (t : DateTime) : String :=
  t.date.iso ++ separator ++ padded 2 t.hour ++ ":" ++ padded 2 t.minute ++ ":" ++
    padded 2 t.second ++ (if t.microsecond = 0 then "" else "." ++ padded 6 t.microsecond) ++
    (t.offset.map offsetText).getD ""

def iso (t : DateTime) : String := t.isoWith "T"

def text (t : DateTime) : String := t.isoWith " "

/-- The time as it is written inside a list or a map. -/
def notated (t : DateTime) : String :=
  let parts := [t.date.year, t.date.month, t.date.day, t.hour, t.minute] ++
    (if t.second = 0 ∧ t.microsecond = 0 then [] else [t.second]) ++
    (if t.microsecond = 0 then [] else [t.microsecond])
  let zone := match t.offset with
    | none => ""
    | some 0 => ", tzinfo=datetime.timezone.utc"
    | some minutes => s!", tzinfo=datetime.timezone({spanText minutes})"
  "datetime.datetime(" ++ ", ".intercalate (parts.map toString) ++ zone ++ ")"

def minutesOfDay (t : DateTime) : Int := t.date.ordinal * 1440 + t.hour * 60 + t.minute

/-- Times with an offset are equal if they are the same instant; without one, if they read the
same. -/
def eqv (a b : DateTime) : Bool :=
  match a.offset, b.offset with
  | none, none => a = b
  | some o, some p =>
      a.minutesOfDay - o = b.minutesOfDay - p && a.second = b.second && a.microsecond = b.microsecond
  | _, _ => false

/-- Reads `2024-01-31T10:00:00`, with a fraction of up to six digits if there is one. -/
def ofIso? (cs : List Char) : Option DateTime := do
  let date ← Date.ofIso? (cs.take 10)
  match cs.drop 10 with
  | _ :: h₁ :: h₂ :: ':' :: m₁ :: m₂ :: ':' :: s₁ :: s₂ :: rest =>
      let hour ← readDigits? [h₁, h₂]
      let minute ← readDigits? [m₁, m₂]
      let second ← readDigits? [s₁, s₂]
      let microsecond ← match rest with
        | [] => some 0
        | '.' :: ds =>
            if 6 < ds.length then none else readDigits? (ds ++ List.replicate (6 - ds.length) '0')
        | _ => none
      if (timeError? hour minute second none).isSome then none
      else some ⟨date, hour, minute, second, microsecond, none⟩
  | _ => none

end DateTime
end Formwork
