import Formwork.Fault
import Formwork.Decimal.Numeral
import Formwork.Text.Case

/-!
Field values as numbers, truth values and dates, and comparing them with a bound.
-/

namespace Formwork.Value

/-- A finite number. -/
def finite? (n : Number) : Except Fault (Option Number) :=
  match n with
  | .int i => if Binary64.overflows i then .error .tooLarge else .ok (some n)
  | .float x => .ok (if x.isFinite then some n else none)

/-- The number that a text writes. An integer of any size is read. -/
def numberOfText? (s : String) : Option Number :=
  match Decimal.readInt? s with
  | some i => some (.int i)
  | none => match Decimal.readFloat? s with
    | some x => if x.isFinite then some (.float x) else none
    | none => none

/-- The number that a value is or writes. A truth value is none. -/
def number? (v : Value) : Except Fault (Option Number) :=
  match v with
  | .number n => finite? n
  | .text s => .ok (numberOfText? s)
  | _ => .ok none

def truthWords : List String := ["true", "1", "yes", "on"]

/-- Whether a checkbox is set: of texts, only the words for it. -/
def isChecked (v : Value) : Bool :=
  match v with
  | .text s => truthWords.contains (Text.lower (Text.trim s))
  | v => v.isTrue

def date? (v : Value) : Option Date :=
  match v with
  | .date d => some d
  | .moment t => some t.date
  | .text s => Date.ofIso? (Text.trimList s.toList)
  | _ => none

/-- The value as a bound. Only numbers and truth values have an order with numbers. -/
def bound (v : Value) : Except Fault Number :=
  match v.asNumber? with
  | some n => .ok n
  | none => .error .wrongType

def isBelow (n : Number) (v : Value) : Except Fault Bool := v.bound.map n.lt

def isAbove (n : Number) (v : Value) : Except Fault Bool := v.bound.map fun b => b.lt n

/-- The text of a bound. -/
def boundText (v : Value) : String :=
  match v with
  | .number n => n.boundText
  | v => v.display

/-- A date in the form of the standard, and any other value as it is. -/
def withIsoDate (v : Value) : Value :=
  match v with
  | .date d => .text d.iso
  | .moment t => .text t.iso
  | v => v

end Formwork.Value
