import Formwork.Calendar.DateTime
import Formwork.Number
import Formwork.Text.Blank
import Formwork.Text.Quoted

/-!
Values of form documents and form fields, with their text, their truth and two equalities.
-/

namespace Formwork

/-- A map keeps its entries in the order in which their keys first came. -/
inductive Value
  | null
  | bool (b : Bool)
  | number (n : Number)
  | text (s : String)
  | date (d : Date)
  | moment (t : DateTime)
  | bytes (bs : List UInt8)
  | list (vs : List Value)
  | tuple (vs : List Value)
  | set (vs : List Value)
  | map (entries : List (Value × Value))

namespace Value

def int (n : Int) : Value := .number (.int n)

def ofText? : Option String → Value
  | some s => .text s
  | none => .null

/-- A map with names for keys. -/
def record (entries : List (String × Value)) : Value := .map (entries.map fun e => (.text e.1, e.2))

instance : Inhabited Value := ⟨.null⟩

def isNull : Value → Bool
  | .null => true
  | _ => false

/-- Nothing, false, zero and what is empty count as false. -/
def isTrue : Value → Bool
  | .null => false
  | .bool b => b
  | .number (.int n) => n ≠ 0
  | .number (.float x) => !x.isZero
  | .text s => s ≠ ""
  | .date _ | .moment _ => true
  | .bytes bs => !bs.isEmpty
  | .list vs | .tuple vs | .set vs => !vs.isEmpty
  | .map entries => !entries.isEmpty

/-- A value, or another one if it counts as false. -/
def orElse (v w : Value) : Value := if v.isTrue then v else w

/-- Nothing, or a text of white space. -/
def isBlank : Value → Bool
  | .null => true
  | .text s => Text.isBlankText s
  | _ => false

def separated : List String → String := ", ".intercalate

def truthText (b : Bool) : String := if b then "True" else "False"

mutual

/-- A value as it is written inside a list or a map: texts are quoted. -/
def notated : Value → String
  | .null => "None"
  | .bool b => truthText b
  | .number n => n.text
  | .text s => Text.quote s
  | .date d => d.notated
  | .moment t => t.notated
  | .bytes bs => Text.quoteBytes bs
  | .list vs => "[" ++ separated (notatedAll vs) ++ "]"
  | .tuple vs => "(" ++ separated (notatedAll vs) ++ (if vs.length = 1 then ",)" else ")")
  | .set vs => if vs.isEmpty then "set()" else "\x7b" ++ separated (notatedAll vs) ++ "\x7d"
  | .map entries => "\x7b" ++ separated (notatedEntries entries) ++ "\x7d"

def notatedAll : List Value → List String
  | [] => []
  | v :: vs => notated v :: notatedAll vs

def notatedEntries : List (Value × Value) → List String
  | [] => []
  | (k, v) :: entries => (notated k ++ ": " ++ notated v) :: notatedEntries entries

end

/-- A value on its own: a text is written as it is, and dates in the form of the standard. -/
def display : Value → String
  | .text s => s
  | .date d => d.iso
  | .moment t => t.text
  | v => v.notated

def isNaN : Value → Bool
  | .number n => n.isNaN
  | _ => false

/-- Truth values count as the numbers 0 and 1. -/
def asNumber? : Value → Option Number
  | .number n => some n
  | .bool b => some (.int (if b then 1 else 0))
  | _ => none

def sameNumber (m n : Number) : Bool := m.eqv n || m.isNaN && n.isNaN

mutual

/-- Equality of values, with the number that is none equal to itself. -/
def same : Value → Value → Bool
  | .null, .null => true
  | .bool a, w => w.asNumber?.any (sameNumber (.int (if a then 1 else 0)))
  | .number m, w => w.asNumber?.any (sameNumber m)
  | .text s, .text t => s = t
  | .date a, .date b => a = b
  | .moment a, .moment b => a.eqv b
  | .bytes a, .bytes b => a = b
  | .list vs, .list ws => sameAll vs ws
  | .tuple vs, .tuple ws => sameAll vs ws
  | .set vs, .set ws => vs.length = ws.length && allIn vs ws
  | .map es, .map fs => es.length = fs.length && allEntriesIn es fs
  | _, _ => false
termination_by structural v => v

def sameAll : List Value → List Value → Bool
  | [], [] => true
  | v :: vs, w :: ws => same v w && sameAll vs ws
  | _, _ => false
termination_by structural v => v

def allIn : List Value → List Value → Bool
  | [], _ => true
  | v :: vs, ws => (ws.any fun w => same v w) && allIn vs ws
termination_by structural v => v

def allEntriesIn : List (Value × Value) → List (Value × Value) → Bool
  | [], _ => true
  | (k, v) :: es, fs => (fs.any fun f => same k f.1 && same v f.2) && allEntriesIn es fs
termination_by structural v => v

end

/-- Equality of values, in which the number that is none differs from everything. -/
def eqv (v w : Value) : Bool := same v w && !v.isNaN

mutual

/-- The value may be a key: it holds nothing that can change. -/
def isKey : Value → Bool
  | .list _ | .set _ | .map _ => false
  | .tuple vs => allKeys vs
  | _ => true

def allKeys : List Value → Bool
  | [] => true
  | v :: vs => isKey v && allKeys vs

end

end Value

/-- The entries of a map, in order. -/
abbrev Entries := List (Value × Value)

namespace Entries

def find? : Entries → Value → Option Value
  | [], _ => none
  | (k, v) :: es, key => if k.eqv key then some v else find? es key

/-- The value at a name, or nothing. -/
def get (es : Entries) (name : String) : Value := (es.find? (.text name)).getD .null

def has (es : Entries) (name : String) : Bool := (es.find? (.text name)).isSome

/-- Replaces the value of a key where it stands, or adds the key at the end. -/
def put : Entries → Value → Value → Entries
  | [], key, value => [(key, value)]
  | (k, v) :: es, key, value =>
      if k.eqv key then (k, value) :: es else (k, v) :: put es key value

end Entries
end Formwork
