import Formwork.Advisory.Rule

/-!
The registry of advisory rules: rules by name, in the order of registration. The first rule of a name
stays.
-/

namespace Formwork

structure Registry where
  rules : List (String × Rule) := []

namespace Registry

def names (r : Registry) : List String := r.rules.map (·.1)

def has (r : Registry) (name : String) : Bool := r.rules.any fun e => e.1 = name

def register (r : Registry) (name : String) (rule : Rule) : Registry :=
  if r.has name then r else ⟨r.rules ++ [(name, rule)]⟩

def registerAll (r : Registry) (rules : List (String × Rule)) : Registry :=
  rules.foldl (fun r e => r.register e.1 e.2) r

def withBuiltin (r : Registry) : Registry := r.registerAll Rule.builtin

/-- Registers a rule where it is written down, and gives it back. -/
def decorate (r : Registry) (name : String) (rule : Rule) : Rule × Registry := (rule, r.register name rule)

/-- Forgets all registrations. -/
def clear (_ : Registry) : Registry := {}

def get (r : Registry) (name : String) : Except Fault Rule :=
  match r.rules.find? fun e => e.1 = name with
  | some e => .ok e.2
  | none => .error (.unknownRule name)

end Registry
end Formwork
