import Formwork.Validator

/-!
Validators kept by schema. Schemas that are equal share one.
-/

namespace Formwork

structure ValidatorCache where
  entries : List (Schema × Validator) := []

namespace ValidatorCache

def size (c : ValidatorCache) : Nat := c.entries.length

def find? (c : ValidatorCache) (s : Schema) : Option Validator :=
  (c.entries.find? fun e => e.1.eqv s).map (·.2)

/-- The validator of a schema, kept for the next time. A schema that could change is no key. -/
def get (c : ValidatorCache) (s : Schema) : Except Fault (Validator × ValidatorCache) :=
  if !s.isKey then .error .wrongType
  else match c.find? s with
    | some v => .ok (v, c)
    | none => (Validator.ofSchema s).map fun v => (v, ⟨c.entries ++ [(s, v)]⟩)

/-- The place of a schema among those that have a validator. -/
def place? (c : ValidatorCache) (s : Schema) : Option Nat := c.entries.findIdx? fun e => e.1.eqv s

def clear : ValidatorCache := {}

end ValidatorCache
end Formwork
