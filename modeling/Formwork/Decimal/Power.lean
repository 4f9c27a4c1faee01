/-!
Powers of two and of ten.
-/

namespace Formwork.Decimal

def twoTo (n : Nat) : Nat := Nat.pow 2 n

def tenTo (n : Nat) : Nat := Nat.pow 10 n

end Formwork.Decimal
