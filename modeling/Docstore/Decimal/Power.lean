/-!
# Powers with an exponent of either sign

The power `base ^ e` of a natural number is a quotient of natural numbers, one of which is one.
Both are positive when the base is.
-/

namespace Docstore

/-- The numerator of `base ^ e`. -/
def powerOver (base : Nat) (e : Int) : Nat := Nat.pow base e.toNat

/-- The denominator of `base ^ e`. -/
def powerUnder (base : Nat) (e : Int) : Nat := Nat.pow base (-e).toNat

theorem powerOver_pos {base : Nat} (h : 0 < base) (e : Int) : 0 < powerOver base e :=
  Nat.pow_pos h

theorem powerUnder_pos {base : Nat} (h : 0 < base) (e : Int) : 0 < powerUnder base e :=
  Nat.pow_pos h

end Docstore
