/-!
Contract: powers of two and of ten.

They are powers of natural numbers and of nothing more general, so that they
mean the same wherever they are used.
-/

namespace Sitewright.Number

def twoTo (exponent : Nat) : Nat :=
  Nat.pow 2 exponent

def tenTo (exponent : Nat) : Nat :=
  Nat.pow 10 exponent

end Sitewright.Number
