/-
This file repeats an operation many times in few steps.

Powers in a field and multiples of a point are the same computation: the
count is read bit by bit from the top, the result is doubled at every bit and
the element is added at every set one.
-/

namespace Oscore.Repeated

variable {Element : Type}

/-- The result after the lowest `bits` bits of the count, given the result before them. -/
def continued (combine : Element → Element → Element) (element : Element) (count : Nat) :
    (bits : Nat) → (result : Element) → Element
  | 0, result => result
  | bits + 1, result =>
    let doubled := combine result result
    continued combine element count bits
      (if count.testBit bits then combine doubled element else doubled)

/-- The element combined with itself `count` times, starting from the neutral element. -/
def combined (combine : Element → Element → Element) (neutral element : Element) (count : Nat) :
    Element :=
  continued combine element count (count.log2 + 1) neutral

end Oscore.Repeated
