/-
This file relates the three binary floating-point widths.

A narrower number widens to 64 bits without loss. Narrowing goes the other way
and answers only when widening the result gives back every bit, so that a
number may be written in the narrow form.
-/

namespace Oscore.Cbor.Float

/-- A binary floating-point format: a sign, then an exponent and a fraction of these widths. -/
structure Format where
  exponent : Nat
  fraction : Nat

/-- Sixteen bits. -/
def half : Format := ⟨5, 10⟩

/-- Thirty-two bits. -/
def single : Format := ⟨8, 23⟩

namespace Format

/-- The exponent field that stands for exponent zero. -/
def bias (format : Format) : Nat := (1 <<< (format.exponent - 1)) - 1

/-- The 64 bits of a number of the format. A subnormal number becomes normal, since 64 bits
reach every smaller exponent. -/
def widen (format : Format) (bits : Nat) : Nat :=
  let sign := bits >>> (format.exponent + format.fraction) % 2
  let exponent := (bits >>> format.fraction) % (1 <<< format.exponent)
  let fraction := bits % (1 <<< format.fraction)
  let magnitude :=
    if exponent = (1 <<< format.exponent) - 1 then
      (2047 <<< 52) + (fraction <<< (52 - format.fraction))
    else if exponent = 0 then
      if fraction = 0 then 0
      else
        let leading := fraction.log2
        ((1024 + leading - format.bias - format.fraction) <<< 52)
          + ((fraction - (1 <<< leading)) <<< (52 - leading))
    else ((1023 + exponent - format.bias) <<< 52) + (fraction <<< (52 - format.fraction))
  (sign <<< 63) + magnitude

/-- The number of the format nearest to zero from the 64 bits given, without regard to loss. -/
def truncate (format : Format) (bits : Nat) : Nat :=
  let sign := bits >>> 63
  let exponent := (bits >>> 52) % 0x800
  let fraction := bits % (1 <<< 52)
  let magnitude :=
    if exponent = 2047 then
      (((1 <<< format.exponent) - 1) <<< format.fraction) + (fraction >>> (52 - format.fraction))
    else if exponent + format.bias > 1023 then
      ((exponent + format.bias - 1023) <<< format.fraction)
        + (fraction >>> (52 - format.fraction))
    else ((1 <<< 52) + fraction) >>> (52 - format.fraction + (1024 - format.bias - exponent))
  (sign <<< (format.exponent + format.fraction)) + magnitude

/-- The number of the format that has exactly these 64 bits, if there is one. A signalling
not-a-number has none, since no conversion keeps it signalling. -/
def narrow? (format : Format) (bits : Nat) : Option Nat :=
  let signalling := (bits >>> 52) % 0x800 = 2047 ∧ bits % (1 <<< 52) ≠ 0 ∧ ¬ bits.testBit 51
  let short := format.truncate bits
  if ¬ signalling ∧ short < (1 <<< (1 + format.exponent + format.fraction))
      ∧ format.widen short = bits then some short
  else none

end Format

end Oscore.Cbor.Float
