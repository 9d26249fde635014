/-!
# Floats as exact numbers

A float is a sign and a magnitude, and a magnitude is one of the numbers `m · 2^e` below or infinity, or no number at
all. The magnitudes are ordered like their 63-bit patterns, which is what `Magnitude.bits` and `Magnitude.ofBits` say
on natural numbers; `compose` puts a sign in front.
-/

namespace SeriesFormula.Decimal

/-- The pattern of the infinite magnitude. -/
def infinityBits : Nat := 2047 * Nat.pow 2 52

/-- The least exponent of two, that of all numbers below `2^-1022`. -/
def leastExponent : Int := -1074

/-- The number `mantissa · 2^exponent`. -/
structure Scaled where
  mantissa : Nat
  exponent : Int
  deriving DecidableEq, Repr

/-- The number of a pattern below `infinityBits`: the upper bits give the exponent, the lower 52 the mantissa, which
gets an upper bit of its own except at the least exponent. -/
def Scaled.ofBits (bits : Nat) : Scaled :=
  let field : Nat := bits / Nat.pow 2 52
  let fraction : Nat := bits % Nat.pow 2 52
  if field = 0 then ⟨fraction, leastExponent⟩ else ⟨fraction + Nat.pow 2 52, (field : Int) - 1 + leastExponent⟩

/-- The pattern of a number with a mantissa of at most 53 bits, and of 53 bits above the least exponent. A mantissa of
`2^53` carries over into the exponent. -/
def Scaled.bits (x : Scaled) : Nat := (x.exponent - leastExponent).toNat * Nat.pow 2 52 + x.mantissa

/-- The numerator of the number as a fraction. -/
def Scaled.num (x : Scaled) : Nat := x.mantissa * Nat.pow 2 x.exponent.toNat

/-- The denominator of the number as a fraction. -/
def Scaled.den (x : Scaled) : Nat := Nat.pow 2 (-x.exponent).toNat

/-- The natural number that the number equals, if it equals one. -/
def Scaled.natural? (x : Scaled) : Option Nat :=
  if x.num % x.den = 0 then some (x.num / x.den) else none

/-- What a float stands for. -/
inductive Content where
  /-- No number. -/
  | nan
  /-- An infinity. -/
  | infinite (negative : Bool)
  /-- A number; zero has a sign too. -/
  | finite (negative : Bool) (magnitude : Scaled)
  deriving DecidableEq, Repr

def isNegative (x : Float) : Bool := Nat.pow 2 63 ≤ x.toBits.toNat

/-- The pattern of a float without its sign. -/
def magnitudeBits (x : Float) : Nat := x.toBits.toNat % Nat.pow 2 63

def content (x : Float) : Content :=
  let bits := magnitudeBits x
  if bits < infinityBits then .finite (isNegative x) (.ofBits bits)
  else if bits = infinityBits then .infinite (isNegative x)
  else .nan

/-- The float of a sign and a magnitude's pattern. -/
def compose (negative : Bool) (bits : Nat) : Float :=
  Float.ofBits (UInt64.ofNat (if negative then Nat.pow 2 63 + bits else bits))

def isFinite (x : Float) : Bool := magnitudeBits x < infinityBits

/-- The natural number that a float equals, if it equals one. Negative zero equals zero. -/
def natural? (x : Float) : Option Nat :=
  match content x with
  | .finite negative magnitude =>
    if negative && magnitude.mantissa != 0 then none else magnitude.natural?
  | _ => none

end SeriesFormula.Decimal
