import SeriesFormula.Decimal.Shortest

/-!
# Written floats

A float is written with the fewest digits that read back. A `Layout` says where the point goes: `plain` never uses an
exponent, `pointed` and `exchange` do so for numbers far from one and show a whole number by a final `.0`.
-/

namespace SeriesFormula.Decimal

/-- How the digits of a number are laid out. -/
structure Layout where
  /-- The exponents of the leading digit, least and greatest, that are written without an exponent; `none` for all. -/
  positional : Option (Int × Int)
  /-- Whole numbers end in `.0`. -/
  point : Bool
  /-- Exponents from zero on have a plus sign. -/
  plus : Bool
  /-- Which of two equally near decimals is taken. -/
  tie : Tie

/-- Numbers in formulas, tables and messages: digits and a point only. -/
def plain : Layout where
  positional := none
  point := false
  plus := false
  tie := .up

def pointed : Layout where
  positional := some (-4, 15)
  point := true
  plus := false
  tie := .up

def exchange : Layout where
  positional := some (-5, 15)
  point := true
  plus := true
  tie := .even

/-- The digits of a whole number to the base ten. -/
def naturalDigits (n : Nat) : List Char := Nat.toDigits 10 n

/-- The digits of an exponent with their sign. -/
def Layout.exponentDigits (layout : Layout) (e : Int) : List Char :=
  if e < 0 then '-' :: naturalDigits e.natAbs
  else if layout.plus then '+' :: naturalDigits e.natAbs
  else naturalDigits e.natAbs

/-- The digits `ds · 10^e` without an exponent. -/
def Layout.place (layout : Layout) (ds : List Char) (e : Int) : List Char :=
  if 0 ≤ e then ds ++ List.replicate e.toNat '0' ++ (if layout.point then ['.', '0'] else [])
  else
    let before : Int := ds.length + e
    if 0 < before then ds.take before.toNat ++ '.' :: ds.drop before.toNat
    else '0' :: '.' :: List.replicate (-before).toNat '0' ++ ds

/-- The digits `ds` of a number whose leading digit has the exponent `e`, with that exponent. -/
def Layout.scale (layout : Layout) (ds : List Char) (e : Int) : List Char :=
  let fraction := if 1 < ds.length then '.' :: ds.drop 1 else []
  ds.take 1 ++ fraction ++ 'e' :: layout.exponentDigits e

def Layout.digits (layout : Layout) (d : Digits) : List Char :=
  let ds := naturalDigits d.coefficient
  let leading := d.exponent + ds.length - 1
  match layout.positional with
  | none => layout.place ds d.exponent
  | some (least, greatest) =>
    if least ≤ leading ∧ leading ≤ greatest then layout.place ds d.exponent else layout.scale ds leading

/-- A magnitude below infinity in the layout. -/
def Layout.magnitude (layout : Layout) (bits : Nat) : List Char :=
  if bits = 0 then layout.place ['0'] 0 else layout.digits (shortest layout.tie bits)

/-- A float in the layout; zero keeps its sign. -/
def Layout.chars (layout : Layout) (x : Float) : List Char :=
  match content x with
  | .nan => ['N', 'a', 'N']
  | .infinite negative => (if negative then ['-'] else []) ++ ['i', 'n', 'f']
  | .finite negative _ => (if negative then ['-'] else []) ++ layout.magnitude (magnitudeBits x)

def Layout.text (layout : Layout) (x : Float) : String := String.ofList (layout.chars x)

end SeriesFormula.Decimal
