/-!
# Blank characters

The characters that separate words, those of the Unicode property White_Space, and the cutting of blanks at the
ends of a text (`trim`) or everywhere in it (`squeeze`).
-/

namespace SeriesFormula.Text

/-- The characters of the property White_Space: tab to carriage return, the space, and 19 others. -/
def isBlank (c : Char) : Bool :=
  let n := c.toNat
  (9 ≤ n && n ≤ 13) || n == 0x20 || n == 0x85 || n == 0xA0 || n == 0x1680 || (0x2000 ≤ n && n ≤ 0x200A)
    || n == 0x2028 || n == 0x2029 || n == 0x202F || n == 0x205F || n == 0x3000

def trimStart (cs : List Char) : List Char := cs.dropWhile isBlank

def trimEnd (cs : List Char) : List Char := (cs.reverse.dropWhile isBlank).reverse

def trim (cs : List Char) : List Char := trimEnd (trimStart cs)

def squeeze (cs : List Char) : List Char := cs.filter fun c => !isBlank c

def trimmed (s : String) : String := String.ofList (trim s.toList)

/-- The number of bytes that a text takes in UTF-8. -/
def byteLength (cs : List Char) : Nat := cs.foldr (fun c n => c.utf8Size + n) 0

end SeriesFormula.Text
