import SeriesFormula.Decimal.Layout

/-!
# Written documents

The values that are written as JSON and their two forms: `Json.compact` without blanks, and `Json.indented` with a line
for each item and two blanks for each level. A number that is none or infinite is written as `null`.
-/

namespace SeriesFormula

/-- A value to be written. -/
inductive Json where
  | null
  | natural (n : Nat)
  | number (x : Float)
  | string (s : String)
  | array (items : List Json)
  | object (members : List (String × Json))

namespace Json

/-- The number or `null`. -/
def ofOption (x : Option Float) : Json :=
  match x with
  | none => null
  | some x => number x

/-- The string or `null`. -/
def ofText? (s : Option String) : Json :=
  match s with
  | none => null
  | some s => string s

def hexDigit (n : Nat) : Char := Nat.digitChar n

/-- One character of a written string: quotes, backslashes and control characters are escaped. -/
def escapeChar (c : Char) : List Char :=
  match c with
  | '"' => ['\\', '"']
  | '\\' => ['\\', '\\']
  | '\n' => ['\\', 'n']
  | '\r' => ['\\', 'r']
  | '\t' => ['\\', 't']
  | '\x08' => ['\\', 'b']
  | '\x0c' => ['\\', 'f']
  | c =>
    if c.toNat < 0x20 then ['\\', 'u', '0', '0', hexDigit (c.toNat / 16), hexDigit (c.toNat % 16)] else [c]

def stringChars (s : String) : List Char := '"' :: s.toList.flatMap escapeChar ++ ['"']

def numberChars (x : Float) : List Char :=
  if Decimal.isFinite x then Decimal.exchange.chars x else "null".toList

mutual

def compactChars : Json → List Char
  | null => "null".toList
  | natural n => Decimal.naturalDigits n
  | number x => numberChars x
  | string s => stringChars s
  | array items => '[' :: compactItems items ++ [']']
  | object members => '{' :: compactMembers members ++ ['}']

/-- Written items with commas between them. -/
def compactItems : List Json → List Char
  | [] => []
  | [v] => compactChars v
  | v :: vs => compactChars v ++ ',' :: compactItems vs

/-- Written members with commas between them. -/
def compactMembers : List (String × Json) → List Char
  | [] => []
  | [(key, v)] => stringChars key ++ ':' :: compactChars v
  | (key, v) :: vs => stringChars key ++ ':' :: compactChars v ++ ',' :: compactMembers vs

end

def compact (v : Json) : String := String.ofList v.compactChars

def newline (level : Nat) : List Char := '\n' :: List.replicate (2 * level) ' '

mutual

def indentedChars (level : Nat) : Json → List Char
  | null => "null".toList
  | natural n => Decimal.naturalDigits n
  | number x => numberChars x
  | string s => stringChars s
  | array [] => ['[', ']']
  | array items => '[' :: indentedItems (level + 1) items ++ newline level ++ [']']
  | object [] => ['{', '}']
  | object members => '{' :: indentedMembers (level + 1) members ++ newline level ++ ['}']

def indentedItems (level : Nat) : List Json → List Char
  | [] => []
  | [v] => newline level ++ indentedChars level v
  | v :: vs => newline level ++ indentedChars level v ++ ',' :: indentedItems level vs

/-- Members at a level, each on its line. -/
def indentedMembers (level : Nat) : List (String × Json) → List Char
  | [] => []
  | [(key, v)] => newline level ++ stringChars key ++ ':' :: ' ' :: indentedChars level v
  | (key, v) :: vs =>
    newline level ++ stringChars key ++ ':' :: ' ' :: indentedChars level v ++ ',' :: indentedMembers level vs

end

def indented (v : Json) : String := String.ofList (v.indentedChars 0)

end Json

end SeriesFormula
