import SeriesFormula.Json.Document
import SeriesFormula.Series.Error

/-!
# Readers of documents

A `Reader` takes a value of a type out of a document, in the order of the text, so that the first thing wrong in the
text is the one reported. At most 127 brackets may be open at a time. A record is read from an object by the names of
its fields or from an array by their order; members that are no field are passed over. What a tag decides on is kept
until the tag is known and read then: in this second reading brackets need no counting, surplus items are a matter of
shape and a variant may also be named by its number.
-/

namespace SeriesFormula.Json

/-- Why a document is refused. -/
inductive ReadError where
  /-- The text or its shape. -/
  | document (category : Category)
  /-- The values. -/
  | data (error : DataError)
  deriving DecidableEq

def ReadError.category : ReadError → Category
  | document category => category
  | data _ => .data

def wrongShape {β : Type} : Except ReadError β := .error (.document .data)

def faulty {β : Type} (fault : Fault) : Except ReadError β := .error (.document fault.category)

/-- How a document is read: how many brackets may still be opened, and whether it was kept for a tag. -/
structure Mode where
  levels : Nat
  kept : Bool

/-- The brackets that may be open at a time. -/
def maxLevels : Nat := 127

abbrev Reader (β : Type) := Mode → Document → Except ReadError β

def Mode.inside (mode : Mode) : Except ReadError Mode :=
  match mode.levels with
  | 0 => if mode.kept then .ok mode else .error (.document .syntactic)
  | levels + 1 => .ok { mode with levels }

/-! ## Whole documents -/

/-- The error at a value of another kind than is asked for. -/
def Document.mismatch : Document → ReadError
  | .nothing => .document .early
  | .broken fault => .document fault.category
  | .number literal _ => .document (if Decimal.isFinite literal.value then .data else .syntactic)
  | .string none _ => .document .syntactic
  | .string _ (some fault) => .document fault.category
  | _ => .document .data

def passCut : Option Fault → Except ReadError Unit
  | none => .ok ()
  | some fault => faulty fault

def passEnding : Ending → Except ReadError Unit
  | .closed => .ok ()
  | .cut fault | .unnamed fault _ => faulty fault

/-- Passes over the end of members whose names nobody asks for. -/
def skipEnding : Ending → Except ReadError Unit
  | .closed => .ok ()
  | .cut fault | .unnamed _ fault => .error (.document fault.passedCategory)

def memberName (name : Option (List Char)) : Except ReadError String :=
  match name with
  | some cs => .ok (String.ofList cs)
  | none => .error (.document .syntactic)

mutual

/-- Passes over a value that nobody asks for: only its form counts, and not the size of its numbers, the pairs of its
surrogates or the number of its brackets. -/
def Document.skip : Document → Except ReadError Unit
  | .nothing => .error (.document .early)
  | .broken fault => .error (.document fault.passedCategory)
  | .null | .bool _ | .number .. => .ok ()
  | .string _ cut => passCut cut
  | .array items cut => do
    skipItems items
    passCut cut
  | .object members ending => do
    skipMembers members
    skipEnding ending

def skipItems : List Document → Except ReadError Unit
  | [] => .ok ()
  | d :: ds => do
    d.skip
    skipItems ds

def skipMembers : List (Option (List Char) × Document) → Except ReadError Unit
  | [] => .ok ()
  | (_, d) :: ds => do
    d.skip
    skipMembers ds

end

mutual

/-- Checks a value that is kept for later. -/
def Document.check (mode : Mode) : Document → Except ReadError Unit
  | .nothing => .error (.document .early)
  | .broken fault => faulty fault
  | .null | .bool _ => .ok ()
  | .number literal whole =>
    if Decimal.isFinite literal.value then .ok () else .error (Document.number literal whole).mismatch
  | .string content cut =>
    match content, cut with
    | some _, none => .ok ()
    | _, _ => .error (Document.string content cut).mismatch
  | .array items cut => do
    let inner ← mode.inside
    checkItems inner items
    passCut cut
  | .object members ending => do
    let inner ← mode.inside
    checkMembers inner members
    passEnding ending

def checkItems (mode : Mode) : List Document → Except ReadError Unit
  | [] => .ok ()
  | d :: ds => do
    d.check mode
    checkItems mode ds

def checkMembers (mode : Mode) : List (Option (List Char) × Document) → Except ReadError Unit
  | [] => .ok ()
  | (name, d) :: ds => do
    discard (memberName name)
    d.check mode
    checkMembers mode ds

end

/-- The value that a text holds, and nothing behind it. -/
def Reader.run {β : Type} (reader : Reader β) (text : String) : Except ReadError β := do
  let reading := read text.toList
  let value ← reader ⟨maxLevels, false⟩ reading.root
  if reading.trailing then throw (.document .syntactic)
  return value

namespace Reader

variable {β γ : Type}

/-! ## Plain values -/

def text : Reader String := fun _ document =>
  match document with
  | .string (some cs) none => .ok (String.ofList cs)
  | document => .error document.mismatch

/-- A finite number. It is assumed that numerals are read with correct rounding: the value is the float nearest to the
decimal that the text spells. A reader that computes with rounded powers of ten may give another float near it for a
numeral of many digits or with a large exponent. -/
def number : Reader Float := fun _ document =>
  match document with
  | .number literal _ => if Decimal.isFinite literal.value then .ok literal.value else .error document.mismatch
  | document => .error document.mismatch

/-- The largest natural number that is read. -/
def maxNatural : Nat := Nat.pow 2 64 - 1

/-- A natural number, written without fraction, exponent and minus. -/
def natural : Reader Nat := fun _ document =>
  match document with
  | .number literal whole =>
    if whole && !literal.negative && literal.coefficient ≤ maxNatural then .ok literal.coefficient
    else .error document.mismatch
  | document => .error document.mismatch

/-- A value or `null`. -/
def optional (reader : Reader β) : Reader (Option β) := fun mode document =>
  match document with
  | .null => .ok none
  | document => some <$> reader mode document

def check (reader : Reader β) (f : β → Except ReadError γ) : Reader γ := fun mode document =>
  reader mode document >>= f

/-! ## Arrays and objects -/

def list (reader : Reader β) : Reader (List β) := fun mode document =>
  match document with
  | .array items cut => do
    let inner ← mode.inside
    let values ← items.mapM (reader inner)
    passCut cut
    return values
  | document => .error document.mismatch

/-- The end of an array of fixed length, of which items may be left. -/
def passSurplus (mode : Mode) (items : List Document) (cut : Option Fault) : Except ReadError Unit :=
  if items.isEmpty then passCut cut
  else .error (.document (if mode.kept then .data else .syntactic))

def nextItem (cut : Option Fault) : List Document → Except ReadError (Document × List Document)
  | item :: items => .ok (item, items)
  | [] => do
    passCut cut
    wrongShape

def pair (first : Reader β) (second : Reader γ) : Reader (β × γ) := fun mode document =>
  match document with
  | .array items cut => do
    let inner ← mode.inside
    let (item, items) ← nextItem cut items
    let a ← first inner item
    let (item, items) ← nextItem cut items
    let b ← second inner item
    passSurplus mode items cut
    return (a, b)
  | document => .error document.mismatch

def members (reader : Reader β) : Reader (List (String × β)) := fun mode document =>
  match document with
  | .object members ending => do
    let inner ← mode.inside
    let values ← members.mapM fun (name, d) => do
      let name ← memberName name
      return (name, ← reader inner d)
    passEnding ending
    return values
  | document => .error document.mismatch

/-! ## Records -/

/-- How a field is read into a draft of a record. -/
structure Field (σ : Type) where
  name : String
  /-- An array may end before this field. -/
  mayEnd : Bool
  read : Mode → σ → Document → Except ReadError σ

/-- A field that is kept in a slot of the draft and may be read only once. -/
def Field.slot {σ : Type} (name : String) (get : σ → Option β) (set : σ → β → σ) (reader : Reader β)
    (mayEnd : Bool) : Field σ where
  name := name
  mayEnd := mayEnd
  read mode draft document := if (get draft).isSome then wrongShape else set draft <$> reader mode document

def readMember {σ : Type} (fields : List (Field σ)) (mode : Mode) (draft : σ)
    (member : Option (List Char) × Document) : Except ReadError σ := do
  let name ← memberName member.1
  match fields.find? (·.name == name) with
  | some field => field.read mode draft member.2
  | none =>
    unless mode.kept do member.2.skip
    return draft

def readItems {σ : Type} (mode : Mode) (cut : Option Fault) :
    List (Field σ) → σ → List Document → Except ReadError σ
  | [], draft, items => do
    passSurplus mode items cut
    return draft
  | field :: fields, draft, item :: items => do
    let draft ← field.read mode draft item
    readItems mode cut fields draft items
  | field :: fields, draft, [] => do
    passCut cut
    if field.mayEnd then readItems mode cut fields draft [] else wrongShape

def record {σ : Type} (fields : List (Field σ)) (start : σ) : Reader σ := fun mode document =>
  match document with
  | .object members ending => do
    let inner ← mode.inside
    let draft ← members.foldlM (readMember fields inner) start
    passEnding ending
    return draft
  | .array items cut => do
    let inner ← mode.inside
    readItems inner cut fields start items
  | document => .error document.mismatch

/-- The value of a field that a record must have. -/
def required (value : Option β) : Except ReadError β :=
  match value with
  | some value => .ok value
  | none => wrongShape

/-- A record of one field, read as the value of that field. -/
def single (name : String) (reader : Reader β) : Reader β :=
  (record [.slot name id (fun _ value => some value) reader false] none).check required

/-! ## Variants -/

def variantOf (variants : List (String × β)) (name : String) : Except ReadError β :=
  match variants.lookup name with
  | some variant => .ok variant
  | none => wrongShape

/-- A variant by its name; in a kept document also by its number. -/
def tag (variants : List (String × β)) : Reader β := fun mode document =>
  match document with
  | .number literal whole => do
    unless mode.kept && whole && !literal.negative do throw document.mismatch
    required (variants[literal.coefficient]?.map (·.2))
  | document => text mode document >>= variantOf variants

/-- A variant: its value where the name stands alone, and the reader of its value in an object. -/
structure Variant (β : Type) where
  alone : Option β
  reader : Reader β

/-- A variant that is no more than its name. -/
def Variant.plain (value : β) : Variant β where
  alone := some value
  reader _ document :=
    match document with
    | .null => .ok value
    | document => .error document.mismatch

def Variant.holding (reader : Reader β) : Variant β := ⟨none, reader⟩

/-- A variant: its name, or an object of a single member, whose name it is. A comma behind the member is refused,
whatever follows. -/
def variant (variants : List (String × Variant β)) : Reader β := fun mode document =>
  match document with
  | .string .. => do
    let name ← text mode document
    required (← variantOf variants name).alone
  | .object members ending => do
    let inner ← mode.inside
    match members with
    | [] => do
      passEnding ending
      throw (.document .syntactic)
    | (name, d) :: more => do
      let name ← memberName name
      let variant ← variantOf variants name
      let value ← variant.reader inner d
      unless more.isEmpty && !ending.isUnnamed do throw (.document .syntactic)
      passEnding ending
      return value
  | .nothing => .error (.document .early)
  | _ => .error (.document .syntactic)

/-- The tag of a tagged record and what else it holds, which is kept until the tag is known. -/
def tagged (key : String) (variants : List (String × β)) : Reader (β × Document) := fun mode document =>
  match document with
  | .object members ending => do
    let inner ← mode.inside
    let (found, rest) ← members.foldlM (fun (found, rest) (name, d) => do
      let name ← memberName name
      if name = key then
        if Option.isSome found then wrongShape
        else return (some (← tag variants inner d), rest)
      else
        unless mode.kept do d.check inner
        return (found, (some name.toList, d) :: rest)) (none, [])
    passEnding ending
    return (← required found, .object rest.reverse .closed)
  | .array items cut => do
    let inner ← mode.inside
    let (item, items) ← nextItem cut items
    let variant ← tag variants inner item
    unless mode.kept do checkItems inner items
    passCut cut
    return (variant, .array items none)
  | document => .error document.mismatch

end Reader

end SeriesFormula.Json
