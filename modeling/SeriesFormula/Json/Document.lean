import SeriesFormula.Json.Token

/-!
# Read documents

A `Document` is what can be read of a text: a value whose parts are in the order of the text, with a mark where the
text stops being a document. A reader that walks it in order meets a wrong value or the mark, whichever comes first,
as it would in the text itself. `Json.read` builds it from the tokens with a stack of the brackets that are open.
-/

namespace SeriesFormula.Json

/-- Why a text is not accepted: its form, its early end, or a value of the wrong shape. -/
inductive Category where
  | syntactic
  | early
  | data
  deriving DecidableEq, Repr

/-- The category of a fault for a reader of the part where it stands. -/
def Fault.category : Fault → Category
  | misplaced => .syntactic
  | early | unfinished => .early

/-- The category of a fault for a reader that passes over the part where it stands. An unfinished number is malformed
then: where its value is not asked for, it is the missing digit that is reported. -/
def Fault.passedCategory : Fault → Category
  | misplaced | unfinished => .syntactic
  | early => .early

/-- How the brackets of a list of members end. -/
inductive Ending where
  /-- With the closing bracket. -/
  | closed
  /-- With a fault behind a member. -/
  | cut (fault : Fault)
  /-- With a fault at or in the name of a member, behind the opening bracket or a comma: as a reader of the name meets
  it, and as one that passes over the name. -/
  | unnamed (fault passed : Fault)
  deriving DecidableEq, Repr

/-- Whether a comma, or the opening bracket, is the last that can be read. -/
def Ending.isUnnamed : Ending → Bool
  | unnamed .. => true
  | _ => false

/-- What can be read of a text. -/
inductive Document where
  /-- The text ends where a value should start. -/
  | nothing
  /-- A part that is no value. -/
  | broken (fault : Fault)
  | null
  | bool (value : Bool)
  | number (literal : Decimal.Literal) (whole : Bool)
  /-- A string, without content if it holds half of a surrogate pair, and perhaps cut. -/
  | string (content : Option (List Char)) (cut : Option Fault)
  /-- Items up to the closing bracket or a fault. -/
  | array (items : List Document) (cut : Option Fault)
  /-- Members up to the closing bracket or a fault. -/
  | object (members : List (Option (List Char) × Document)) (ending : Ending)

/-- A document and whether its text goes on behind it. -/
structure Reading where
  root : Document
  trailing : Bool

/-- A bracket that is open, with what was read inside, latest first, and the name of the next member. -/
inductive Frame where
  | array (items : List Document)
  | object (members : List (Option (List Char) × Document)) (name : Option (List Char))

/-- The values around a faulty one, which ends them all. -/
def Frame.enclose (inner : Document) : Frame → Document
  | array items => .array (inner :: items).reverse none
  | object members name => .object ((name, inner) :: members).reverse .closed

def halt (inner : Document) (stack : List Frame) : Document := stack.foldl Frame.enclose inner

/-- What may come next. -/
inductive State where
  /-- A value, or the end of an array that has just begun. -/
  | value (stack : List Frame) (start : Bool)
  /-- The name of a member, or the end of an object that has just begun. -/
  | name (stack : List Frame) (members : List (Option (List Char) × Document)) (start : Bool)
  /-- The colon behind a name. -/
  | colon (stack : List Frame) (members : List (Option (List Char) × Document)) (name : Option (List Char))
  /-- What follows a value: a comma, a closing bracket, or the end. -/
  | after (done : Document) (stack : List Frame)
  /-- Nothing more. -/
  | halted (reading : Reading)

/-- The state after a fault in some part. -/
def State.fault (inner : Document) (stack : List Frame) : State := halted ⟨halt inner stack, false⟩

def State.next : State → Token → State
  | value stack start, token =>
    match token, stack with
    | .null, _ => after .null stack
    | .bool b, _ => after (.bool b) stack
    | .number literal whole, _ => after (.number literal whole) stack
    | .string content none, _ => after (.string content none) stack
    | .string content cut, _ => fault (.string content cut) stack
    | .openArray, _ => value (.array [] :: stack) true
    | .openObject, _ => name stack [] true
    | .closeArray, .array items :: outer =>
      if start then after (.array items.reverse none) outer else fault (.broken .misplaced) stack
    | .broken reason, _ => fault (.broken reason) stack
    | _, _ => fault (.broken .misplaced) stack
  | name stack members start, token =>
    match token with
    | .string content none => colon stack members content
    | .string content (some reason) =>
      fault (.object members.reverse (.unnamed (if content.isSome then reason else .misplaced) reason)) stack
    | .closeObject =>
      if start then after (.object members.reverse .closed) stack
      else fault (.object members.reverse (.unnamed .misplaced .misplaced)) stack
    | _ => fault (.object members.reverse (.unnamed .misplaced .misplaced)) stack
  | colon stack members key, token =>
    match token with
    | .colon => value (.object members key :: stack) false
    | _ => fault (.object ((key, .broken .misplaced) :: members).reverse .closed) stack
  | after done [], _ => halted ⟨done, true⟩
  | after done (.array items :: outer), token =>
    match token with
    | .comma => value (.array (done :: items) :: outer) false
    | .closeArray => after (.array (done :: items).reverse none) outer
    | _ => fault (.array (done :: items).reverse (some .misplaced)) outer
  | after done (.object members key :: outer), token =>
    match token with
    | .comma => name outer ((key, done) :: members) false
    | .closeObject => after (.object ((key, done) :: members).reverse .closed) outer
    | _ => fault (.object ((key, done) :: members).reverse (.cut .misplaced)) outer
  | halted reading, _ => halted reading

def State.finish : State → Reading
  | value stack _ => ⟨halt .nothing stack, false⟩
  | name stack members _ => ⟨halt (.object members.reverse (.unnamed .early .early)) stack, false⟩
  | colon stack members key => ⟨halt (.object ((key, .nothing) :: members).reverse .closed) stack, false⟩
  | after done [] => ⟨done, false⟩
  | after done (.array items :: outer) => ⟨halt (.array (done :: items).reverse (some .early)) outer, false⟩
  | after done (.object members key :: outer) =>
    ⟨halt (.object ((key, done) :: members).reverse (.cut .early)) outer, false⟩
  | halted reading => reading

def read (cs : List Char) : Reading := ((tokens cs).foldl State.next (.value [] false)).finish

end SeriesFormula.Json
