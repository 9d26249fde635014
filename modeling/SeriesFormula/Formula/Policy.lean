import SeriesFormula.Text.Blank

/-!
# Limits

A `Policy` bounds the length of a formula's text and the nesting of its calls.
-/

namespace SeriesFormula

/-- A limit that a formula exceeds. -/
inductive LimitExceeded where
  | depth (limit : Nat)
  | length (bytes limit : Nat)
  deriving DecidableEq

/-- The limits of formulas: the nesting of calls and the number of bytes. -/
structure Policy where
  maxDepth : Nat
  maxLength : Nat
  deriving DecidableEq

namespace Policy

def standard : Policy := ⟨64, 4096⟩

def admitFormula (policy : Policy) (formula : String) : Except LimitExceeded Unit :=
  if policy.maxLength < formula.utf8ByteSize then .error (.length formula.utf8ByteSize policy.maxLength) else .ok ()

/-- Refuses a call that is nested too deep; the outermost has depth one. -/
def admitDepth (policy : Policy) (depth : Nat) : Except LimitExceeded Unit :=
  if policy.maxDepth < depth then .error (.depth policy.maxDepth) else .ok ()

end Policy

namespace LimitExceeded

def kind : LimitExceeded → String
  | depth _ => "max_depth_exceeded"
  | length .. => "formula_too_long"

def message : LimitExceeded → String
  | depth limit => s!"formula nesting exceeds the maximum depth of {limit}"
  | length bytes limit => s!"formula is {bytes} bytes long; the limit is {limit}"

end LimitExceeded

end SeriesFormula
