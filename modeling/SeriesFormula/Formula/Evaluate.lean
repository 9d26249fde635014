import SeriesFormula.Formula.Context
import SeriesFormula.Formula.Ledger
import SeriesFormula.Formula.Parser
import SeriesFormula.Formula.Registry

/-!
# Evaluation

`Expr.evaluate` gives the value of an expression and the records of its calls. The depth of a call is checked on the
way down, its arguments are evaluated from left to right up to the first failure, and only then its function is looked
up, so that a failing argument is reported before an unknown function. A call is recorded once its function is known.
-/

namespace SeriesFormula

/-- What expressions are evaluated in. -/
structure Environment (α : Type) where
  store : Store α
  registry : Registry α
  policy : Policy

/-- A result and the records of the calls that ended on the way to it. -/
structure Evaluation (α β : Type) where
  result : Except (FormulaError α) β
  records : List (CallRecord α)

variable {α : Type}

/-- The call of a function by name with evaluated arguments, behind the records of those. -/
def Environment.apply [Number α] (env : Environment α) (depth : Nat) (name : String)
    (args : Evaluation α (List (Value α))) : Evaluation α (Value α) :=
  match args.result with
  | .error error => ⟨.error error, args.records⟩
  | .ok values =>
    match env.registry.get? name with
    | none => ⟨.error (.unknownFunction name), args.records⟩
    | some spec =>
      let result := spec.call values
      ⟨result, args.records ++ [⟨depth, name, values.map Value.kind, .ofResult result⟩]⟩

namespace Expr

mutual

/-- The value of an expression inside of `depth` calls. -/
def evaluateAt [Number α] (env : Environment α) (depth : Nat) : Expr α → Evaluation α (Value α)
  | literal value => ⟨.ok (.scalar value), []⟩
  | identifier name =>
    match env.store (Text.lower name) with
    | some s => ⟨.ok (.series s), []⟩
    | none => ⟨.error (.unknownIdentifier name), []⟩
  | call name args =>
    match env.policy.admitDepth (depth + 1) with
    | .error excess => ⟨.error (.limit excess), []⟩
    | .ok () => env.apply (depth + 1) name (evaluateArguments env (depth + 1) args)

/-- The values of arguments, up to the first that fails. -/
def evaluateArguments [Number α] (env : Environment α) (depth : Nat) : List (Expr α) → Evaluation α (List (Value α))
  | [] => ⟨.ok [], []⟩
  | e :: es =>
    let first := evaluateAt env depth e
    match first.result with
    | .error error => ⟨.error error, first.records⟩
    | .ok value =>
      let rest := evaluateArguments env depth es
      ⟨rest.result.map (value :: ·), first.records ++ rest.records⟩

end

def evaluate [Number α] (env : Environment α) (e : Expr α) : Evaluation α (Value α) := e.evaluateAt env 0

end Expr

/-- A table of functions and limits: what formulas are read and evaluated with. -/
structure Engine where
  registry : Registry Float
  policy : Policy

namespace Engine

/-- The built-in functions with the standard limits. -/
def standard : Engine := ⟨.builtin, .standard⟩

def parse (engine : Engine) (formula : String) : Except (FormulaError Float) (Expr Float) :=
  Formula.parse engine.policy formula

/-- The value of a formula and the records of its calls. A text that is refused has no records. -/
def run (engine : Engine) (formula : String) (store : Store Float) : Evaluation Float (Value Float) :=
  match engine.parse formula with
  | .error error => ⟨.error error, []⟩
  | .ok e => e.evaluate ⟨store, engine.registry, engine.policy⟩

def evaluate (engine : Engine) (formula : String) (store : Store Float) : Except (FormulaError Float) (Value Float) :=
  (engine.run formula store).result

end Engine

/-- The value of a formula with the built-in functions and the standard limits. -/
def evaluateFormula (formula : String) (store : Store Float) : Except (FormulaError Float) (Value Float) :=
  Engine.standard.evaluate formula store

end SeriesFormula
