import Mathlib.Data.List.TakeWhile
import SeriesFormula.Proofs.Formula.Trace

/-!
# Trees of calls

What is left of an expression without its identifiers and numbers are the trees of its calls (`Expr.callTrees`). A
ledger lists calls without their nesting, each behind those in its arguments, but with their depths. That is enough:
going over such a list with a stack of the trees that no call has taken as its arguments yet (`CallTree.stack`) gives the
trees back (`CallTree.stack_callsAt`), since a call takes just those that are deeper than it is. So expressions with the
same list have the same trees (`Expr.callTrees_eq_of_calls`).
-/

namespace SeriesFormula

/-- A call with the calls in its arguments, from left to right. -/
inductive CallTree where
  | node (function : String) (args : List CallTree)

variable {α : Type}

namespace Expr

mutual

/-- The calls of an expression that are in no other call; arguments that are no calls do not matter. -/
def callTrees : Expr α → List CallTree
  | call name args => [.node name (callTreesOfList args)]
  | identifier _ => []
  | literal _ => []

def callTreesOfList : List (Expr α) → List CallTree
  | [] => []
  | e :: es => e.callTrees ++ callTreesOfList es

end

end Expr

namespace CallTree

/-- The trees on the stack, each with the depth of its call, behind one more call. -/
def push (stack : List (Nat × CallTree)) (site : CallSite) : List (Nat × CallTree) :=
  let deeper : Nat × CallTree → Bool := fun entry => site.depth < entry.1
  (site.depth, node site.function ((stack.takeWhile deeper).map Prod.snd).reverse) :: stack.dropWhile deeper

/-- The trees on the stack behind a list of calls, the last one on top. -/
def stack (below : List (Nat × CallTree)) (sites : List CallSite) : List (Nat × CallTree) := sites.foldl push below

theorem stack_append (below : List (Nat × CallTree)) (sites more : List CallSite) :
    stack below (sites ++ more) = stack (stack below sites) more := List.foldl_append

/-- The trees of calls at a depth, the last one on top of what stands below. -/
def onto (depth : Nat) (trees : List CallTree) (below : List (Nat × CallTree)) : List (Nat × CallTree) :=
  (trees.map (depth, ·)).reverse ++ below

theorem onto_append (depth : Nat) (trees more : List CallTree) (below : List (Nat × CallTree)) :
    onto depth (trees ++ more) below = onto depth more (onto depth trees below) := by
  simp only [onto, List.map_append, List.reverse_append, List.append_assoc]

/-- A call takes the trees of its arguments from the stack, and no others. -/
theorem push_onto {depth arity : Nat} {name : String} {args : List CallTree} {below : List (Nat × CallTree)}
    (h : ∀ entry ∈ below, entry.1 ≤ depth) :
    push (onto (depth + 1) args below) ⟨depth, name, arity⟩ = onto depth [node name args] below := by
  have hargs : ∀ entry ∈ (args.map (depth + 1, ·)).reverse, decide (depth < entry.1) = true := by
    intro entry hentry
    obtain ⟨tree, -, rfl⟩ := List.mem_map.1 (List.mem_reverse.1 hentry)
    exact decide_eq_true (Nat.lt_succ_self depth)
  have hbelow : ∀ entry ∈ below, ¬decide (depth < entry.1) = true := fun entry hentry => by
    simpa using h entry hentry
  unfold push onto
  dsimp only
  rw [List.takeWhile_append_of_pos hargs, List.dropWhile_append_of_pos hargs,
    List.takeWhile_eq_nil_iff.2 fun hpos => hbelow _ (List.get_mem _ _),
    List.dropWhile_eq_self_iff.2 fun hpos => hbelow _ (List.getElem_mem hpos), List.append_nil, List.map_reverse,
    List.reverse_reverse, List.map_map]
  have hsnd : args.map (Prod.snd ∘ fun tree => (depth + 1, tree)) = args := List.map_id args
  rw [hsnd]
  rfl

theorem le_of_mem_onto {depth : Nat} {trees : List CallTree} {below : List (Nat × CallTree)}
    (h : ∀ entry ∈ below, entry.1 ≤ depth) : ∀ entry ∈ onto depth trees below, entry.1 ≤ depth := by
  intro entry hentry
  rcases List.mem_append.1 hentry with hentry | hentry
  · obtain ⟨tree, -, rfl⟩ := List.mem_map.1 (List.mem_reverse.1 hentry)
    exact Nat.le_refl depth
  · exact h entry hentry

open SeriesFormula.Expr in
mutual

/-- **The calls of an expression put its trees on the stack**, if nothing there is deeper. -/
theorem stack_callsAt : ∀ {depth : Nat} (e : Expr α) {below : List (Nat × CallTree)},
    (∀ entry ∈ below, entry.1 ≤ depth + 1) → stack below (e.callsAt depth) = onto (depth + 1) e.callTrees below
  | depth, .call name args, below, h => by
    rw [callsAt, callTrees, stack_append, stack_callsOfList args fun entry hentry => Nat.le_succ_of_le (h entry hentry)]
    exact push_onto h
  | _, .identifier _, _, _ => by
    rw [callsAt, callTrees]
    rfl
  | _, .literal _, _, _ => by
    rw [callsAt, callTrees]
    rfl

theorem stack_callsOfList : ∀ {depth : Nat} (es : List (Expr α)) {below : List (Nat × CallTree)},
    (∀ entry ∈ below, entry.1 ≤ depth + 1) →
    stack below (callsOfList depth es) = onto (depth + 1) (callTreesOfList es) below
  | _, [], _, _ => by
    rw [callsOfList, callTreesOfList]
    rfl
  | depth, e :: es, below, h => by
    rw [callsOfList, callTreesOfList, stack_append, stack_callsAt e h, stack_callsOfList es (le_of_mem_onto h),
      onto_append]

end

end CallTree

/-- **Expressions with the same calls in the same order have the same trees of calls.** -/
theorem Expr.callTrees_eq_of_calls {β : Type} {e : Expr α} {f : Expr β} (h : e.calls = f.calls) :
    e.callTrees = f.callTrees := by
  have hstack : CallTree.onto 1 e.callTrees [] = CallTree.onto 1 f.callTrees [] := by
    rw [← CallTree.stack_callsAt e (List.forall_mem_nil _), ← CallTree.stack_callsAt f (List.forall_mem_nil _)]
    exact congrArg (CallTree.stack []) h
  simp only [CallTree.onto, List.append_nil, List.reverse_inj] at hstack
  exact List.map_injective_iff.2 (fun _ _ hpair => congrArg Prod.snd hpair) hstack

end SeriesFormula
