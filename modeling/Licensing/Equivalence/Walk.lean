import Licensing.Expression.Build

/-! # Walking to the ends of a relation

Starting from some expressions, a walk follows a successor function breadth first until only
expressions without successors are left. It visits no expression twice.

* `Reaches` — an expression can be reached in one or more steps.
* `walk` — the walk itself.
-/

namespace Licensing

/-- What a walk has found. -/
structure Walk (Fault : Type) where
  /-- The expressions whose successors were asked for, in that order. -/
  visited : List Expression
  /-- The visited expressions without successors, in the order of the walk. -/
  terminals : List Expression
  /-- Why the walk stopped before its end, if it did. -/
  fault : Option Fault

def Walk.visit {Fault : Type} (e : Expression) (terminal : Bool) (walk : Walk Fault) :
    Walk Fault :=
  { walk with
    visited := e :: walk.visited
    terminals := if terminal then e :: walk.terminals else walk.terminals }

/-- `Reaches next a b`: `b` is a successor of `a`, or of something that `a` reaches. -/
inductive Reaches {Fault : Type} (next : Expression → Except Fault (List Expression))
    (a : Expression) : Expression → Prop where
  | step {b : Expression} {bs : List Expression} (found : next a = .ok bs) (mem : b ∈ bs) :
      Reaches next a b
  | tail {b c : Expression} {cs : List Expression} (first : Reaches next a b)
      (found : next b = .ok cs) (mem : c ∈ cs) : Reaches next a c

/-- Walks from the expressions in `queue`. All expressions that are or were queued are `seen`; a walk
that would visit more than `fuel` expressions stops with the fault `unending`. -/
def walk {Fault : Type} (next : Expression → Except Fault (List Expression)) (unending : Fault) :
    (fuel : Nat) → (queue seen : List Expression) → Walk Fault
  | _, [], _ => ⟨[], [], none⟩
  | 0, _ :: _, _ => ⟨[], [], some unending⟩
  | fuel + 1, e :: queue, seen =>
    match next e with
    | .error fault => ⟨[e], [], some fault⟩
    | .ok successors =>
      let new := successors.filter (!seen.contains ·)
      (walk next unending fuel (queue ++ new) (seen ++ new)).visit e successors.isEmpty

end Licensing
