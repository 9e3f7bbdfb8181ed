import Reckoner.Evaluate

/-!
# Ready-made host functions

A small stock of functions that a host can bind to names: some only compute, some refuse their
arguments, some keep a log, and some read or write the scope they belong to or evaluate a formula of
their own in it. An evaluation that one of them starts reports nothing.
-/

namespace Reckoner.Stock

/-- What a function of the stock does with its arguments. -/
inductive Action
  /-- Adds up the arguments, each times its place, counted from one. -/
  | weigh
  /-- Counts the arguments. -/
  | count
  /-- Writes the arguments into the log and gives back the first. -/
  | tick
  /-- Gives back the last argument, but only if there are as many as announced. -/
  | strict (arity : Nat)
  /-- Fails. -/
  | fail (message : String)
  /-- Binds a name in the owning scope to the first argument, and gives it back. -/
  | set (name : String)
  /-- Adds the number under a name, looked up from the owning scope, to the first argument. -/
  | get (name : String)
  /-- Evaluates a text in a new scope below the owning one, where the name it stands for the first
  argument. -/
  | run (source : String)
deriving DecidableEq, Repr

/-- An action together with the scope it belongs to. -/
structure Code where
  action : Action
  owner : ScopeId
deriving DecidableEq, Repr

/-- The argument lists of the calls that were logged, in their order. -/
abbrev Log := List (List Float)

abbrev StockWorld := World Code Log

def weighted (args : List Float) : Float :=
  args.zipIdx.foldl (fun total (x, i) => total + (i + 1).toFloat * x) 0

/-- Performs an action; `reenter` evaluates a text in a scope. -/
def perform (reenter : ScopeId → String → StockWorld → Except Failure Float × StockWorld)
    (code : Code) (args : List Float) (w : StockWorld) : Except Failure Float × StockWorld :=
  let first := args.headD 0
  match code.action with
  | .weigh => (.ok (weighted args), w)
  | .count => (.ok args.length.toFloat, w)
  | .tick => (.ok first, { w with notes := w.notes ++ [args] })
  | .strict arity =>
      if args.length = arity then (.ok (args.getLastD 0), w)
      else
        (.error (.host ("expected " ++ toString arity ++ " arguments, got " ++
          toString args.length)), w)
  | .fail message => (.error (.host message), w)
  | .set name => (.ok first, { w with scopes := w.scopes.define code.owner name (.number first) })
  | .get name =>
      match w.scopes.lookup? (some code.owner) name with
      | none => (.error (.unknownIdentifier name), w)
      | some (.function _) => (.error (.host "not a number"), w)
      | some (.number x) => (.ok (first + x), w)
  | .run source =>
      let (id, scopes) := w.scopes.create .empty (some code.owner)
      reenter id source { w with scopes := scopes.define id "it" (.number first) }

/-- The stock as a host whose evaluations may nest to a given depth. -/
def host : (depth : Nat) → Host Code Log
  | 0 => ⟨perform fun _ _ w => (.error (.host "evaluations are nested too deeply"), w)⟩
  | depth + 1 =>
      ⟨perform fun id source w =>
        let o := (evaluateText (host depth) false (.ofScope (some id)) source).outcome w
        (o.result, o.world)⟩

/-- More than functions that do not call themselves ever need. -/
def ampleDepth : Nat := 1000

end Reckoner.Stock
