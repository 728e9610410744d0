import EcmaCore.Request

/-!
# User code

A script is a piece of user code as the runtime sees it: it looks at the world,
makes requests, goes on with their answers, changes what the embedding program
keeps in the world, and ends with a result or an error. How it chooses its
requests is not restricted in any way.

A program gives the script of every piece of code for every way of entering
it.
-/

namespace EcmaCore

/-- A piece of user code with a result. -/
inductive Script (σ α : Type) where
  | done (a : α)
  | fail (e : Error)
  | look (next : World σ → Script σ α)
  | tell (f : σ → σ) (next : Script σ α)
  | ask (request : Request) (next : Except Error Answer → Script σ α)

namespace Script

variable {σ α β : Type}

/-- Continues a script with its result. -/
def bind : Script σ α → (α → Script σ β) → Script σ β
  | done a, f => f a
  | fail e, _ => fail e
  | look next, f => look fun w => (next w).bind f
  | tell g next, f => tell g (next.bind f)
  | ask request next, f => ask request fun answer => (next answer).bind f

instance : Monad (Script σ) where
  pure := done
  bind := bind

/-- A script with its error, if it ends with one, as the result. -/
def caught : Script σ α → Script σ (Except Error α)
  | done a => done (.ok a)
  | fail e => done (.error e)
  | look next => look fun w => (next w).caught
  | tell g next => tell g next.caught
  | ask request next => ask request fun answer => (next answer).caught

/-- Makes a request; its error is the error of the script. -/
def request (r : Request) : Script σ Answer :=
  ask r fun
    | .ok answer => done answer
    | .error e => fail e

/-- Reads something off the world. -/
def read (f : World σ → α) : Script σ α := look fun w => done (f w)

/-- Changes what the embedding program keeps in the world. -/
def update (f : σ → σ) : Script σ Unit := tell f (done ())

/-- Runs a script. -/
def run [Embedding σ] (E : Engine σ) : Script σ α → Action σ α
  | done a => pure a
  | fail e => Action.fail e
  | look next => fun w => (next w).run E w
  | tell f next => fun w => next.run E { w with host := f w.host }
  | ask r next => fun w =>
      match r.perform E w with
      | .ok answer w' => (next (.ok answer)).run E w'
      | .error (.thrown e) w' => (next (.error e)).run E w'
      | .error .exhausted w' => .error .exhausted w'

/-- A script goes on with the answer to a request that ends well. -/
theorem run_ask_ok [Embedding σ] {E : Engine σ} {r : Request}
    {next : Except Error Answer → Script σ α} {w w' : World σ} {answer : Answer}
    (h : r.perform E w = .ok answer w') :
    (ask r next).run E w = (next (.ok answer)).run E w' := by
  simp only [run, h]

end Script

/-- How a piece of user code is entered. -/
inductive Entry where
  | call (this : Value) (args : List Value)
  | construct (args : List Value) (newTarget : ObjectId)
  | body (function : ObjectId) (scope : ScopeId) (args : List Value)
  | readExport (name : String) (strict : Bool)
  deriving DecidableEq

/-- The user code of a world: a script for every piece of code and every way of entering it. -/
abbrev Program (σ : Type) : Type := CodeId → Entry → Script σ Value

end EcmaCore
