import Marshal.Fault

/-!
Steps on a state. A step either goes on or stops with a fault; in both cases it says what state
it leaves, so what was done before a fault is never lost.
-/

namespace Marshal

abbrev Step (State : Type) := State → Except Fault Unit × State

namespace Step

variable {State : Type}

def done : Step State := fun state => (.ok (), state)

def fail (fault : Fault) : Step State := fun state => (.error fault, state)

/-- The second step runs only where the first has not stopped. -/
def andThen (first second : Step State) : Step State := fun state =>
  match first state with
  | (.ok (), next) => second next
  | (.error fault, next) => (.error fault, next)

def all (steps : List (Step State)) : Step State := steps.foldr andThen done

def mapFault (change : Fault → Fault) (step : Step State) : Step State := fun state =>
  match step state with
  | (.ok (), next) => (.ok (), next)
  | (.error fault, next) => (.error (change fault), next)

def inField (name : String) (step : Step State) : Step State := step.mapFault (Fault.inField name)

/-- Runs steps one after the other, each fault being located at its step's position. -/
def allFrom (position : Nat) : List (Step State) → Step State
  | [] => done
  | step :: rest => (step.mapFault (Fault.atIndex position)).andThen (allFrom (position + 1) rest)

end Step

end Marshal
