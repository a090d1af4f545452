/-!
# Outcomes of a node
-/

namespace Delve

/-- What the evaluation of a node comes to. -/
inductive Status where
  /-- The condition holds, or the action was done. -/
  | success
  /-- The action goes on for more turns. -/
  | running
  /-- The condition does not hold, or the action could not be done. -/
  | failure
  /-- There is nothing to tell. Every control node hands this on. -/
  | undefined
deriving DecidableEq, Repr, Inhabited

namespace Status

def ofBool (b : Bool) : Status := if b then success else failure

def all : List Status := [success, running, failure, undefined]

def name : Status → String
  | success => "Success"
  | running => "Running"
  | failure => "Failure"
  | undefined => "Undefined"

def ofName? (s : String) : Option Status := all.find? (·.name == s)

end Status

end Delve
