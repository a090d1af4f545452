import Delve.Actor
/-!
# Mistakes in putting brains together
-/

namespace Delve

inductive BrainError where
  | unknownActor (id : ActorId)
  | unknownTask (name : String)
  | unknownCondition (name : String)
  | missingWorld
  | unknownTemper (name : String)
  | invalidParameter (leaf value : String)
deriving DecidableEq, Repr

namespace BrainError

def name : BrainError → String
  | unknownActor _ => "UnknownActor"
  | unknownTask _ => "UnknownTask"
  | unknownCondition _ => "UnknownCondition"
  | missingWorld => "MissingWorld"
  | unknownTemper _ => "UnknownAiKind"
  | invalidParameter _ _ => "InvalidParameter"

def message : BrainError → String
  | unknownActor id => "actor " ++ id.text ++ " does not exist"
  | unknownTask name => "unknown task '" ++ name ++ "'"
  | unknownCondition name => "unknown condition '" ++ name ++ "'"
  | missingWorld => "runtime needs a world to drive"
  | unknownTemper name => "unknown AI kind '" ++ name ++ "'"
  | invalidParameter leaf value => "invalid parameter '" ++ value ++ "' for '" ++ leaf ++ "'"

end BrainError

end Delve
