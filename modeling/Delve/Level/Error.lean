import Delve.Brain.Error
import Delve.World.Error
/-!
# Why a level cannot be loaded
-/

namespace Delve

inductive Document where
  | rules
  | map
  | scenario
deriving DecidableEq, Repr

/-- A kind of document and its format, as messages show them. -/
def Document.title : Document → String
  | rules => "config TOML"
  | map => "map RON"
  | scenario => "scenario RON"

inductive LoadError where
  | unreadable (path reason : String)
  /-- A text does not have the form of its kind, or says something of the wrong type. -/
  | malformed (document : Document)
  | layout (cause : WorldError)
  | mapFile (path : String) (cause : LoadError)
  /-- Somebody is to carry more than there are slots. -/
  | overloaded (name : String)
  | misplacedPlayer (name : String) (cause : WorldError)
  | misplacedMonster (name : String) (cause : WorldError)
  | misplacedItem (cause : WorldError)
  | mindless (monster : ActorId) (cause : BrainError)
deriving DecidableEq, Repr

def LoadError.message : LoadError → String
  | unreadable path reason => "Failed to read file " ++ path ++ ": " ++ reason
  | malformed document => "Failed to parse " ++ document.title
  | layout cause => cause.message
  | mapFile path cause => "Failed to load map " ++ path ++ ": " ++ cause.message
  | overloaded name => "Inventory of '" ++ name ++ "' cannot hold all listed items"
  | misplacedPlayer name cause => "Failed to place player '" ++ name ++ "': " ++ cause.message
  | misplacedMonster name cause => "Failed to place monster '" ++ name ++ "': " ++ cause.message
  | misplacedItem cause => "Failed to place item: " ++ cause.message
  | mindless monster cause =>
    "Failed to attach AI to monster " ++ monster.text ++ ": " ++ cause.message

end Delve
