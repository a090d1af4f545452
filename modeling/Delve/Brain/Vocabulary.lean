import Delve.Brain.Basic
import Delve.Brain.Error
import Delve.Text.Integer
/-!
# The words of brain scripts

Scripts name the leaves of a brain and give them parameters as texts. This module is all that a
script can say. Parameters beyond those that a leaf reads are ignored.
-/

namespace Delve.Vocabulary

def parameter {α : Type} (leaf : String) (read? : String → Option α) (value : String) :
    Except BrainError α :=
  match read? value with
  | some a => .ok a
  | none => .error (.invalidParameter leaf value)

def number? (value : String) : Option UInt32 := (Text.readUInt32 value.toList).toOption

/-- Reads the first parameter, or takes a default where there is none. -/
def optional {α : Type} (leaf : String) (read? : String → Option α) (default : α) :
    List String → Except BrainError α
  | [] => .ok default
  | value :: _ => parameter leaf read? value

/-- Reads the first parameter, which has to be there. A missing one is reported as empty. -/
def required {α : Type} (leaf : String) (read? : String → Option α) :
    List String → Except BrainError α
  | [] => .error (.invalidParameter leaf "")
  | value :: _ => parameter leaf read? value

/-- The task of a name: `drink_potion` takes what to drink, `HP`, `MP` or `ANY`, and `pick_items`
the kinds of item to pick up. -/
def task (name : String) (params : List String) : Except BrainError Task :=
  match name with
  | "idle" => .ok .idle
  | "move_rnd" => .ok .wander
  | "move_away" => .ok .retreat
  | "chase_player" => .ok (.chase {})
  | "attack" | "attack_basic" => .ok (.attack none)
  | "save_player_pos" => .ok .remember
  | "goto_last_player_pos" => .ok (.goTo .lastTarget)
  | "goto_last_mined_pos" => .ok (.goTo .lastMined)
  | "drink_potion" => return .drink (← optional name Thirst.ofWord? .any params)
  | "pick_items" => return .pickUp (← params.mapM (parameter name ItemKind.ofWord?))
  | "mine_block" => .ok .mineBlock
  | "mine_tunnel" => .ok .mineTunnel
  | _ => .error (.unknownTask name)

/-- The sense of a name: `player_in_range` takes a range and `hp_low` a percentage, for both of
which the rules have a default, `d100` a chance in hundredths and `remembers` a topic. -/
def sense (name : String) (params : List String) (rules : Rules) : Except BrainError Sense :=
  match name with
  | "player_in_range" => return .playerInRange (← optional name number? rules.aggroRange params)
  | "player_visible" => .ok .playerVisible
  | "hp_low" => return .hpLow (← optional name number? rules.hpLowPercent params)
  | "d100" => return .chance (← required name number? params)
  | "remembers" => return .remembers (← required name Topic.ofName? params)
  | _ => .error (.unknownCondition name)

end Delve.Vocabulary
