import Delve.Brain.Basic
/-!
# Ready-made brains

The tempers that a monster can have, each with its brain. Every temper but the guard's falls back
on wandering and, where there is no room for that, on waiting.
-/

namespace Delve

open Node

inductive Temper where
  /-- Attacks what is adjacent, chases what it sees, and wanders otherwise. -/
  | basic
  /-- Like `basic`, but goes to where the player was last seen. -/
  | smart
  /-- Keeps its distance, drinks when hurt, and fights when cornered. -/
  | coward
  /-- Digs tunnels and collects loot until the player shows up. -/
  | miner
  /-- Stands watch, and now and then steps to where the player was. -/
  | guard
deriving DecidableEq, Repr, Inhabited

namespace Temper

def all : List Temper := [basic, smart, coward, miner, guard]

def name : Temper → String
  | basic => "basic"
  | smart => "smart"
  | coward => "coward"
  | miner => "miner"
  | guard => "guard"

def ofName? (s : String) : Option Temper := all.find? (·.name == s.toLower)

/-- How many turns a guard watches before it goes to look. -/
def watchTurns : UInt32 := 3

/-- The chance in hundredths that an idle miner digs. -/
def digChance : UInt32 := 50

/-! ## Building blocks -/

def whenAdjacent (child : BrainNode) : BrainNode := gate (.playerInRange 1) child

def whenVisible (child : BrainNode) : BrainNode := gate .playerVisible child

def whenNear (rules : Rules) (child : BrainNode) : BrainNode :=
  gate (.playerInRange rules.aggroRange) child

def whenHurt (rules : Rules) (child : BrainNode) : BrainNode :=
  gate (.hpLow rules.hpLowPercent) child

def engage : BrainNode := sel [whenAdjacent (leaf (.attack none)), leaf (.chase {})]

/-- Note where the player is and engage; out of sight, go to where it was. -/
def hunt : BrainNode :=
  sel [whenVisible (seq [leaf .remember, engage]), leaf (.goTo .lastTarget)]

def pastime : List BrainNode := [leaf .wander, leaf .idle]

def drinkHealing : BrainNode := leaf (.drink .hp)

/-! ## The brains -/

def body (rules : Rules) : Temper → BrainNode
  | basic => sel (whenNear rules (whenVisible engage) :: pastime)
  | smart => sel (whenNear rules hunt :: pastime)
  | coward =>
    let cornered := sel [whenHurt rules drinkHealing, leaf (.attack none)]
    let react :=
      sel [whenAdjacent cornered, whenHurt rules (sel [drinkHealing, leaf .retreat]), leaf .retreat]
    sel (whenNear rules (whenVisible react) :: whenHurt rules drinkHealing :: pastime)
  | miner =>
    sel (whenNear rules hunt :: gate (.chance digChance) (leaf .mineTunnel) ::
      leaf (.goTo .lastMined) :: leaf (.pickUp []) :: pastime)
  | guard =>
    let watch := seq [repeated (.times watchTurns) (leaf .remember), leaf (.goTo .lastTarget), fail]
    sel [whenAdjacent (leaf (.attack none)), whenNear rules (whenVisible (leaf (.chase {}))), watch]

def brain (temper : Temper) (rules : Rules) : Brain := .of (temper.body rules)

end Temper

/-- The brain that only wanders, which stands in for the player's hand. -/
def Brain.wanderer : Brain := .of (sel Temper.pastime)

end Delve
