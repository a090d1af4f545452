import Delve.Level.Scenario
import Delve.Ron.Reader
import Delve.Rules
import Delve.Toml.Reader
import Delve.World.Layout
/-!
# Level files

What the files of a level say. The rules are settings; the map and the scenario are records in
object notation.
-/

namespace Delve

open Ron (need? get? Dialect Shape)

/-! ## Rules -/

/-- The rules that a table of settings gives. What it does not name keeps its usual value. -/
def Rules.ofSettings? (entries : Toml.Entries) : Option Rules := do
  let d : Rules := {}
  let number key usual := entries.get? key usual Toml.Value.uint32?
  return {
    turnReady := ← number "turn_ready_value" d.turnReady
    turnTick := ← number "turn_tick_value" d.turnTick
    minHitChance := ← number "min_hit_chance" d.minHitChance
    maxHitChance := ← number "max_hit_chance" d.maxHitChance
    baseHitChance := ← number "base_hit_chance" d.baseHitChance
    hitChancePerSkill := ← number "hit_chance_per_skill" d.hitChancePerSkill
    aggroRange := ← number "aggro_range" d.aggroRange
    hpLowPercent := ← number "hp_low_percent" d.hpLowPercent
    pathSearchBudget :=
      ← entries.get? "path_search_budget" d.pathSearchBudget Toml.Value.uint64?
    chaseDiagonals := ← entries.get? "chase_diagonals" d.chaseDiagonals Toml.Value.boolean?
    seed := ← entries.get? "rng_seed" d.seed Toml.Value.uint64? }

def Rules.read (text : String) : Except LoadError Rules :=
  match (Toml.read? text).bind Rules.ofSettings? with
  | some rules => .ok rules
  | none => .error (.malformed .rules)

/-! ## Maps -/

def layoutRecord : Shape (List String) where
  name := "MapDataRon"
  ofFields? fields := need? fields "rows" (·.list? Ron.Value.text?)

def World.read (text : String) : Except LoadError World :=
  match Ron.read? (fun _ => layoutRecord) text with
  | none => .error (.malformed .map)
  | some rows => (World.ofRows rows).mapError .layout

/-! ## Scenarios -/

namespace Scenario

def positionRecord : Shape Position where
  name := "Position"
  ofFields? fields := do return {
    x := ← need? fields "x" (·.int32?)
    y := ← need? fields "y" (·.int32?) }

def statsRecord : Shape Stats where
  name := "ActorStats"
  ofFields? fields := do
    let usual : Stats := {}
    return {
      level := ← get? fields "level" usual.level (·.uint32?)
      skill := ← get? fields "skill" usual.skill (·.int32?)
      strength := ← get? fields "strength" usual.strength (·.int32?)
      defense := ← get? fields "defense" usual.defense (·.int32?)
      speed := ← get? fields "speed" usual.speed (·.int32?) }

def itemRecord : Shape Item where
  name := "ItemState"
  ofFields? fields := do return {
    kind := ← need? fields "kind" fun v => v.word?.bind ItemKind.ofName?
    amount := ← need? fields "amount" (·.uint32?)
    stackable := ← need? fields "stackable" (·.boolean?)
    identified := ← need? fields "identified" (·.boolean?)
    potency := ← need? fields "potency" (·.uint32?) }

section Specs

variable (d : Dialect)

def actorRecord : Shape ActorSpec where
  name := "ActorSpec"
  ofFields? fields := do return {
    name := ← need? fields "name" (·.text?)
    position := ← need? fields "position" (positionRecord.read? d)
    stats := ← get? fields "stats" {} (statsRecord.read? d)
    hp := ← need? fields "hp" (·.uint32?)
    mp := ← get? fields "mp" 0 (·.uint32?)
    items := ← get? fields "inventory" [] (·.list? (itemRecord.read? d))
    money := ← get? fields "money" 0 (·.uint32?) }

def monsterRecord : Shape MonsterSpec where
  name := "MonsterSpec"
  ofFields? fields := do return {
    actor := ← need? fields "actor" ((actorRecord d).read? d)
    temper := ← need? fields "ai" (·.text?) }

def groundItemRecord : Shape ItemSpec where
  name := "GroundItemSpec"
  ofFields? fields := do return {
    position := ← need? fields "position" (positionRecord.read? d)
    item := ← need? fields "item" (itemRecord.read? d) }

/-- The record of a scenario. The player stands on its second level. -/
def record : Shape Scenario where
  name := "ScenarioSpec"
  ofFields? fields := do return {
    player := ← get? fields "player" none ((actorRecord d).optional? d 2)
    monsters := ← get? fields "monsters" [] (·.list? ((monsterRecord d).read? d))
    items := ← get? fields "items" [] (·.list? ((groundItemRecord d).read? d)) }

end Specs

def read (text : String) : Except LoadError Scenario :=
  match Ron.read? record text with
  | some s => .ok s
  | none => .error (.malformed .scenario)

end Scenario

end Delve
