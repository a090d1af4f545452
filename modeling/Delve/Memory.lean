import Delve.Actor
import Delve.Grid.Coordinates
/-!
# Memory

What actors remember from turn to turn: texts under a few known topics. Nothing fades; whoever
uses a memory up forgets it, and an actor that leaves the game takes all of its memory along.
-/

namespace Delve

inductive Topic where
  /-- Where the target was last seen. -/
  | lastTarget
  /-- The cell that was dug out last. -/
  | lastMined
deriving DecidableEq, Repr, Inhabited

namespace Topic

def all : List Topic := [lastTarget, lastMined]

def rank : Topic → Nat
  | lastTarget => 0
  | lastMined => 1

instance : Ord Topic := ⟨compareOn rank⟩

instance : Std.TransOrd Topic := inferInstanceAs (Std.TransCmp (compareOn rank))

instance : Std.LawfulEqOrd Topic where
  eq_of_compare {a b} h := by cases a <;> cases b <;> first | rfl | exact absurd h (by decide)

def name : Topic → String
  | lastTarget => "last_target_pos"
  | lastMined => "last_mined_pos"

def ofName? (s : String) : Option Topic := all.find? (·.name == s)

end Topic

structure MemoryEntry where
  actor : ActorId
  topic : Topic
  value : String
deriving DecidableEq, Repr

/-- The memories of all actors. No actor is listed without a memory. -/
structure Memory where
  slots : ActorMap (Std.ExtTreeMap Topic String)
deriving DecidableEq

namespace Memory

def empty : Memory := ⟨∅⟩

instance : Inhabited Memory := ⟨empty⟩

def topics (m : Memory) (actor : ActorId) : Std.ExtTreeMap Topic String :=
  (m.slots[actor]?).getD ∅

def set (m : Memory) (actor : ActorId) (topic : Topic) (value : String) : Memory :=
  ⟨m.slots.insert actor ((m.topics actor).insert topic value)⟩

def get? (m : Memory) (actor : ActorId) (topic : Topic) : Option String :=
  (m.topics actor)[topic]?

def contains (m : Memory) (actor : ActorId) (topic : Topic) : Bool :=
  (m.get? actor topic).isSome

/-- Forgets one thing, and with the last one the actor. -/
def forget (m : Memory) (actor : ActorId) (topic : Topic) : Memory :=
  let rest := (m.topics actor).erase topic
  ⟨if rest.isEmpty then m.slots.erase actor else m.slots.insert actor rest⟩

/-- Forgets one thing and tells what it was. -/
def withdraw (m : Memory) (actor : ActorId) (topic : Topic) : Option String × Memory :=
  (m.get? actor topic, m.forget actor topic)

def forgetActor (m : Memory) (actor : ActorId) : Memory := ⟨m.slots.erase actor⟩

def setPosition (m : Memory) (actor : ActorId) (topic : Topic) (p : Position) : Memory :=
  m.set actor topic p.text

/-- The cell that is remembered. A text that is no position counts as nothing. -/
def position? (m : Memory) (actor : ActorId) (topic : Topic) : Option Position :=
  (m.get? actor topic).bind Position.parse?

def actorCount (m : Memory) : Nat := m.slots.size

/-- The memories by ascending actor, each actor's by ascending topic. -/
def entries (m : Memory) : List MemoryEntry :=
  m.slots.toList.flatMap fun (actor, topics) =>
    topics.toList.map fun (topic, value) => ⟨actor, topic, value⟩

/-- The memory of a list of entries. Of several entries for one thing the last one counts. -/
def ofEntries (entries : List MemoryEntry) : Memory :=
  entries.foldl (fun m e => m.set e.actor e.topic e.value) empty

end Memory

end Delve
