import Mathlib
import Delve.Proofs.Game.Command
import Delve.Proofs.Route.Widen
import Delve.Proofs.Task.Mining
/-!
# What mining does to a level

For as long as a game is played, whatever the brains and from whatever world, the ground changes in
one way only: rock becomes rubble, one cell for every tick that has mined. So a level only ever
opens, and no way through it is lost or becomes longer.
-/

namespace Delve

variable {w : World} {s : Scene} {log : List (Tick Task Scene)}

/-- The number of ticks in a journal that have mined. -/
def minedTicks (log : List (Tick Task Scene)) : Nat := log.countP (·.HasMined)

theorem minedTicks_append_singleton (log : List (Tick Task Scene)) (t : Tick Task Scene) :
    minedTicks (log ++ [t]) = minedTicks log + if t.HasMined then 1 else 0 := by
  simp [minedTicks, List.countP_append, List.countP_singleton]

/-- The ground is that of `w`, with rubble in the place of as many rocks as have been mined. -/
structure Quarried (w : World) (s : Scene) (log : List (Tick Task Scene)) : Prop where
  opens : w.Opens s.world
  balance : s.world.rockCount + minedTicks log = w.rockCount

theorem Quarried.start (s : Scene) : Quarried s.world s [] :=
  ⟨(World.SameGround.refl s.world).opens, rfl⟩

theorem Quarried.tick {t : Tick Task Scene} (h : Quarried w t.before log) (ht : t.Mines) :
    Quarried w t.after (log ++ [t]) where
  opens := h.opens.trans ht.opens
  balance := by
    have hbefore := h.balance
    have hafter := ht.rockCount_eq
    rw [minedTicks_append_singleton]
    omega

namespace Game

end Game

end Delve
