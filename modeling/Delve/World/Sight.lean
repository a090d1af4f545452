import Delve.Grid.Line
import Delve.World.Basic
/-!
# Sight

One cell sees another when no cell strictly between them is an obstacle. The ends themselves are
not tested, so an actor in a doorway can be seen.
-/

namespace Delve.World

/-- Whether nothing stands between two cells of the world. -/
def canSee (w : World) (p q : Position) : Bool :=
  w.inBounds p && w.inBounds q &&
    (line p q).all fun cell => cell == p || cell == q || !w.isObstacle cell

end Delve.World
