import Delve.World.Basic
/-!
# Items on the ground

Each cell may hold a pile. A pile is never empty: the last item takes the pile with it.
-/

namespace Delve.World

/-- The pile of a cell, first dropped first. -/
def itemsAt (w : World) (p : Position) : List Item := (w.piles[p]?).getD []

def dropItem (w : World) (p : Position) (item : Item) : Except WorldError World :=
  if w.inBounds p then .ok { w with piles := w.piles.insert p (w.itemsAt p ++ [item]) }
  else .error (.outOfBounds p)

def takeItem? (w : World) (p : Position) (place : Nat) : Option (Item × World) :=
  (w.itemsAt p)[place]?.map fun item =>
    let rest := (w.itemsAt p).eraseIdx place
    (item, { w with piles := if rest.isEmpty then w.piles.erase p else w.piles.insert p rest })

end Delve.World
