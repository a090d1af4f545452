import Delve.Route.Search
import Delve.World.Basic
/-!
# Routes through the world

A route keeps to cells without obstacles, and unless it may pass through actors, to cells without
actors too. The goal may be occupied: a route can lead up to somebody.
-/

namespace Delve.World

def isPassable (w : World) (throughActors : Bool) (goal cell : Position) : Bool :=
  w.inBounds cell && !w.isObstacle cell &&
    (throughActors || cell == goal || (w.occupantAt? cell).isNone)

def routeQuery (w : World) (start goal : Position) (options : RouteOptions) : RouteQuery where
  start
  goal
  options
  passable := w.isPassable options.throughActors goal

def route (w : World) (start goal : Position) (options : RouteOptions) : Route :=
  (w.routeQuery start goal options).route

end Delve.World
