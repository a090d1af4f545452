import Std.Data.ExtTreeSet
import Delve.Route.Basic
/-!
# Best-first search

The search labels cells with the cheapest cost found so far and the cell it was reached from, and
expands them by ascending estimate: cost so far plus block distance to the goal. Among equal
estimates the entry queued first goes first, so no two entries ever tie. A cell is expanded once.
A later, cheaper label leaves its older entries in the queue; they are recognised by their cost
and skipped.

The state of a search is a value and `Search.step` its only transition, so that what holds of a
step holds of a run.
-/

namespace Delve

structure RouteQuery where
  start : Position
  goal : Position
  options : RouteOptions
  passable : Position → Bool

structure RouteLabel where
  parent : Option Position
  cost : UInt32
deriving DecidableEq, Repr

structure QueueRank where
  estimate : UInt32
  /-- How many entries were queued before. -/
  arrival : Nat
deriving DecidableEq, Repr

namespace QueueRank

instance : Ord QueueRank where
  compare := compareLex (compareOn QueueRank.estimate) (compareOn QueueRank.arrival)

instance : Std.TransOrd QueueRank :=
  inferInstanceAs
    (Std.TransCmp (compareLex (compareOn QueueRank.estimate) (compareOn QueueRank.arrival)))

instance : Std.LawfulEqOrd QueueRank where
  eq_of_compare {a b} h := by
    have h' : (compare a.estimate b.estimate).then (compare a.arrival b.arrival) = .eq := h
    rw [Ordering.then_eq_eq] at h'
    obtain ⟨he, ha⟩ := h'
    have he := Std.LawfulEqOrd.eq_of_compare he
    have ha := Std.LawfulEqOrd.eq_of_compare ha
    cases a; cases b; simp_all

end QueueRank

structure QueueEntry where
  cell : Position
  cost : UInt32
deriving DecidableEq, Repr

structure Search where
  queue : Std.ExtTreeMap QueueRank QueueEntry
  labels : CellMap RouteLabel
  /-- The cells that have been expanded. -/
  closed : Std.ExtTreeSet Position
  queued : Nat
  expanded : Nat
  asked : Nat

/-- A search's result, with how often a cell was asked to be passable. -/
structure SearchResult where
  route : Route
  asked : Nat
deriving DecidableEq, Repr

inductive SearchStep where
  | next (s : Search)
  | done (r : SearchResult)

namespace Search

def enqueue (q : RouteQuery) (cell : Position) (label : RouteLabel) (s : Search) : Search :=
  let estimate := label.cost + cell.blockDistance q.goal
  { s with
    queue := s.queue.insert ⟨estimate, s.queued⟩ ⟨cell, label.cost⟩
    labels := s.labels.insert cell label
    queued := s.queued + 1 }

def initial (q : RouteQuery) : Search :=
  enqueue q q.start ⟨none, 0⟩
    { queue := ∅, labels := ∅, closed := ∅, queued := 0, expanded := 0, asked := 1 }

def consider (q : RouteQuery) (source : QueueEntry) (s : Search) (delta : Int32 × Int32) : Search :=
  let cell := source.cell.offset delta.1 delta.2
  if cell ∈ s.closed then s
  else
    let s := { s with asked := s.asked + 1 }
    if q.passable cell then
      let cost := source.cost + stepCost delta.1 delta.2
      -- of two equally cheap ways the one found first stays
      if s.labels[cell]?.any (·.cost ≤ cost) then s
      else s.enqueue q cell ⟨some source.cell, cost⟩
    else s

def expand (q : RouteQuery) (source : QueueEntry) (s : Search) : Search :=
  q.options.steps.foldl (consider q source)
    { s with closed := s.closed.insert source.cell, expanded := s.expanded + 1 }

/-- The cells from the start to `cell` along the parents, followed by `later`. No chain of
parents is longer than `limit`, the number of labels. -/
def backtrack (labels : CellMap RouteLabel) : Nat → Position → List Position → List Position
  | 0, cell, later => cell :: later
  | limit + 1, cell, later =>
    match (labels[cell]?).bind (·.parent) with
    | none => cell :: later
    | some parent => backtrack labels limit parent (cell :: later)

def routeTo (s : Search) (cell : Position) : Route where
  waypoints := backtrack s.labels s.labels.size cell []
  cost := (s.labels[cell]?).elim 0 (·.cost)

/-- Whether an entry has been overtaken by a cheaper one. -/
def isStale (s : Search) (e : QueueEntry) : Bool :=
  e.cell ∈ s.closed || s.labels[e.cell]?.any (·.cost != e.cost)

def step (q : RouteQuery) (s : Search) : SearchStep :=
  match s.queue.minEntry? with
  | none => .done ⟨.unreachable, s.asked⟩
  | some (rank, e) =>
    let s := { s with queue := s.queue.erase rank }
    if s.isStale e then .next s
    -- the goal's label is final only now, when nothing before it is left in the queue
    else if e.cell = q.goal then .done ⟨s.routeTo q.goal, s.asked⟩
    else if q.options.budget.any (· ≤ s.expanded) then .done ⟨.unreachable, s.asked⟩
    else .next (s.expand q e)

def run (q : RouteQuery) : Nat → Search → SearchResult
  | 0, s => ⟨.unreachable, s.asked⟩
  | limit + 1, s =>
    match s.step q with
    | .next s => run q limit s
    | .done r => r

/-- More steps than any search can take. There are `2 ^ 64` cells, each is expanded once and then
queues eight others at most, and every step takes an entry out of the queue. -/
def stepLimit : Nat := 8 * UInt64.size + 2

end Search

/-- Searches for a cheapest route. The start need not be passable. A search that runs out of
budget finds nothing: there are no partial routes. -/
def RouteQuery.search (q : RouteQuery) : SearchResult :=
  if q.start = q.goal then ⟨.here q.start, 0⟩
  else if q.passable q.goal then Search.run q Search.stepLimit (.initial q)
  else ⟨.unreachable, 1⟩

def RouteQuery.route (q : RouteQuery) : Route := q.search.route

end Delve
