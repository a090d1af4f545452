import Delve.Brain.Trial
import Delve.Brain.Vocabulary
import Delve.Main
import Delve.Proofs.Route.Walk
import Delve.Tree.Rehearsal
import Delve.Proofs.Route.Step
import Delve.Proofs.Route.Lineage
import Delve.Proofs.Route.Cheapest
import Delve.Proofs.World.Invariant
import Delve.Proofs.Except
import Delve.Proofs.World.History
import Delve.Proofs.Task.Outcome
import Delve.Proofs.Task.Commit
import Delve.Proofs.Tree.Invariant
import Delve.Proofs.Tree.Origin
import Delve.Proofs.Brain.Frame
import Delve.Proofs.Brain.Prospect
import Delve.Proofs.Brain.Origin
import Delve.Proofs.Brain.Temper
import Delve.Proofs.Brain.Turns
import Delve.Proofs.Game.Round
import Delve.Proofs.Game.Account
import Delve.Proofs.Brain.Journal
import Delve.Proofs.Brain.Watch
import Delve.Proofs.Brain.Price
import Delve.Proofs.Game.Command
import Delve.Proofs.Task.Stride
import Delve.Proofs.Game.Standing
import Delve.Proofs.Task.Mining
import Delve.Proofs.Game.Mining
import Delve.Proofs.World.Durable
import Delve.Proofs.Brain.Conduct
import Delve.Proofs.Brain.Survival
import Delve.Proofs.Task.Privacy
import Delve.Proofs.Brain.Privacy
import Delve.Proofs.Game.Completion
import Delve.Proofs.Game.Lasting
import Delve.Proofs.Game.Belongings
import Delve.Proofs.Game.Removal
import Delve.Proofs.Route.Following
import Delve.Proofs.Tree.Leaves
import Delve.Proofs.Tree.View
import Delve.Proofs.Tree.History
import Delve.Proofs.Tree.Activation
import Delve.Proofs.Tree.Regrouping
import Delve.Proofs.Brain.Renewal
import Delve.Proofs.Brain.Goods
import Delve.Proofs.World.Chart
import Delve.Proofs.World.Picture
import Delve.Proofs.Memory
import Delve.Proofs.Task.Hunt
import Delve.Proofs.Task.Errand
import Delve.Proofs.Route.Work
import Delve.Proofs.Route.Budget
import Delve.Proofs.Route.Distance
import Delve.Proofs.Route.Straight
import Delve.Proofs.Tree.Record
import Delve.Proofs.Tree.Preorder
import Delve.Proofs.Tree.Duality
import Delve.Proofs.Tree.Repetition
import Delve.Proofs.Tree.Undefined
import Delve.Proofs.World.Sight
import Delve.Proofs.Tree.Outline
import Delve.Proofs.World.Grammar
import Delve.Proofs.World.Reach
import Delve.Proofs.World.Handles
import Delve.Proofs.Brain.Engagement
import Delve.Proofs.Brain.Thirst
import Delve.Proofs.Meter
import Delve.Proofs.Combat
import Delve.Proofs.Energy
import Delve.Proofs.Dice
import Delve.Proofs.Stream
import Delve.Proofs.Numeral
import Delve.Proofs.Memory.Flat
import Delve.Proofs.Inventory
import Delve.Proofs.Level.Placement
import Delve.Proofs.Game.Split
import Delve.Proofs.Task.Retreat
import Delve.Proofs.Route.Order
import Delve.Proofs.Tree.Marks
import Delve.Proofs.World.Addressing
import Delve.Proofs.Meter.Account
