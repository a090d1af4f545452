import Delve.Tree.Run
/-!
# Rehearsals

Trees can be tried out without a world. On the rehearsal stage there is a number and a log; tasks
answer from a script or by the number's parity, and predicates compare the number or answer as
they are told.
-/

namespace Delve.Rehearsal

structure Stage where
  value : Int64
  /-- What has been logged, last line first. -/
  log : List String := []
deriving DecidableEq, Repr, Inhabited

def Stage.note (s : Stage) (line : String) : Stage := { s with log := line :: s.log }

/-- A task that answers from a script. The last answer is given again and again. -/
structure Script where
  id : String
  first : Status
  later : List Status := []
  gain : Int64 := 0
  ticks : Nat := 0
deriving DecidableEq, Repr

def Script.answer (s : Script) : Status :=
  let answers := s.first :: s.later
  (answers[s.ticks]?).getD (answers.getLastD s.first)

inductive Role where
  /-- Succeeds while the number is even. -/
  | plain
  | probe (script : Script)
deriving DecidableEq, Repr

inductive Cue where
  /-- Asks whether the number is greater than `bound`. -/
  | above (bound : Int64)
  /-- Gives a fixed answer, and logs that it was asked. -/
  | fixed (status : Status)
deriving DecidableEq, Repr

def Role.tick : Role → Stage → Step Role Stage
  | plain, s => ⟨.ofBool (s.value % 2 == 0), plain, s⟩
  | probe script, s =>
    let s := Stage.note { s with value := s.value + script.gain } (script.id ++ ":tick")
    ⟨script.answer, probe { script with ticks := script.ticks + 1 }, s⟩

def Role.setup : Role → Stage → Role × Stage
  | plain, s => (plain, s)
  | probe script, s => (probe script, s.note (script.id ++ ":setup"))

def Role.rewind : Role → Role
  | plain => plain
  | probe script => probe { script with ticks := 0 }

def Role.name : Role → String
  | plain => "Plain"
  | probe _ => "Probe"

def Cue.test : Cue → Stage → Step Cue Stage
  | above bound, s => ⟨.ofBool (bound < s.value), above bound, s⟩
  | fixed status, s => ⟨status, fixed status, s.note "pred"⟩

/-- What tasks and predicates do on the stage. Nothing goes wrong there. -/
def repertoire : Repertoire Role Cue Stage Empty where
  setup := Role.setup
  tick t s := .ok (t.tick s)
  rewind := Role.rewind
  test p s := .ok (p.test s)
  name := Role.name

/-- Runs a tree once on a stage with an empty log: the outcome, the tree and the number after it,
and the lines logged, first line first. -/
def perform (t : Tree Role Cue) (value : Int64) : Step (Tree Role Cue) Int64 × List String :=
  match t.run repertoire { value } with
  | .ok r => (⟨r.status, r.state, r.context.value⟩, r.context.log.reverse)
  | .error e => nomatch e

/-- Runs a tree `n` times in a row: the outcomes in order, and what is left of tree and number. -/
def performTimes : Nat → Tree Role Cue → Int64 → List Status × Tree Role Cue × Int64
  | 0, t, value => ([], t, value)
  | n + 1, t, value =>
    let (r, _) := perform t value
    let (later, t, value) := performTimes n r.state r.context
    (r.status :: later, t, value)

end Delve.Rehearsal
