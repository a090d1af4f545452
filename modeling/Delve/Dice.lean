import Delve.Fault
/-!
# Dice

Every random choice is drawn here. A draw hashes the seed of the game, the number of draws before
it and the actor that it is for into a fresh seed, and a permuted congruential generator turns
that seed into a number. Nothing else is remembered, so a draw never depends on what earlier draws
asked for, only on how many there were.
-/

namespace Delve

namespace Generator

/-- One step of the linear congruence on 64 bits. -/
def advance (state : UInt64) : UInt64 := state * 6364136223846793005 + 1442695040888963407

/-- A word turned to the right by fewer than 32 places. -/
def rotateRight (w amount : UInt32) : UInt32 := (w >>> amount) ||| (w <<< (0 - amount))

/-- The output permutation: a shifted exclusive or, turned by the five highest bits. -/
def permute (state : UInt64) : UInt32 :=
  rotateRight (((state >>> 18) ^^^ state) >>> 27).toUInt32 (state >>> 59).toUInt32

def next (seed : UInt64) : UInt32 := permute (advance seed)

def d100 (seed : UInt64) : UInt32 := next seed % 100 + 1

/-- The number between `low` and `high` that a seed stands for, or `low` if there is none. -/
def range (seed : UInt64) (low high : UInt32) : Except Fault UInt32 :=
  if high ≤ low then .ok low
  else
    let count := high - low + 1
    if count = 0 then .error .unboundedDraw else .ok (low + next seed % count)

/-- The fresh seed for one draw of one actor. -/
def mix (seed nonce : UInt64) (actor : UInt32) : UInt64 :=
  let h := seed ^^^ (nonce * 0x9E3779B97F4A7C15) ^^^ (actor.toUInt64 * 0x517CC1B727220A95)
  let h := (h ^^^ (h >>> 33)) * 0xFF51AFD7ED558CCD
  h ^^^ (h >>> 33)

end Generator

structure Dice where
  seed : UInt64
  nonce : UInt64 := 0
deriving DecidableEq, Repr, Inhabited

namespace Dice

def rolled (d : Dice) : Dice := { d with nonce := d.nonce + 1 }

def fresh (d : Dice) (actor : UInt32) : UInt64 := Generator.mix d.seed d.nonce actor

def next (d : Dice) (actor : UInt32) : UInt32 × Dice := (Generator.next (d.fresh actor), d.rolled)

def d100 (d : Dice) (actor : UInt32) : UInt32 × Dice := (Generator.d100 (d.fresh actor), d.rolled)

/-- Draws a number between `low` and `high`. It counts as a draw even where there is no choice. -/
def range (d : Dice) (actor low high : UInt32) : Except Fault (UInt32 × Dice) :=
  (Generator.range (d.fresh actor) low high).map fun n => (n, d.rolled)

/-- Draws a member of a list. Nothing is drawn from an empty one. -/
def choose {α : Type} (d : Dice) (actor : UInt32) : List α → Option α × Dice
  | [] => (none, d)
  | x :: xs =>
    ((x :: xs)[(Generator.next (d.fresh actor)).toNat % (xs.length + 1)]?, d.rolled)

theorem choose_cons {α : Type} (d : Dice) (actor : UInt32) (x : α) (xs : List α) :
    ∃ y ∈ x :: xs, d.choose actor (x :: xs) = (some y, d.rolled) := by
  have hindex : (Generator.next (d.fresh actor)).toNat % (xs.length + 1) < (x :: xs).length :=
    Nat.mod_lt _ (Nat.succ_pos _)
  refine ⟨_, List.getElem_mem hindex, ?_⟩
  rw [choose, List.getElem?_eq_getElem hindex]

end Dice

end Delve
