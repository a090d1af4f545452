import Mathlib.Data.Fintype.EquivFin
import Mathlib.Data.Nat.ModEq
import Mathlib.Data.Nat.Prime.Basic
import Mathlib.Logic.Function.Iterate
import Delve.Dice
/-!
# The seeds of draws

The hash that makes a fresh seed for every draw loses nothing: each of its stages can be undone on
words of 64 bits. So no two numbers of draws, no two actors and no two games lead to the same seed
while the other two are kept, and the seeds that one actor gets are different until the count of
draws comes round. The main statement is `seeds_distinct`.
-/

namespace Delve

/-! ## 1. Stages of the hash -/

namespace Generator

/-- Multiplying by an odd word can be undone, because it has no factor in common with the number of
words. -/
theorem mul_odd_injective {k : UInt64} (hodd : k.toNat % 2 = 1) :
    Function.Injective fun w ↦ w * k := by
  intro v w h
  have hcoprime : Nat.gcd (2 ^ 64) k.toNat = 1 :=
    Nat.Coprime.pow_left 64 (Nat.coprime_two_left.mpr (Nat.odd_iff.mpr hodd))
  have hmod : v.toNat * k.toNat ≡ w.toNat * k.toNat [MOD 2 ^ 64] := by
    have hproduct := congrArg UInt64.toNat h
    rwa [UInt64.toNat_mul, UInt64.toNat_mul] at hproduct
  have hfactor := Nat.ModEq.cancel_right_of_coprime hcoprime hmod
  exact UInt64.toNat_inj.mp (hfactor.eq_of_lt_of_lt v.toNat_lt w.toNat_lt)

/-- The upper bits of a word that are added to its lower ones are still there, so adding them once
more takes them away. -/
theorem xorShift_involutive : Function.Involutive fun w : UInt64 ↦ w ^^^ (w >>> 33) := by
  intro w
  -- what is shifted twice leaves the word
  have hgone : w >>> 33 >>> 33 = 0 := by
    have hw := w.toNat_lt
    apply UInt64.toNat_inj.mp
    rw [UInt64.toNat_shiftRight, UInt64.toNat_shiftRight, Nat.shiftRight_eq_div_pow,
      Nat.shiftRight_eq_div_pow, Nat.div_div_eq_div_mul]
    exact Nat.div_eq_of_lt (Nat.lt_trans hw (by decide))
  dsimp only
  rw [UInt64.shiftRight_xor, hgone, UInt64.xor_zero, UInt64.xor_assoc, UInt64.xor_self,
    UInt64.xor_zero]

/-- What the hash does with the seed, the number of draws and the actor once they are one word. -/
def scramble (w : UInt64) : UInt64 :=
  let w := (w ^^^ (w >>> 33)) * 0xFF51AFD7ED558CCD
  w ^^^ (w >>> 33)

theorem mix_eq_scramble (seed nonce : UInt64) (actor : UInt32) :
    mix seed nonce actor = scramble
      (seed ^^^ (nonce * 0x9E3779B97F4A7C15) ^^^ (actor.toUInt64 * 0x517CC1B727220A95)) :=
  rfl

theorem scramble_injective : Function.Injective scramble :=
  xorShift_involutive.injective.comp
    ((mul_odd_injective (by decide)).comp xorShift_involutive.injective)

theorem mix_injective_nonce (seed : UInt64) (actor : UInt32) :
    Function.Injective fun nonce ↦ mix seed nonce actor := by
  intro m n h
  have hword := scramble_injective h
  rw [UInt64.xor_left_inj, UInt64.xor_right_inj] at hword
  exact mul_odd_injective (by decide) hword

theorem mix_injective_actor (seed nonce : UInt64) : Function.Injective (mix seed nonce) := by
  intro a b h
  have hword := scramble_injective h
  rw [UInt64.xor_right_inj] at hword
  exact UInt32.toUInt64_inj.mp (mul_odd_injective (by decide) hword)

theorem mix_bijective_seed (nonce : UInt64) (actor : UInt32) :
    Function.Bijective fun seed ↦ mix seed nonce actor := by
  have hfinite : Finite UInt64 := .of_injective UInt64.toFin fun _ _ ↦ UInt64.eq_of_toFin_eq
  refine Finite.injective_iff_bijective.mp fun s t h ↦ ?_
  have hword := scramble_injective h
  rwa [UInt64.xor_left_inj, UInt64.xor_left_inj] at hword

end Generator

/-! ## 2. Draws -/

/-- A random choice that the dice are asked for. -/
inductive Draw : Type 1 where
  | next (actor : UInt32)
  | d100 (actor : UInt32)
  | range (actor low high : UInt32)
  | choose (α : Type) (actor : UInt32) (xs : List α)

namespace Draw

/-- Whom a draw is for. -/
def actor : Draw → UInt32
  | next actor | d100 actor | range actor _ _ | choose _ actor _ => actor

/-- Nothing is drawn from an empty list. -/
def isDrawn : Draw → Bool
  | choose _ _ xs => !xs.isEmpty
  | _ => true

def Answer : Draw → Type
  | choose α _ _ => Option α
  | _ => UInt32

def perform : (q : Draw) → Dice → Except Fault (q.Answer × Dice)
  | next actor, d => .ok (d.next actor)
  | d100 actor, d => .ok (d.d100 actor)
  | range actor low high, d => d.range actor low high
  | choose _ actor xs, d => .ok (d.choose actor xs)

/-- What a seed stands for in a draw. -/
def answer : (q : Draw) → UInt64 → Except Fault q.Answer
  | next _, seed => .ok (Generator.next seed)
  | d100 _, seed => .ok (Generator.d100 seed)
  | range _ low high, seed => Generator.range seed low high
  | choose _ _ [], _ => .ok none
  | choose _ _ (x :: xs), seed =>
    .ok (x :: xs)[(Generator.next seed).toNat % (xs.length + 1)]?

/-- A draw is answered from the fresh seed of its actor, and moves the dice on by one. -/
theorem perform_eq (q : Draw) (d : Dice) :
    q.perform d =
      (q.answer (d.fresh q.actor)).map fun a ↦ (a, if q.isDrawn then d.rolled else d) := by
  cases q with
  | next actor => rfl
  | d100 actor => rfl
  | range actor low high => rfl
  | choose α actor xs => cases xs <;> rfl

end Draw

/-! ## 3. Streams of draws -/

namespace Dice

/-- The seeds that a stream of draws uses up, each with the actor that it is for. A fault ends the
stream. -/
def seeds (d : Dice) : List Draw → List (UInt32 × UInt64)
  | [] => []
  | q :: qs =>
    (if q.isDrawn then [(q.actor, d.fresh q.actor)] else []) ++
      match q.perform d with
      | .ok (_, d') => d'.seeds qs
      | .error _ => []

theorem iterate_rolled (d : Dice) (k : Nat) :
    rolled^[k] d = { d with nonce := d.nonce + .ofNat k } := by
  induction k with
  | zero => simp
  | succ k ih =>
    rw [Function.iterate_succ_apply', ih, rolled]
    simp [UInt64.add_assoc]

theorem seeds_cons (d : Dice) (q : Draw) (qs : List Draw) :
    d.seeds (q :: qs) =
      (if q.isDrawn then [(q.actor, d.fresh q.actor)] else []) ++
        match q.answer (d.fresh q.actor) with
        | .ok _ => (if q.isDrawn then d.rolled else d).seeds qs
        | .error _ => [] := by
  rw [seeds, q.perform_eq]
  cases q.answer (d.fresh q.actor) <;> rfl

/-- Every seed is the one for the number of draws before it, whatever these were and whoever they
were for. -/
theorem eq_fresh_of_getElem? {d : Dice} {qs : List Draw} {i : Nat} {actor : UInt32} {seed : UInt64}
    (h : (d.seeds qs)[i]? = some (actor, seed)) : seed = (rolled^[i] d).fresh actor := by
  induction qs generalizing d i with
  | nil => cases h
  | cons q qs ih =>
    rw [seeds_cons] at h
    cases hdrawn : q.isDrawn with
    | false =>
      -- neither the dice nor the place of the seed have moved
      simp only [hdrawn, Bool.false_eq_true, ↓reduceIte, List.nil_append] at h
      split at h
      · exact ih h
      · cases h
    | true =>
      simp only [hdrawn, ↓reduceIte, List.singleton_append] at h
      cases i with
      | zero =>
        cases h
        rfl
      | succ i =>
        rw [List.getElem?_cons_succ] at h
        split at h
        · rw [Function.iterate_succ_apply]
          exact ih h
        · cases h -- nothing is drawn after a fault

/-- Two numbers of draws that are less than all the words of 64 bits apart give one actor different
seeds. -/
theorem fresh_ne {d : Dice} {i j : Nat} (hlt : i < j) (hnear : j < i + 2 ^ 64) (actor : UInt32) :
    (rolled^[i] d).fresh actor ≠ (rolled^[j] d).fresh actor := by
  intro h
  rw [iterate_rolled, iterate_rolled] at h
  -- the count of draws wraps, so it is compared modulo the number of words
  have hnonce := congrArg UInt64.toNat (Generator.mix_injective_nonce d.seed actor h)
  rw [UInt64.toNat_add, UInt64.toNat_add, UInt64.toNat_ofNat', UInt64.toNat_ofNat'] at hnonce
  omega

/-- The hash keeps apart the numbers of draws, the actors and the games, each for given values of
the other two. So in any stream of draws, an actor gets different seeds in draws that are fewer than
`2 ^ 64` apart, and no stream of the same dice gives another actor the same seed at the same
place. -/
theorem seeds_distinct :
    (∀ seed actor, Function.Injective fun nonce ↦ Generator.mix seed nonce actor) ∧
    (∀ seed nonce, Function.Injective (Generator.mix seed nonce)) ∧
    (∀ nonce actor, Function.Bijective fun seed ↦ Generator.mix seed nonce actor) ∧
    (∀ (d : Dice) (qs : List Draw) {i j : Nat} {actor : UInt32} {seed seed' : UInt64},
      (d.seeds qs)[i]? = some (actor, seed) → (d.seeds qs)[j]? = some (actor, seed') →
      i < j → j < i + 2 ^ 64 → seed ≠ seed') ∧
    ∀ (d : Dice) (qs qs' : List Draw) {i : Nat} {actor actor' : UInt32} {seed : UInt64},
      (d.seeds qs)[i]? = some (actor, seed) → (d.seeds qs')[i]? = some (actor', seed) →
      actor = actor' := by
  refine ⟨Generator.mix_injective_nonce, Generator.mix_injective_actor,
    Generator.mix_bijective_seed, ?_, ?_⟩
  · intro d qs i j actor seed seed' hi hj hlt hnear
    rw [eq_fresh_of_getElem? hi, eq_fresh_of_getElem? hj]
    exact fresh_ne hlt hnear actor
  · intro d qs qs' i actor actor' seed hi hi'
    exact Generator.mix_injective_actor _ _
      ((eq_fresh_of_getElem? hi).symm.trans (eq_fresh_of_getElem? hi'))

/-- Four draws of two actors, one of them from an empty list. -/
def quarrel : List Draw := [.next 3, .choose Unit 4 [], .d100 4, .range 3 1 6]

/-- The first and the third seed are for the same actor. -/
theorem quarrel_seeds_distinct :
    let d : Dice := { seed := 42 }
    ∃ first last, (d.seeds quarrel)[0]? = some (3, first) ∧
      (d.seeds quarrel)[2]? = some (3, last) ∧ first ≠ last := by
  intro d
  have hfirst : (d.seeds quarrel)[0]? = some (3, d.fresh 3) := rfl
  have hlast : (d.seeds quarrel)[2]? = some (3, d.rolled.rolled.fresh 3) := rfl
  exact ⟨_, _, hfirst, hlast,
    seeds_distinct.2.2.2.1 d quarrel hfirst hlast (by decide) (by decide)⟩

end Dice

end Delve
