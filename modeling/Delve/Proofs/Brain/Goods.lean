import Delve.Proofs.Brain.Journal
import Delve.Proofs.Task.Goods
/-!
# What a turn does to the goods of a world

Trees may drink, pick up and do both again in one evaluation. Through all of it no item is
duplicated or lost: every potion that is gone has been drunk, every coin that is gone is in a purse,
and all that is neither potion nor coin is still there.
-/

namespace Delve

variable {w now : World} {log : List (Tick Task Scene)} {t : Tick Task Scene}

/-! ## 1. The balance -/

/-- How many draughts there were in the ticks of a journal. -/
def drunkTicks (log : List (Tick Task Scene)) : Nat := log.countP (·.HasDrunk)

theorem drunkTicks_append_singleton (log : List (Tick Task Scene)) (t : Tick Task Scene) :
    drunkTicks (log ++ [t]) = drunkTicks log + if t.HasDrunk then 1 else 0 := by
  simp [drunkTicks, List.countP_append, List.countP_singleton]

/-- What there is now, next to what there was in the world `w` before the ticks of a journal. -/
structure Balanced (w now : World) (log : List (Tick Task Scene)) : Prop where
  kept : ∀ kind : ItemKind, kind.isPotion = false → kind ≠ .coins →
    now.hoard.filter (·.kind = kind) = w.hoard.filter (·.kind = kind)
  wealth : (∀ t ∈ log, ¬ t.Overflows) ∨ w.wealth < 2 ^ 32 → now.wealth = w.wealth
  potions : now.unitsOf ItemKind.isPotion + drunkTicks log = w.unitsOf ItemKind.isPotion
  counted : ∀ i ∈ now.hoard, i.Counted

namespace Balanced

theorem start (h : ∀ i ∈ w.hoard, i.Counted) : Balanced w w [] :=
  ⟨fun _ _ _ ↦ rfl, fun _ ↦ rfl, rfl, h⟩

theorem of_eq {later : World} (h : Balanced w now log) (hhoard : later.hoard = now.hoard)
    (hpurses : later.purses = now.purses) : Balanced w later log where
  kept kind hpotion hcoins := by rw [hhoard, h.kept kind hpotion hcoins]
  wealth hfits := by
    rw [World.wealth, World.unitsOf_of_eq hhoard, hpurses]
    exact h.wealth hfits
  potions := by rw [World.unitsOf_of_eq hhoard, h.potions]
  counted := by
    rw [hhoard]
    exact h.counted

theorem tick (h : Balanced w t.before.world log) (ht : t.Trades) :
    Balanced w t.after.world (log ++ [t]) where
  kept kind hpotion hcoins := (ht.filter_eq hpotion hcoins).trans (h.kept kind hpotion hcoins)
  wealth := by
    rintro (hall | hsmall)
    · have hbefore := h.wealth (Or.inl fun u hu ↦ hall u (List.mem_append_left _ hu))
      rw [ht.wealth_eq h.counted (hall t (by simp)), hbefore]
    · -- what was little at first is as little now
      have hbefore := h.wealth (Or.inr hsmall)
      rw [ht.wealth_eq h.counted (Tick.not_overflows (hbefore ▸ hsmall)), hbefore]
  potions := by
    have hlog := drunkTicks_append_singleton log t
    have hpotions := ht.potions_eq h.counted
    have hbefore := h.potions
    omega
  counted := ht.counted h.counted

end Balanced

/-! ## 2. Turns -/

/-- A scene with the journal that has led to it from a world `w`. -/
structure Scene.Trading (w : World) (now : Scene) (log : List (Tick Task Scene)) : Prop where
  seated : now.world.Seated
  fair : now.rules.Fair
  balanced : Balanced w now.world log

theorem trading_law (w : World) : TurnLaw (Scene.Trading w) fun _ ↦ False where
  tick t now log h := by
    -- in a fair game no tick stops at a fault
    obtain ⟨r, hr, houtcome⟩ := t.tick_outcome h.seated h.fair
    refine Except.comesTo_of_exists_ok ⟨r, hr, houtcome.seated h.seated, ?_, ?_⟩
    · rw [houtcome.rules_eq]
      exact h.fair
    · exact h.balanced.tick (Task.tick_trades hr)
  test sense now log h := by
    have hworld := sense.world_test now
    refine ⟨hworld ▸ h.seated, ?_, hworld ▸ h.balanced⟩
    rw [(sense.act_test now).touched.rules_eq]
    exact h.fair
  focusOn _ _ _ h := ⟨h.seated, h.fair, h.balanced⟩
  pay {now log} h := by
    have hpaid := (World.Stirs.refl now.world).finishTurn
    exact ⟨Scene.seated_finishTurn h.seated, h.fair, h.balanced.of_eq hpaid.hoard_eq hpaid.purses_eq⟩

/-- In an update nothing is duplicated and nothing is lost. What is neither potion nor coin stays
item by item, coins and money stay together what they were as long as no purse runs over, and
potions lose a unit with every draught. -/
theorem Brain.update_conserves (id : ActorId) (b : Brain) {s : Scene} (hworld : s.world.Seated)
    (hfair : s.rules.Fair) (hcounted : ∀ i ∈ s.world.hoard, i.Counted) :
    ∃ status b' s', b.update id s = .ok (status, b', s') ∧
      (∀ kind : ItemKind, kind.isPotion = false → kind ≠ .coins →
        s'.world.hoard.filter (·.kind = kind) = s.world.hoard.filter (·.kind = kind)) ∧
      ((∀ t ∈ b.ticks id s, ¬ t.Overflows) ∨ s.world.wealth < 2 ^ 32 →
        s'.world.wealth = s.world.wealth) ∧
      s'.world.unitsOf ItemKind.isPotion + drunkTicks (b.ticks id s) =
        s.world.unitsOf ItemKind.isPotion ∧
      ∀ i ∈ s'.world.hoard, i.Counted := by
  have hstart : Scene.Trading s.world s [] := ⟨hworld, hfair, .start hcounted⟩
  obtain ⟨⟨status, b', s'⟩, hupdate, -, -, hbalanced⟩ :=
    (update_law (trading_law s.world) id b hstart).exists_ok
  rw [List.nil_append] at hbalanced
  exact ⟨status, b', s', hupdate, hbalanced.kept, hbalanced.wealth, hbalanced.potions,
    hbalanced.counted⟩

def supply (a : Actor) : Actor :=
  { a with inventory := { a.inventory with items := [(Item.healingPotion 3).stacked 2] } }

/-- The ambush, with two potions in the bag of the rat, and coins on a gem at its feet. -/
def larder : Scene :=
  { ambush with
    world := (ambush.world.modifyActor ⟨1⟩ supply).withPile ⟨1, 0⟩ [.single .gem 7, .coins 5] }

theorem larder_seated : larder.world.Seated := by
  have hrat : (ambush.world.modifyActor ⟨1⟩ supply).Seated :=
    ambush_seated.modifyActor fun _ _ ↦ rfl
  exact ⟨hrat.occupants_iff, hrat.inBounds⟩

/-- The rat takes the coins and drinks one of its potions, and leaves the gem. -/
theorem larder_conserves :
    let b : Brain := .of (.seq [.leaf (.pickUp []), .leaf (.drink .any)])
    larder.world.Seated ∧ larder.rules.Fair ∧ (∀ i ∈ larder.world.hoard, i.Counted) ∧
      larder.world.wealth = 5 ∧
      ∃ b' s', b.update ⟨1⟩ larder = .ok (some .success, b', s') ∧
        s'.world.hoard.filter (·.kind = .gem) = {.single .gem 7} ∧
        s'.world.wealth = 5 ∧ s'.world.purses = 5 ∧
        s'.world.unitsOf ItemKind.isPotion + 1 = 2 ∧ ∀ i ∈ s'.world.hoard, i.Counted := by
  intro b
  have hfair : larder.rules.Fair := ⟨by decide, by decide⟩
  have hcounted : ∀ i ∈ larder.world.hoard, i.Counted := by decide +kernel
  have hwealth : larder.world.wealth = 5 := by decide +kernel
  obtain ⟨status, b', s', hupdate, hkept, hcash, hpotions, hleft⟩ :=
    Brain.update_conserves ⟨1⟩ b larder_seated hfair hcounted
  have hend : (b.update ⟨1⟩ larder).map (fun r ↦ (r.1, r.2.2.world.purses)) =
      .ok (some .success, 5) := by
    decide +kernel
  rw [hupdate] at hend
  obtain ⟨rfl, hpurses⟩ := Prod.mk.inj (Except.ok.inj hend)
  have hgem : larder.world.hoard.filter (·.kind = .gem) = {.single .gem 7} := by decide +kernel
  have hdraughts : drunkTicks (b.ticks ⟨1⟩ larder) = 1 := by decide +kernel
  have hbefore : larder.world.unitsOf ItemKind.isPotion = 2 := by decide +kernel
  rw [hdraughts, hbefore] at hpotions
  refine ⟨larder_seated, hfair, hcounted, hwealth, b', s', hupdate, ?_, ?_, hpurses, hpotions,
    hleft⟩
  · rw [hkept .gem rfl (by decide), hgem]
  · rw [hcash (Or.inr (by rw [hwealth]; decide)), hwealth]

end Delve
