import Mathlib.Logic.Relation
import Delve.Proofs.Brain.Prospect
import Delve.Proofs.Tree.Origin
/-!
# Brains later on

A brain keeps notes from update to update, and nothing else about it changes. So whatever a brain
becomes, its prospects stay the ones that it was built with.
-/

namespace Delve

/-! ## 1. Brains as they were built -/

/-- The task as it was built. -/
def Task.renew : Task → Task
  | chase _ => chase {}
  | attack _ => attack none
  | t => t

/-- What tasks and senses do to an actor, with a reset that makes tasks forget everything. -/
def originalRepertoire : Repertoire Task Sense Scene Fault :=
  { brainRepertoire with rewind := Task.renew }

theorem Task.renew_rewind (t : Task) : t.rewind.renew = t.renew := by
  cases t <;> rfl

theorem Task.renew_tick {t : Task} {s : Scene} {r : Step Task Scene} (h : t.tick s = .ok r) :
    r.state.renew = t.renew := by
  cases t with
  | attack last =>
    obtain ⟨⟨blow, after⟩, -, hr⟩ := bind_eq_ok.mp h
    cases blow <;> cases hr <;> rfl
  | chase c =>
    cases h
    rfl
  | _ =>
    cases h
    rfl

theorem undoneBy_original : brainRepertoire.UndoneBy originalRepertoire where
  setup _ _ := rfl
  tick _ _ _ h := Task.renew_tick h
  rewind := Task.renew_rewind
  test _ _ _ h := by
    cases h
    rfl

theorem Task.prospects_renew (t : Task) (ready : Bool) :
    t.renew.prospects ready = t.prospects ready := by
  cases t <;> rfl

namespace Node

mutual

/-- What a node may come to does not depend on what it keeps. -/
theorem prospects_reset : ∀ (n : BrainNode) (ready : Bool),
    (n.reset originalRepertoire).prospects ready = n.prospects ready
  | sequence _ [], ready => by rw [reset, resetAll, prospects, prospects]
  | sequence _ (c :: cs), ready => by
    rw [reset, resetAll, prospects, prospects, ← resetAll, prospectsWhile_resetAll]
  | selector _ cs, ready => by rw [reset, prospects, prospects, prospectsWhile_resetAll]
  | condition _ none none, ready => by rw [reset, prospects, prospects]
  | condition _ none (some _), ready => by rw [reset, prospects, prospects]
  | condition _ (some _) none, ready => by rw [reset, prospects, prospects]
  | condition _ (some _) (some child), ready => by
    rw [reset, prospects, prospects, prospects_reset child]
  | failure _, ready => by rw [reset, prospects, prospects]
  | ignoreFailure _ child, ready => by rw [reset, prospects, prospects, prospects_reset child]
  | repeater _ _ _ child, ready => by rw [reset, prospects, prospects, prospects_reset child]
  | task _ t, ready => by
    rw [reset, prospects, prospects]
    exact t.prospects_renew ready

theorem prospectsWhile_resetAll (on : Status) : ∀ (cs : List BrainNode) (ready : Bool),
    prospectsWhile on ready (resetAll originalRepertoire cs) = prospectsWhile on ready cs
  | [], ready => rfl
  | c :: cs, ready => by
    rw [resetAll, prospectsWhile, prospectsWhile, prospects_reset c]
    simp only [prospectsWhile_resetAll on cs]

end

end Node

/-! ## 2. What brains become -/

namespace Brain

theorem prospects_reset (b : Brain) : prospects (b.reset originalRepertoire) = b.prospects := by
  obtain ⟨body⟩ := b
  cases body with
  | none => rfl
  | some n => exact n.prospects_reset true

/-- One brain becomes another one by an update, of any actor and in any scene. -/
def Leads (b c : Brain) : Prop :=
  ∃ (id : ActorId) (s : Scene) (status : Option Status) (s' : Scene),
    b.update id s = .ok (status, c, s')

/-- One brain becomes another one by any number of updates. -/
def Becomes : Brain → Brain → Prop := Relation.ReflTransGen Leads

variable {b c : Brain}

theorem reset_of_act {s : Scene} {r : Step Brain Scene} (h : b.act s = .ok r) :
    r.state.reset originalRepertoire = b.reset originalRepertoire := by
  obtain ⟨q, hq, hr⟩ := bind_eq_ok.mp h
  cases hr
  have hrun := Tree.reset_run undoneBy_original hq
  dsimp only
  split
  · rw [Tree.reset_reset undoneBy_original, hrun]
  · exact hrun

/-- An update changes what a brain keeps, and nothing else about it. -/
theorem reset_of_leads (h : b.Leads c) :
    c.reset originalRepertoire = b.reset originalRepertoire := by
  obtain ⟨id, s, status, s', hupdate⟩ := h
  unfold update at hupdate
  dsimp only at hupdate
  split at hupdate
  · obtain ⟨r, hr, heq⟩ := bind_eq_ok.mp hupdate
    cases heq
    exact reset_of_act hr
  · cases hupdate
    rfl

theorem reset_of_becomes (h : b.Becomes c) :
    c.reset originalRepertoire = b.reset originalRepertoire := by
  induction h with
  | refl => rfl
  | tail _ hstep ih => rw [reset_of_leads hstep, ih]

theorem prospects_of_becomes (h : b.Becomes c) : c.prospects = b.prospects := by
  rw [← c.prospects_reset, reset_of_becomes h, b.prospects_reset]

end Brain

end Delve
