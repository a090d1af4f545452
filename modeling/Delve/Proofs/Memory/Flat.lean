import Delve.Proofs.Coordinates
import Delve.Proofs.Memory
import Mathlib.Data.Finset.Card
/-!
# Memory as one map

A memory is a map of maps: every actor that remembers something has its own topics. Whoever asks it
cannot tell, for it answers like a single map from actors and topics that goes through the same
requests. The number of actors is the delicate part, as the single map has no place where an actor
without memories could be left over. The main statement is `run_flattens`.
-/

namespace Delve.Memory

variable {m : Memory}

/-! ## 1. The single map -/

/-- Pairs ascend by the actor, those of one actor by the topic. -/
instance : Ord (ActorId × Topic) := lexOrd

/-- What is remembered by whom and under which topic. -/
abbrev Flat := Std.ExtTreeMap (ActorId × Topic) String

namespace Flat

/-- The number of different actors in the map. -/
def actorCount (f : Flat) : Nat := (f.keys.map Prod.fst).toFinset.card

/-- The map after a request. -/
def apply (f : Flat) : Edit → Flat
  | .set actor topic value => f.insert (actor, topic) value
  | .setPosition actor topic p => f.insert (actor, topic) p.text
  | .forget actor topic => f.erase (actor, topic)
  | .forgetActor actor => f.filter fun place _ ↦ place.1 != actor

/-- The map after a list of requests. -/
def run (f : Flat) (es : List Edit) : Flat := es.foldl apply f

end Flat

/-! ## 2. One map like the other -/

/-- The memory answers as the map does, and lists nobody without a memory. -/
structure Flattens (m : Memory) (f : Flat) : Prop where
  tidy : m.Tidy
  get?_eq : ∀ actor topic, m.get? actor topic = f[(actor, topic)]?

variable {f : Flat}

theorem flattens_empty : empty.Flattens ∅ where
  tidy := tidy_empty
  get?_eq _ _ := by
    rw [Std.ExtTreeMap.getElem?_empty]
    rfl

theorem Flattens.set (h : m.Flattens f) (actor : ActorId) (topic : Topic) (value : String) :
    (m.set actor topic value).Flattens (f.insert (actor, topic) value) where
  tidy := h.tidy.set actor topic value
  get?_eq actor' topic' := by
    rw [get?_set, getElem?_insert_eq_ite, h.get?_eq]
    simp only [Prod.mk.injEq]

theorem Flattens.forget (h : m.Flattens f) (actor : ActorId) (topic : Topic) :
    (m.forget actor topic).Flattens (f.erase (actor, topic)) where
  tidy := h.tidy.forget actor topic
  get?_eq actor' topic' := by
    rw [get?_forget_eq_ite, getElem?_erase_eq_ite, h.get?_eq]
    simp only [Prod.mk.injEq]

theorem Flattens.forgetActor (h : m.Flattens f) (actor : ActorId) :
    (m.forgetActor actor).Flattens (f.filter fun place _ ↦ place.1 != actor) where
  tidy := h.tidy.forgetActor actor
  get?_eq actor' topic := by
    rw [get?_forgetActor, Std.ExtTreeMap.getElem?_filter', h.get?_eq]
    cases f[(actor', topic)]? with
    | none => split <;> rfl
    | some value =>
      rw [Option.filter_some]
      by_cases hactor : actor = actor'
      · rw [if_pos hactor, if_neg fun hother ↦ bne_iff_ne.mp hother hactor.symm]
      · rw [if_neg hactor, if_pos (bne_iff_ne.mpr (Ne.symm hactor))]

theorem Flattens.apply (h : m.Flattens f) (e : Edit) : (e.apply m).Flattens (f.apply e) := by
  cases e with
  | set actor topic value => exact h.set actor topic value
  | setPosition actor topic p => exact h.set actor topic p.text
  | forget actor topic => exact h.forget actor topic
  | forgetActor actor => exact h.forgetActor actor

theorem Flattens.run (h : m.Flattens f) (es : List Edit) : (m.run es).Flattens (f.run es) := by
  induction es generalizing m f with
  | nil => exact h
  | cons e es ih => exact ih (h.apply e)

/-! ## 3. Actors -/

/-- An actor is listed if and only if it remembers something. -/
theorem Tidy.mem_slots_iff (h : m.Tidy) {actor : ActorId} :
    actor ∈ m.slots ↔ ∃ topic, m.contains actor topic = true := by
  rw [Std.ExtTreeMap.mem_iff_isSome_getElem?, Option.isSome_iff_exists]
  constructor
  · rintro ⟨topics, htopics⟩
    obtain ⟨topic, htopic⟩ : ∃ topic, topic ∈ topics := by
      by_contra hnone
      exact h htopics (Std.ExtTreeMap.eq_empty_iff_forall_not_mem.mpr (not_exists.mp hnone))
    refine ⟨topic, ?_⟩
    rw [contains, get?, Memory.topics, htopics]
    exact Std.ExtTreeMap.isSome_getElem?_iff_mem.mpr htopic
  · rintro ⟨topic, htopic⟩
    cases hactor : m.slots[actor]? with
    | some topics => exact ⟨topics, rfl⟩
    | none =>
      rw [contains, get?, topics, hactor, Option.getD_none, Std.ExtTreeMap.getElem?_empty] at htopic
      cases htopic

theorem Flattens.contains_eq (h : m.Flattens f) (actor : ActorId) (topic : Topic) :
    m.contains actor topic = f.contains (actor, topic) := by
  rw [contains, h.get?_eq, Std.ExtTreeMap.contains_eq_isSome_getElem?]

theorem Flattens.actorCount_eq (h : m.Flattens f) : m.actorCount = f.actorCount := by
  -- only as sets, since the keys of `f` name an actor once for each of its topics
  have hactors : m.slots.keys.toFinset = (f.keys.map Prod.fst).toFinset := by
    ext actor
    rw [List.mem_toFinset, Std.ExtTreeMap.mem_keys, h.tidy.mem_slots_iff, List.mem_toFinset,
      List.mem_map]
    constructor
    · rintro ⟨topic, htopic⟩
      rw [h.contains_eq] at htopic
      exact ⟨(actor, topic), Std.ExtTreeMap.mem_keys.mpr htopic, rfl⟩
    · rintro ⟨⟨actor, topic⟩, htopic, rfl⟩
      exact ⟨topic, (h.contains_eq actor topic).trans (Std.ExtTreeMap.mem_keys.mp htopic)⟩
  rw [actorCount, Flat.actorCount, ← hactors, List.toFinset_card_of_nodup Std.ExtTreeMap.nodup_keys,
    Std.ExtTreeMap.length_keys]

/-! ## 4. Positions that are kept -/

/-- Whether a request is about what an actor remembers under a topic. -/
def Edit.isAbout (actor : ActorId) (topic : Topic) : Edit → Bool
  | set actor' topic' _ | setPosition actor' topic' _ | forget actor' topic' =>
    actor' == actor && topic' == topic
  | forgetActor actor' => actor' == actor

variable {actor : ActorId} {topic : Topic}

theorem get?_apply {e : Edit} (h : e.isAbout actor topic = false) :
    (e.apply m).get? actor topic = m.get? actor topic := by
  have hother : ∀ {actor' topic'}, (actor' == actor && topic' == topic) = false →
      ¬ (actor' = actor ∧ topic' = topic) := by
    intro actor' topic' h
    rwa [Bool.and_eq_false_eq_eq_false_or_eq_false, beq_eq_false_iff_ne, beq_eq_false_iff_ne,
      ← not_and_or] at h
  cases e with
  | set actor' topic' value =>
    exact (get?_set m actor' topic' value actor topic).trans (if_neg (hother h))
  | setPosition actor' topic' p =>
    exact (get?_set m actor' topic' p.text actor topic).trans (if_neg (hother h))
  | forget actor' topic' =>
    exact (get?_forget_eq_ite m actor' topic' actor topic).trans (if_neg (hother h))
  | forgetActor actor' =>
    exact (get?_forgetActor m actor' actor topic).trans (if_neg (beq_eq_false_iff_ne.mp h))

theorem get?_run {es : List Edit} (h : ∀ e ∈ es, e.isAbout actor topic = false) :
    (m.run es).get? actor topic = m.get? actor topic := by
  induction es generalizing m with
  | nil => rfl
  | cons e es ih =>
    obtain ⟨he, hes⟩ := List.forall_mem_cons.mp h
    rw [run, ih hes, get?_apply he]

theorem run_append (m : Memory) (es es' : List Edit) : m.run (es ++ es') = (m.run es).run es' := by
  induction es generalizing m with
  | nil => rfl
  | cons e es ih => exact ih (e.apply m)

/-- A position is read back until there is another request about it. -/
theorem position?_run {es : List Edit} (p : Position)
    (h : ∀ e ∈ es, e.isAbout actor topic = false) :
    ((m.setPosition actor topic p).run es).position? actor topic = some p := by
  rw [position?, get?_run h, ← position?, position?_setPosition]

/-- After any requests a memory is to whoever asks it the single map that has gone through the same
requests: it holds the same under every pair, tells the same when it forgets, counts the actors of
that map and lists its pairs in ascending order. And a position that is noted is read back until
there is a request about it. -/
theorem run_flattens :
    (∀ es : List Edit, let m := empty.run es; let f := Flat.run ∅ es
      (∀ actor topic, m.get? actor topic = f[(actor, topic)]?) ∧
      (∀ actor topic, m.contains actor topic = f.contains (actor, topic)) ∧
      (∀ actor topic, m.withdraw actor topic =
        (f[(actor, topic)]?, empty.run (es ++ [.forget actor topic]))) ∧
      m.actorCount = f.actorCount ∧
      (∀ e : MemoryEntry, e ∈ m.entries ↔ f[(e.actor, e.topic)]? = some e.value) ∧
      m.entries.Pairwise MemoryEntry.Precedes) ∧
    ∀ (es es' : List Edit) (actor : ActorId) (topic : Topic) (p : Position),
      (∀ e ∈ es', e.isAbout actor topic = false) →
      (empty.run (es ++ .setPosition actor topic p :: es')).position? actor topic = some p := by
  constructor
  · intro es m f
    have h : m.Flattens f := flattens_empty.run es
    refine ⟨h.get?_eq, h.contains_eq, ?_, h.actorCount_eq, ?_, m.entries_ascend⟩
    · intro actor topic
      rw [withdraw, h.get?_eq, run_append]
      rfl
    · intro e
      rw [mem_entries, h.get?_eq]
  · intro es es' actor topic p h
    rw [run_append]
    exact position?_run p h

/-- Two actors' notes, one of them taken back. -/
theorem note_flattens :
    let before : List Edit := [.set ⟨3⟩ .lastMined "4,4"]
    let after : List Edit := [.forget ⟨3⟩ .lastMined, .setPosition ⟨4⟩ .lastTarget ⟨1, 2⟩]
    (∀ e ∈ after, e.isAbout ⟨3⟩ .lastTarget = false) ∧
      (empty.run (before ++ .setPosition ⟨3⟩ .lastTarget ⟨-7, 8⟩ :: after)).position? ⟨3⟩
        .lastTarget = some ⟨-7, 8⟩ :=
  ⟨by decide, run_flattens.2 _ _ _ _ _ (by decide)⟩

end Delve.Memory
