import Delve.Memory
import Delve.Proofs.Coordinates
import Delve.Proofs.Map
import Mathlib.Data.List.Induction
/-!
# What a memory holds

A memory is saved as the list of its entries and read back from such a list. Nothing is lost on
the way, but only because no memory ever lists an actor that remembers nothing: two memories that
answer every question alike would still differ in such actors, and a list of entries cannot speak
of them. A list that was not written by a memory may be in any order and name a thing several
times; read and written again it is in order, and of what it says about a thing the last word
stands.
-/

namespace Delve

/-! ## 1. Entries -/

namespace MemoryEntry

/-- Whether the entry says what an actor remembers under a topic. -/
def isAbout (e : MemoryEntry) (actor : ActorId) (topic : Topic) : Bool :=
  e.actor == actor && e.topic == topic

/-- Entries ascend by the number of the actor, those of one actor by the rank of the topic. -/
def Precedes (e e' : MemoryEntry) : Prop :=
  e.actor.number < e'.actor.number ∨ e.actor = e'.actor ∧ e.topic.rank < e'.topic.rank

variable {e e' : MemoryEntry} {actor : ActorId} {topic : Topic}

theorem isAbout_iff : e.isAbout actor topic = true ↔ e.actor = actor ∧ e.topic = topic := by
  rw [isAbout, Bool.and_eq_true, beq_iff_eq, beq_iff_eq]

theorem eq_of_isAbout (h : e.isAbout actor topic = true) : e = ⟨actor, topic, e.value⟩ := by
  obtain ⟨rfl, rfl⟩ := isAbout_iff.mp h
  rfl

theorem Precedes.of_actor (h : compare e.actor e'.actor = .lt) : e.Precedes e' :=
  Or.inl (compareOfLessAndEq_eq_lt.mp h)

theorem Precedes.of_topic (hactor : e.actor = e'.actor) (h : compare e.topic e'.topic = .lt) :
    e.Precedes e' :=
  Or.inr ⟨hactor, compareOfLessAndEq_eq_lt.mp h⟩

/-- Of two entries about one thing neither stands before the other. -/
theorem not_precedes_of_isAbout (h : e.isAbout actor topic = true)
    (h' : e'.isAbout actor topic = true) : ¬e.Precedes e' := by
  obtain ⟨rfl, rfl⟩ := isAbout_iff.mp h
  obtain ⟨hactor, htopic⟩ := isAbout_iff.mp h'
  rintro (hlt | ⟨-, hlt⟩)
  · rw [hactor] at hlt
    exact UInt32.lt_irrefl _ hlt
  · rw [htopic] at hlt
    exact Nat.lt_irrefl _ hlt

/-- Entries in order say at most one thing about each thing. -/
theorem length_filter_le_one {entries : List MemoryEntry} (h : entries.Pairwise Precedes)
    (actor : ActorId) (topic : Topic) : (entries.filter (·.isAbout actor topic)).length ≤ 1 := by
  have hpairwise := h.filter (·.isAbout actor topic)
  have habout : ∀ e ∈ entries.filter (·.isAbout actor topic), e.isAbout actor topic = true :=
    fun e he ↦ (List.mem_filter.mp he).2
  cases hfilter : entries.filter (·.isAbout actor topic) with
  | nil => exact Nat.zero_le 1
  | cons e rest =>
    rw [hfilter] at hpairwise habout
    cases rest with
    | nil => exact Nat.le_refl 1
    | cons e' rest =>
      have hprecedes : e.Precedes e' := List.rel_of_pairwise_cons hpairwise List.mem_cons_self
      exact absurd hprecedes (not_precedes_of_isAbout (habout e List.mem_cons_self)
        (habout e' (List.mem_cons_of_mem _ List.mem_cons_self)))

end MemoryEntry

namespace Memory

variable {m n : Memory}

/-! ## 2. Memories without forgotten actors -/

/-- No actor is listed without a memory. -/
def Tidy (m : Memory) : Prop :=
  ∀ ⦃actor : ActorId⦄ ⦃topics : Std.ExtTreeMap Topic String⦄,
    m.slots[actor]? = some topics → topics ≠ ∅

theorem topics_set (m : Memory) (actor : ActorId) (topic : Topic) (value : String)
    (actor' : ActorId) : (m.set actor topic value).topics actor' =
      if actor = actor' then (m.topics actor).insert topic value else m.topics actor' := by
  rw [topics, set, getElem?_insert_eq_ite]
  split <;> rfl

theorem get?_set (m : Memory) (actor : ActorId) (topic : Topic) (value : String)
    (actor' : ActorId) (topic' : Topic) : (m.set actor topic value).get? actor' topic' =
      if actor = actor' ∧ topic = topic' then some value else m.get? actor' topic' := by
  rw [get?, topics_set]
  by_cases hactor : actor = actor'
  · rw [if_pos hactor, getElem?_insert_eq_ite, hactor, ← get?]
    simp only [true_and]
  · rw [if_neg hactor, if_neg (fun h ↦ hactor h.1), get?]

theorem topics_forget (m : Memory) (actor : ActorId) (topic : Topic) (actor' : ActorId) :
    (m.forget actor topic).topics actor' =
      if actor = actor' then (m.topics actor).erase topic else m.topics actor' := by
  rw [topics, forget]
  dsimp only
  split
  · rename_i hrest
    rw [getElem?_erase_eq_ite]
    split
    · exact (Std.ExtTreeMap.isEmpty_iff.mp hrest).symm
    · rfl
  · rw [getElem?_insert_eq_ite]
    split <;> rfl

theorem get?_forget_eq_ite (m : Memory) (actor : ActorId) (topic : Topic) (actor' : ActorId)
    (topic' : Topic) : (m.forget actor topic).get? actor' topic' =
      if actor = actor' ∧ topic = topic' then none else m.get? actor' topic' := by
  rw [get?, topics_forget]
  by_cases hactor : actor = actor'
  · rw [if_pos hactor, getElem?_erase_eq_ite, hactor, ← get?]
    simp only [true_and]
  · rw [if_neg hactor, if_neg (fun h ↦ hactor h.1), get?]

theorem get?_forgetActor (m : Memory) (actor actor' : ActorId) (topic : Topic) :
    (m.forgetActor actor).get? actor' topic =
      if actor = actor' then none else m.get? actor' topic := by
  rw [get?, topics, forgetActor, getElem?_erase_eq_ite]
  split <;> rfl

theorem position?_setPosition (m : Memory) (actor : ActorId) (topic : Topic) (p : Position) :
    (m.setPosition actor topic p).position? actor topic = some p := by
  rw [position?, setPosition, get?_set, if_pos ⟨rfl, rfl⟩, Option.bind_some, Position.parse?_text]

theorem tidy_empty : empty.Tidy := by
  intro actor topics h
  rw [empty, Std.ExtTreeMap.getElem?_empty] at h
  cases h

theorem Tidy.set (h : m.Tidy) (actor : ActorId) (topic : Topic) (value : String) :
    (m.set actor topic value).Tidy := by
  intro actor' topics htopics
  obtain ⟨-, rfl⟩ | htopics := getElem?_insert_eq_some htopics
  · exact Std.ExtTreeMap.insert_ne_empty
  · exact h htopics

theorem Tidy.forgetActor (h : m.Tidy) (actor : ActorId) : (m.forgetActor actor).Tidy :=
  fun _ _ htopics ↦ h (getElem?_of_erase htopics)

theorem Tidy.forget (h : m.Tidy) (actor : ActorId) (topic : Topic) :
    (m.forget actor topic).Tidy := by
  by_cases hrest : ((m.topics actor).erase topic).isEmpty = true
  · rw [Memory.forget, if_pos hrest]
    exact h.forgetActor actor
  · rw [Memory.forget, if_neg hrest]
    intro actor' topics htopics
    obtain ⟨-, rfl⟩ | htopics := getElem?_insert_eq_some htopics
    · exact fun hempty ↦ hrest (Std.ExtTreeMap.isEmpty_iff.mpr hempty)
    · exact h htopics

theorem Tidy.slots_eq (h : m.Tidy) (actor : ActorId) :
    m.slots[actor]? = if m.topics actor = ∅ then none else some (m.topics actor) := by
  rw [topics]
  cases hactor : m.slots[actor]? with
  | none => rfl
  | some topics => exact (if_neg (h hactor)).symm

/-- Tidy memories that answer every question alike are one. -/
theorem Tidy.ext (hm : m.Tidy) (hn : n.Tidy)
    (h : ∀ actor topic, m.get? actor topic = n.get? actor topic) : m = n := by
  have hslots : m.slots = n.slots := by
    apply Std.ExtTreeMap.ext_getElem?
    intro actor
    have htopics : m.topics actor = n.topics actor := Std.ExtTreeMap.ext_getElem? (h actor)
    rw [hm.slots_eq, hn.slots_eq, htopics]
  cases m
  cases n
  exact congrArg Memory.mk hslots

/-! ## 3. The entries of a memory -/

theorem mem_entries {e : MemoryEntry} (m : Memory) :
    e ∈ m.entries ↔ m.get? e.actor e.topic = some e.value := by
  rw [entries, List.mem_flatMap]
  constructor
  · rintro ⟨⟨actor, topics⟩, hactor, he⟩
    obtain ⟨⟨topic, value⟩, hvalue, rfl⟩ := List.mem_map.mp he
    rw [Std.ExtTreeMap.mem_toList_iff_getElem?_eq_some] at hactor hvalue
    rw [get?, Memory.topics, hactor]
    exact hvalue
  · intro he
    cases hactor : m.slots[e.actor]? with
    | none =>
      rw [get?, topics, hactor, Option.getD, Std.ExtTreeMap.getElem?_empty] at he
      cases he
    | some topics =>
      rw [get?, Memory.topics, hactor] at he
      exact ⟨(e.actor, topics), Std.ExtTreeMap.mem_toList_iff_getElem?_eq_some.mpr hactor,
        List.mem_map.mpr ⟨(e.topic, e.value),
          Std.ExtTreeMap.mem_toList_iff_getElem?_eq_some.mpr he, rfl⟩⟩

theorem entries_ascend (m : Memory) : m.entries.Pairwise MemoryEntry.Precedes := by
  rw [entries, List.pairwise_flatMap]
  constructor
  · rintro ⟨actor, topics⟩ -
    rw [List.pairwise_map]
    exact Std.ExtTreeMap.ordered_keys_toList.imp fun h ↦ .of_topic rfl h
  · refine Std.ExtTreeMap.ordered_keys_toList.imp fun h e he e' he' ↦ ?_
    obtain ⟨_, -, rfl⟩ := List.mem_map.mp he
    obtain ⟨_, -, rfl⟩ := List.mem_map.mp he'
    exact .of_actor h

/-- What the entries of a memory say about a thing is what the memory holds of it. -/
theorem filter_entries (m : Memory) (actor : ActorId) (topic : Topic) :
    m.entries.filter (·.isAbout actor topic) =
      ((m.get? actor topic).map fun value ↦ ⟨actor, topic, value⟩).toList := by
  have hmem : ∀ e, e ∈ m.entries.filter (·.isAbout actor topic) ↔
      ∃ value, m.get? actor topic = some value ∧ ⟨actor, topic, value⟩ = e := by
    intro e
    rw [List.mem_filter, mem_entries, MemoryEntry.isAbout_iff]
    constructor
    · rintro ⟨hvalue, rfl, rfl⟩
      exact ⟨e.value, hvalue, rfl⟩
    · rintro ⟨value, hvalue, rfl⟩
      exact ⟨hvalue, rfl, rfl⟩
  cases hvalue : m.get? actor topic with
  | none =>
    refine List.eq_nil_iff_forall_not_mem.mpr fun e he ↦ ?_
    obtain ⟨value, hsome, -⟩ := (hmem e).mp he
    rw [hvalue] at hsome
    cases hsome
  | some value =>
    have he := (hmem ⟨actor, topic, value⟩).mpr ⟨value, hvalue, rfl⟩
    have hlength := MemoryEntry.length_filter_le_one m.entries_ascend actor topic
    obtain ⟨e, hfilter⟩ := List.length_eq_one_iff.mp
      (Nat.le_antisymm hlength (List.length_pos_of_mem he))
    rw [hfilter] at he ⊢
    exact congrArg (fun e ↦ [e]) (List.mem_singleton.mp he).symm

/-! ## 4. Reading entries -/

theorem ofEntries_concat (entries : List MemoryEntry) (e : MemoryEntry) :
    ofEntries (entries ++ [e]) = (ofEntries entries).set e.actor e.topic e.value := by
  rw [ofEntries, List.foldl_append]
  rfl

theorem tidy_ofEntries (entries : List MemoryEntry) : (ofEntries entries).Tidy := by
  induction entries using List.reverseRecOn with
  | nil => exact tidy_empty
  | append_singleton entries e ih =>
    rw [ofEntries_concat]
    exact ih.set e.actor e.topic e.value

/-- Of what is read about a thing the last word is remembered. -/
theorem get?_ofEntries (entries : List MemoryEntry) (actor : ActorId) (topic : Topic) :
    (ofEntries entries).get? actor topic =
      (entries.filter (·.isAbout actor topic)).getLast?.map MemoryEntry.value := by
  induction entries using List.reverseRecOn with
  | nil =>
    rfl
  | append_singleton entries e ih =>
    rw [ofEntries_concat, get?_set, List.filter_append, List.filter_singleton]
    cases habout : e.isAbout actor topic with
    | true =>
      rw [if_pos (MemoryEntry.isAbout_iff.mp habout), cond_true, List.getLast?_concat]
      rfl
    | false =>
      rw [← Bool.not_eq_true, MemoryEntry.isAbout_iff] at habout
      rw [if_neg habout, cond_false, List.append_nil, ih]

/-- A tidy memory is read back from its entries. -/
theorem Tidy.ofEntries_entries (h : m.Tidy) : ofEntries m.entries = m := by
  refine (tidy_ofEntries m.entries).ext h fun actor topic ↦ ?_
  rw [get?_ofEntries, filter_entries]
  cases m.get? actor topic <;> rfl

/-- Written again, the entries that were read hold of each thing the last word about it. -/
theorem filter_entries_ofEntries (entries : List MemoryEntry) (actor : ActorId) (topic : Topic) :
    (ofEntries entries).entries.filter (·.isAbout actor topic) =
      (entries.filter (·.isAbout actor topic)).getLast?.toList := by
  rw [filter_entries, get?_ofEntries, Option.map_map]
  cases hlast : (entries.filter (·.isAbout actor topic)).getLast? with
  | none => rfl
  | some e =>
    have he := (List.mem_filter.mp (List.mem_of_getLast? hlast)).2
    exact congrArg (fun e ↦ [e]) (MemoryEntry.eq_of_isAbout he).symm

/-! ## 5. Histories -/

/-- A request to change a memory. -/
inductive Edit where
  | set (actor : ActorId) (topic : Topic) (value : String)
  | setPosition (actor : ActorId) (topic : Topic) (p : Position)
  | forget (actor : ActorId) (topic : Topic)
  | forgetActor (actor : ActorId)

/-- The memory after a request. -/
def Edit.apply (m : Memory) : Edit → Memory
  | set actor topic value => m.set actor topic value
  | setPosition actor topic p => m.setPosition actor topic p
  | forget actor topic => m.forget actor topic
  | forgetActor actor => m.forgetActor actor

/-- The memory after a list of requests. -/
def run (m : Memory) : List Edit → Memory
  | [] => m
  | e :: es => (e.apply m).run es

theorem Tidy.apply (h : m.Tidy) (e : Edit) : (e.apply m).Tidy := by
  cases e with
  | set actor topic value => exact h.set actor topic value
  | setPosition actor topic p => exact h.set actor topic p.text
  | forget actor topic => exact h.forget actor topic
  | forgetActor actor => exact h.forgetActor actor

theorem Tidy.run (h : m.Tidy) (es : List Edit) : (m.run es).Tidy := by
  induction es generalizing m with
  | nil => exact h
  | cons e es ih => exact ih (h.apply e)

/-- A memory with any history is saved and read back as it is, and any list of entries that is
read and saved comes out in order, with the last word about each thing that it speaks of and
nothing else. -/
theorem entries_roundTrip :
    (∀ edits : List Edit, ofEntries (empty.run edits).entries = empty.run edits) ∧
      ∀ entries : List MemoryEntry,
        (ofEntries entries).entries.Pairwise MemoryEntry.Precedes ∧
          ∀ actor topic, (ofEntries entries).entries.filter (·.isAbout actor topic) =
            (entries.filter (·.isAbout actor topic)).getLast?.toList :=
  ⟨fun edits ↦ (tidy_empty.run edits).ofEntries_entries, fun entries ↦
    ⟨entries_ascend _, filter_entries_ofEntries entries⟩⟩

example : (ofEntries [⟨⟨4⟩, .lastMined, "1,1"⟩, ⟨⟨3⟩, .lastTarget, "2,2"⟩,
    ⟨⟨4⟩, .lastMined, "5,6"⟩]).entries =
      [⟨⟨3⟩, .lastTarget, "2,2"⟩, ⟨⟨4⟩, .lastMined, "5,6"⟩] := by
  decide

end Memory

end Delve
