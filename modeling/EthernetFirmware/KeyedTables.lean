import Mathlib.Data.Finmap
import EthernetFirmware.SlotTables

/-!
# Tables with keys

A table of slots in which some are live and every live slot has a key. When
live slots have different keys, the table is a finite map from keys to
entries. The module finds the slot of a key, and follows the map through
the three updates such a table makes: a live slot is rewritten under its
own key, a dead slot is filled under a new key, and a live slot is cleared.
-/

namespace EthernetFirmware.KeyedTables

open Function SlotTables

variable {n : ℕ} {β κ ν : Type*}

/-- Live slots have different keys. -/
def Distinct (live : β → Bool) (key : β → κ) (t : Fin n → β) : Prop :=
  ∀ i j, live (t i) = true → live (t j) = true → key (t i) = key (t j) → i = j

section Distinct

variable {live : β → Bool} {key : β → κ} {t : Fin n → β} {i : Fin n} {b : β}

/-- Rewriting a slot under its own key keeps the keys different. -/
theorem distinct_rewrite (hd : Distinct live key t) (hi : live (t i) = true)
    (hk : key b = key (t i)) : Distinct live key (update t i b) := by
  intro j l hj hl hjl
  by_cases hji : j = i
  · by_cases hli : l = i
    · rw [hji,hli]
    · subst hji
      rw [update_self,update_of_ne hli,hk] at hjl
      rw [update_of_ne hli] at hl
      exact hd j l hi hl hjl
  · rw [update_of_ne hji] at hj hjl
    by_cases hli : l = i
    · subst hli
      rw [update_self,hk] at hjl
      exact hd j l hj hi hjl
    · rw [update_of_ne hli] at hl hjl
      exact hd j l hj hl hjl

/-- Clearing a slot keeps the keys different. -/
theorem distinct_clear (hd : Distinct live key t) (hb : live b = false) :
    Distinct live key (update t i b) := by
  intro j l hj hl hjl
  have hne : ∀ j, live (update t i b j) = true → j ≠ i := by
    rintro j hj rfl
    rw [update_self,hb] at hj
    exact absurd hj (by decide)
  have hji := hne j hj
  have hli := hne l hl
  rw [update_of_ne hji] at hj hjl
  rw [update_of_ne hli] at hl hjl
  exact hd j l hj hl hjl

end Distinct

variable [DecidableEq κ]

section Definitions

variable (live : β → Bool) (key : β → κ)

/-- First live slot of a key. -/
def slotOf (t : Fin n → β) (k : κ) : Option (Fin n) :=
  firstSlot (fun e => live e && decide (key e = k)) t

/-- Entry of a key. -/
def entryOf (t : Fin n → β) (k : κ) : Option β := (slotOf live key t k).map t

/-- Keys of the live slots. -/
def keysOf (t : Fin n → β) : Finset κ := (passing live t).image fun i => key (t i)

/-- The table holds a finite map, whose values are read from the entries. -/
structure Holds (val : β → ν) (t : Fin n → β) (m : Finmap fun _ : κ => ν) : Prop where
  /-- Live slots have different keys. -/
  distinct : Distinct live key t
  /-- The entry of a key has its value. -/
  lookup : ∀ k, m.lookup k = (entryOf live key t k).map val

end Definitions

variable {live : β → Bool} {key : β → κ} {val : β → ν} {t : Fin n → β} {i j : Fin n} {b : β}
  {k l : κ} {m : Finmap fun _ : κ => ν}

theorem slotOf_eq_none_iff :
    slotOf live key t k = none ↔ ∀ i, live (t i) = true → key (t i) ≠ k := by
  unfold slotOf
  rw [firstSlot_eq_none_iff]
  refine forall_congr' fun i => ?_
  cases live (t i) <;> simp

theorem live_of_slotOf (h : slotOf live key t k = some i) :
    live (t i) = true ∧ key (t i) = k := by
  have hi := (firstSlot_eq_some_iff.mp h).1
  simpa using hi

/-- With different keys, the live slot of a key is the one found. -/
theorem slotOf_eq_some_iff (hd : Distinct live key t) :
    slotOf live key t k = some i ↔ live (t i) = true ∧ key (t i) = k := by
  constructor
  · exact live_of_slotOf
  · rintro ⟨hl,hk⟩
    refine firstSlot_eq_of_unique (by simp [hl,hk]) fun j hj => ?_
    obtain ⟨hlj,hkj⟩ : live (t j) = true ∧ key (t j) = k := by simpa using hj
    exact hd j i hlj hl (hkj.trans hk.symm)

theorem entryOf_eq_none_iff :
    entryOf live key t k = none ↔ ∀ i, live (t i) = true → key (t i) ≠ k := by
  unfold entryOf
  rw [Option.map_eq_none_iff,slotOf_eq_none_iff]

/-- With different keys, the entry of a key is that of its live slot. -/
theorem entryOf_eq_some_iff (hd : Distinct live key t) :
    entryOf live key t k = some b ↔ ∃ i, live (t i) = true ∧ key (t i) = k ∧ t i = b := by
  unfold entryOf
  rw [Option.map_eq_some_iff]
  refine exists_congr fun i => ?_
  rw [slotOf_eq_some_iff hd,and_assoc]

theorem mem_keysOf : k ∈ keysOf live key t ↔ ∃ i, live (t i) = true ∧ key (t i) = k := by
  simp [keysOf]

theorem notMem_keysOf_iff : k ∉ keysOf live key t ↔ entryOf live key t k = none := by
  rw [mem_keysOf,entryOf_eq_none_iff]
  simp

/-- Different keys are as many as the live slots. -/
theorem card_keysOf (hd : Distinct live key t) :
    (keysOf live key t).card = slotCount live t := by
  apply Finset.card_image_of_injOn
  intro i hi j hj hk
  exact hd i j (mem_passing.mp hi) (mem_passing.mp hj) hk

/-- Filling a slot under a new key keeps the keys different. -/
theorem distinct_fill (hd : Distinct live key t) (hk : entryOf live key t (key b) = none) :
    Distinct live key (update t i b) := by
  rw [entryOf_eq_none_iff] at hk
  intro j l hj hl hjl
  by_cases hji : j = i
  · by_cases hli : l = i
    · rw [hji,hli]
    · subst hji
      rw [update_self,update_of_ne hli] at hjl
      rw [update_of_ne hli] at hl
      exact absurd hjl.symm (hk l hl)
  · rw [update_of_ne hji] at hj hjl
    by_cases hli : l = i
    · subst hli
      rw [update_self] at hjl
      exact absurd hjl (hk j hj)
    · rw [update_of_ne hli] at hl hjl
      exact hd j l hj hl hjl

/-- The entry of a key that an update of one slot does not concern. -/
theorem entryOf_update_of_ne (hd : Distinct live key t)
    (hd' : Distinct live key (update t i b)) (hold : live (t i) = true → key (t i) ≠ k)
    (hnew : live b = true → key b ≠ k) :
    entryOf live key (update t i b) k = entryOf live key t k := by
  refine Option.ext fun e => ?_
  rw [entryOf_eq_some_iff hd,entryOf_eq_some_iff hd']
  refine exists_congr fun j => ?_
  by_cases hj : j = i
  · subst hj
    rw [update_self]
    exact iff_of_false (fun h => hnew h.1 h.2.1) (fun h => hold h.1 h.2.1)
  · rw [update_of_ne hj]

theorem Holds.mem_iff (h : Holds live key val t m) :
    k ∈ m ↔ entryOf live key t k ≠ none := by
  rw [← Finmap.lookup_isSome,h.lookup,Option.isSome_map,Option.isSome_iff_ne_none]

/-- The map has the keys of the table. -/
theorem Holds.keys (h : Holds live key val t m) : m.keys = keysOf live key t := by
  ext k
  rw [Finmap.mem_keys,h.mem_iff,Ne,← notMem_keysOf_iff,not_not]

/-- The map has as many keys as the table has live slots. -/
theorem Holds.card (h : Holds live key val t m) : m.keys.card = slotCount live t := by
  rw [h.keys,card_keysOf h.distinct]

/-- A key of the map has a slot. -/
theorem Holds.slot (h : Holds live key val t m) (hk : k ∈ m) :
    ∃ i, slotOf live key t k = some i ∧ m.lookup k = some (val (t i)) := by
  obtain ⟨e,he⟩ := Option.ne_none_iff_exists'.mp (h.mem_iff.mp hk)
  obtain ⟨i,hi,rfl⟩ := Option.map_eq_some_iff.mp he
  exact ⟨i,hi,by rw [h.lookup,he]; rfl⟩

/-- A key that is not in the map has none. -/
theorem Holds.noSlot (h : Holds live key val t m) (hk : k ∉ m) : slotOf live key t k = none := by
  have hnone : entryOf live key t k = none := by
    by_contra hne
    exact hk (h.mem_iff.mpr hne)
  exact Option.map_eq_none_iff.mp hnone

/-- A table of dead slots holds the empty map. -/
theorem holds_empty (h : ∀ i, live (t i) = false) : Holds live key val t ∅ := by
  constructor
  · intro i j hi
    rw [h i] at hi
    exact absurd hi (by decide)
  · intro k
    rw [Finmap.lookup_empty,entryOf_eq_none_iff.mpr]
    · rfl
    · intro i hi
      rw [h i] at hi
      exact absurd hi (by decide)

/-- Rewriting the slot of a key replaces its value. -/
theorem Holds.rewrite (h : Holds live key val t m) (hi : slotOf live key t k = some i)
    (hl : live b = true) (hk : key b = k) :
    Holds live key val (update t i b) (m.insert k (val b)) := by
  obtain ⟨hli,hki⟩ := live_of_slotOf hi
  have hd := distinct_rewrite h.distinct hli (hk.trans hki.symm)
  refine ⟨hd,fun l => ?_⟩
  by_cases hlk : l = k
  · subst hlk
    rw [Finmap.lookup_insert,(entryOf_eq_some_iff hd).mpr ⟨i,?_,?_,rfl⟩]
    · rw [update_self]
      rfl
    · rwa [update_self]
    · rwa [update_self]
  · rw [Finmap.lookup_insert_of_ne _ hlk,h.lookup,entryOf_update_of_ne h.distinct hd]
    · rintro - rfl
      exact hlk hki
    · rintro - rfl
      exact hlk hk

/-- Filling a dead slot under a new key adds it to the map. -/
theorem Holds.fill (h : Holds live key val t m) (hi : live (t i) = false) (hm : k ∉ m)
    (hl : live b = true) (hk : key b = k) :
    Holds live key val (update t i b) (m.insert k (val b)) := by
  have hnone : entryOf live key t (key b) = none := by
    by_contra hne
    rw [hk] at hne
    exact hm (h.mem_iff.mpr hne)
  have hd := distinct_fill (i := i) h.distinct hnone
  refine ⟨hd,fun l => ?_⟩
  by_cases hlk : l = k
  · subst hlk
    rw [Finmap.lookup_insert,(entryOf_eq_some_iff hd).mpr ⟨i,?_,?_,rfl⟩]
    · rw [update_self]
      rfl
    · rwa [update_self]
    · rwa [update_self]
  · rw [Finmap.lookup_insert_of_ne _ hlk,h.lookup,entryOf_update_of_ne h.distinct hd]
    · intro hlive
      rw [hi] at hlive
      exact absurd hlive (by decide)
    · rintro - rfl
      exact hlk hk

/-- Clearing the slot of a key removes it from the map. -/
theorem Holds.clear (h : Holds live key val t m) (hi : slotOf live key t k = some i)
    (hl : live b = false) : Holds live key val (update t i b) (m.erase k) := by
  obtain ⟨hli,hki⟩ := live_of_slotOf hi
  have hd := distinct_clear (i := i) h.distinct hl
  refine ⟨hd,fun l => ?_⟩
  by_cases hlk : l = k
  · subst hlk
    rw [Finmap.lookup_erase,entryOf_eq_none_iff.mpr]
    · rfl
    · intro j hj hkj
      by_cases hji : j = i
      · subst hji
        rw [update_self,hl] at hj
        exact absurd hj (by decide)
      · rw [update_of_ne hji] at hj hkj
        exact hji (h.distinct j i hj hli (hkj.trans hki.symm))
  · rw [Finmap.lookup_erase_ne hlk,h.lookup,entryOf_update_of_ne h.distinct hd]
    · rintro - rfl
      exact hlk hki
    · intro hb
      rw [hl] at hb
      exact absurd hb (by decide)

end EthernetFirmware.KeyedTables
