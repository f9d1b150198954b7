import EthernetFirmware.SlotTables
import Mathlib.Data.List.OfFn

/-!
# Tables filled from the front

Tables whose taken slots come first, in the order in which they were taken,
as arrays are that are filled by a search for the first free slot and only
ever cleared as a whole. Such a table stands for the list of its taken
slots: searches and listings of the table are searches and listings of it.
-/

namespace EthernetFirmware.FilledTables

open Function SlotTables

variable {n : ℕ} {β : Type*} {p q : β → Bool} {t : Fin n → β} {l : List β} {b : β}

/-- The taken slots, those that pass the test, are the first ones and hold
the list. -/
structure Fills (p : β → Bool) (t : Fin n → β) (l : List β) : Prop where
  /-- There is a slot for every entry. -/
  length_le : l.length ≤ n
  /-- An entry is in the slot of its position. -/
  get : ∀ (i : Fin n) (h : i.val < l.length), t i = l[i.val]
  /-- The slots of entries are taken. -/
  taken : ∀ b ∈ l, p b = true
  /-- The slots after them are free. -/
  free : ∀ i : Fin n, l.length ≤ i → p (t i) = false

theorem fills_nil (h : ∀ i, p (t i) = false) : Fills p t [] :=
  ⟨Nat.zero_le _,fun _ hi => absurd hi (Nat.not_lt_zero _),fun _ hb => absurd hb List.not_mem_nil,
    fun i _ => h i⟩

namespace Fills

/-- The whole table is the list and free slots after it. -/
theorem ofFn_eq (h : Fills p t l) : ∃ rest, List.ofFn t = l ++ rest ∧ ∀ b ∈ rest, p b = false := by
  refine ⟨(List.ofFn t).drop l.length,?_,?_⟩
  · have htake : (List.ofFn t).take l.length = l := by
      apply List.ext_getElem
      · have := h.length_le
        rw [List.length_take,List.length_ofFn]
        omega
      · intro i hi hl
        have hin : i < n := hl.trans_le h.length_le
        rw [List.getElem_take,List.getElem_ofFn]
        exact h.get ⟨i,hin⟩ hl
    rw [← htake,List.length_take,List.length_ofFn,min_eq_left h.length_le,List.take_append_drop]
  · intro b hb
    obtain ⟨i,hi,rfl⟩ := List.mem_drop_iff_getElem.mp hb
    rw [List.getElem_ofFn]
    exact h.free _ (Nat.le_add_right _ _)

/-- The first free slot is the one after the entries. -/
theorem firstFree (h : Fills p t l) :
    firstSlot (fun b => !p b) t = if hl : l.length < n then some ⟨l.length,hl⟩ else none := by
  by_cases hl : l.length < n
  · rw [dif_pos hl,firstSlot_eq_some_iff]
    constructor
    · rw [h.free ⟨l.length,hl⟩ le_rfl,Bool.not_false]
    · intro j hj
      rw [h.get j hj,h.taken _ (List.getElem_mem hj),Bool.not_true]
  · rw [dif_neg hl,firstSlot_eq_none_iff]
    intro i
    have hi : i < l.length := by omega
    rw [h.get i hi,h.taken _ (List.getElem_mem hi),Bool.not_true]

/-- An entry put into the first free slot ends the list. -/
theorem put (h : Fills p t l) (hl : l.length < n) (hb : p b = true) :
    Fills p (update t ⟨l.length,hl⟩ b) (l ++ [b]) where
  length_le := by
    rw [List.length_append,List.length_singleton]
    exact hl
  get i hi := by
    by_cases hil : (i : ℕ) < l.length
    · rw [update_of_ne (Fin.ne_of_lt hil),List.getElem_append_left hil]
      exact h.get i hil
    · have hlen : (i : ℕ) = l.length := by
        rw [List.length_append,List.length_singleton] at hi
        omega
      obtain rfl : i = ⟨l.length,hl⟩ := Fin.ext hlen
      rw [update_self,List.getElem_concat_length rfl]
  taken c hc := by
    rcases List.mem_append.mp hc with hc | hc
    · exact h.taken c hc
    · rw [List.mem_singleton.mp hc]
      exact hb
  free i hi := by
    rw [List.length_append,List.length_singleton] at hi
    have hne : i ≠ ⟨l.length,hl⟩ := Fin.ne_of_gt hi
    rw [update_of_ne hne]
    exact h.free i (by omega)

/-- A free entry put into the first free slot changes nothing. -/
theorem put_free (h : Fills p t l) (hl : l.length < n) (hb : p b = false) :
    Fills p (update t ⟨l.length,hl⟩ b) l where
  length_le := h.length_le
  get i hi := by
    rw [update_of_ne (Fin.ne_of_lt hi)]
    exact h.get i hi
  taken := h.taken
  free i hi := by
    by_cases hi' : i = ⟨l.length,hl⟩
    · rw [hi',update_self]
      exact hb
    · rw [update_of_ne hi']
      exact h.free i hi

/-- The taken slots that pass another test, in order. -/
theorem filter_eq (h : Fills p t l) :
    (List.ofFn t).filter (fun b => p b && q b) = l.filter q := by
  obtain ⟨rest,heq,hrest⟩ := h.ofFn_eq
  have hl : l.filter (fun b => p b && q b) = l.filter q :=
    List.filter_congr fun b hb => by rw [h.taken b hb,Bool.true_and]
  have hr : rest.filter (fun b => p b && q b) = [] :=
    List.filter_eq_nil_iff.mpr fun b hb => by rw [hrest b hb]; exact Bool.false_ne_true
  rw [heq,List.filter_append,hl,hr,List.append_nil]

/-- A search that fails in the table fails in the list. -/
theorem find_none (h : Fills p t l) (hs : firstSlot (fun b => p b && q b) t = none) :
    l.find? q = none := by
  rw [firstSlot_eq_none_iff] at hs
  rw [List.find?_eq_none]
  intro b hb
  obtain ⟨i,hi,rfl⟩ := List.getElem_of_mem hb
  have hslot := hs ⟨i,hi.trans_le h.length_le⟩
  rw [h.get _ hi,h.taken _ hb,Bool.true_and] at hslot
  rw [hslot]
  exact Bool.false_ne_true

/-- A search that ends in a slot of the table finds its entry in the list. -/
theorem find_some (h : Fills p t l) {i : Fin n}
    (hs : firstSlot (fun b => p b && q b) t = some i) :
    i < l.length ∧ l.find? q = some (t i) := by
  obtain ⟨hi,hbefore⟩ := firstSlot_eq_some_iff.mp hs
  rw [Bool.and_eq_true] at hi
  have hlt : i < l.length := by
    by_contra hge
    rw [h.free i (Nat.le_of_not_lt hge)] at hi
    exact absurd hi.1 Bool.false_ne_true
  refine ⟨hlt,?_⟩
  rw [List.find?_eq_some_iff_getElem]
  refine ⟨hi.2,i,hlt,(h.get i hlt).symm,fun j hj => ?_⟩
  have hjl : j < l.length := hj.trans hlt
  have hslot := hbefore ⟨j,hjl.trans_le h.length_le⟩ hj
  rw [h.get _ hjl,h.taken _ (List.getElem_mem hjl),Bool.true_and] at hslot
  rw [hslot]
  rfl

end Fills

end EthernetFirmware.FilledTables
