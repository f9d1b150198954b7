import Mathlib.Data.List.Basic
import Mathlib.Logic.Function.Basic

/-!
# Queues in a ring

A queue whose items lie in consecutive positions of a ring of `n` cells.
The module gives the position that follows a position, separates the
positions of different places of the queue, and follows the content
through an item appended at its end, an item taken from its front and a
cell written elsewhere in the ring.
-/

namespace EthernetFirmware.RingQueues

open Function

variable {β : Type*} {n t k i j : ℕ} {cell : ℕ → β} {x y : β} {l : List β}

/-- The position that follows a position; the last one is followed by the
first one. -/
def following (n k : ℕ) : ℕ := if k + 1 = n then 0 else k + 1

/-- Position of place `i` of a queue that starts at position `t`. -/
def place (n t i : ℕ) : ℕ := (t + i) % n

/-- The items of the queue lie in their places. -/
def Queued (n : ℕ) (cell : ℕ → β) (t : ℕ) (l : List β) : Prop :=
  ∀ i x, l[i]? = some x → cell (place n t i) = x

theorem following_of_eq (h : k + 1 = n) : following n k = 0 := if_pos h

theorem following_of_ne (h : k + 1 ≠ n) : following n k = k + 1 := if_neg h

theorem following_lt (h : k < n) : following n k < n := by
  unfold following
  split <;> omega

theorem following_eq_mod (h : k < n) : following n k = (k + 1) % n := by
  unfold following
  split
  · next hend => rw [hend,Nat.mod_self]
  · next hend => rw [Nat.mod_eq_of_lt (by omega)]

theorem place_lt (h : 0 < n) : place n t i < n := Nat.mod_lt _ h

@[simp] theorem place_zero (h : t < n) : place n t 0 = t := Nat.mod_eq_of_lt h

theorem place_following (h : t < n) : place n (following n t) i = place n t (i + 1) := by
  unfold place
  rw [following_eq_mod h,Nat.mod_add_mod]
  congr 1
  omega

theorem following_place (h : 0 < n) : following n (place n t i) = place n t (i + 1) := by
  rw [following_eq_mod (place_lt h)]
  unfold place
  rw [Nat.mod_add_mod]
  rfl

/-- Different places less than a ring apart have different positions. -/
theorem place_ne (hij : i < j) (hjn : j < i + n) : place n t i ≠ place n t j := by
  intro h
  have hdvd : n ∣ t + j - (t + i) :=
    Nat.dvd_of_mod_eq_zero (Nat.sub_mod_eq_zero_of_mod_eq h.symm)
  have hle := Nat.le_of_dvd (by omega) hdvd
  omega

theorem place_eq_start_iff (ht : t < n) (hi : i < n) : place n t i = t ↔ i = 0 := by
  constructor
  · intro h
    by_contra hne
    exact place_ne (n := n) (t := t) (Nat.pos_of_ne_zero hne) (by omega)
      ((place_zero ht).trans h.symm)
  · rintro rfl
    exact place_zero ht

/-- A place a whole ring away is the start again. -/
@[simp] theorem place_full (ht : t < n) : place n t n = t := by
  unfold place
  rw [Nat.add_mod_right,Nat.mod_eq_of_lt ht]

theorem place_eq (ht : t < n) (hi : i < n) :
    place n t i = if t + i < n then t + i else t + i - n := by
  unfold place
  split
  · next h => exact Nat.mod_eq_of_lt h
  · next h =>
    rw [Nat.mod_eq_sub_mod (by omega)]
    exact Nat.mod_eq_of_lt (by omega)

@[simp] theorem queued_nil : Queued n cell t ([] : List β) := by
  intro i x hx
  simp at hx

/-- The front item lies in the start position. -/
theorem Queued.front (h : Queued n cell t (x :: l)) (ht : t < n) : cell t = x := by
  have hx := h 0 x rfl
  rwa [place_zero ht] at hx

/-- The items behind the front one start at the position that follows. -/
theorem Queued.rest (h : Queued n cell t (x :: l)) (ht : t < n) :
    Queued n cell (following n t) l := by
  intro i y hy
  rw [place_following ht]
  exact h (i + 1) y hy

/-- A write behind the end of the queue leaves the queue alone. -/
theorem Queued.write (h : Queued n cell t l) (hi : l.length ≤ i) (hn : i < n) :
    Queued n (update cell (place n t i) y) t l := by
  intro k x hx
  have hk : k < l.length := (List.getElem?_eq_some_iff.mp hx).1
  rw [update_of_ne (place_ne (by omega) (by omega))]
  exact h k x hx

/-- An item written behind the end of the queue joins it. -/
theorem Queued.push (h : Queued n cell t l)
    (hx : cell (place n t l.length) = x) : Queued n cell t (l ++ [x]) := by
  intro i y hy
  by_cases hi : i < l.length
  · rw [List.getElem?_append_left hi] at hy
    exact h i y hy
  · obtain rfl : i = l.length := by
      have hlen := (List.getElem?_eq_some_iff.mp hy).1
      rw [List.length_append,List.length_singleton] at hlen
      omega
    rw [List.getElem?_concat_length] at hy
    rw [hx]
    exact Option.some.inj hy

end EthernetFirmware.RingQueues
