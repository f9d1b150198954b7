import Mathlib.Data.List.OfFn

/-!
# Rings of cells

A sequence of items stored in a ring: item `i` lies in cell `i % n`. From
a read count on, the items of the sequence are in their cells as long as
no more of them are unread than the ring has cells. The module follows
this through a block written after the last item and reads a block from
the first unread one. Blocks do not wrap around: they end within the ring.
-/

namespace EthernetFirmware.RingBuffers

variable {β : Type*} {n b i j : ℕ} {cell : ℕ → β} {xs ys : List β} {r : ℕ}

/-- Items from the read count on are in their cells. -/
def Holds (n : ℕ) (cell : ℕ → β) (xs : List β) (r : ℕ) : Prop :=
  ∀ i x, r ≤ i → xs[i]? = some x → cell (i % n) = x

/-- Items in consecutive cells. -/
def items (cell : ℕ → β) (k len : ℕ) : List β := List.ofFn fun i : Fin len => cell (k + i)

/-- Cells with items written from a cell on. -/
def put (cell : ℕ → β) (k : ℕ) (ys : List β) (j : ℕ) : β :=
  if k ≤ j then ys[j - k]?.getD (cell j) else cell j

theorem put_of_lt (h : j < b) : put cell b ys j = cell j := if_neg (Nat.not_le.mpr h)

theorem put_of_ge (h : b + ys.length ≤ j) : put cell b ys j = cell j := by
  unfold put
  rw [if_pos (by omega),List.getElem?_eq_none (by omega),Option.getD_none]

theorem put_add (h : j < ys.length) : put cell b ys (b + j) = ys[j] := by
  unfold put
  rw [if_pos (by omega),Nat.add_sub_cancel_left,List.getElem?_eq_getElem h,Option.getD_some]

/-- Multiples of the ring size differ by at least the size. -/
theorem mul_add_le {a c : ℕ} (h : n * a < n * c) : n * a + n ≤ n * c := by
  have hlt : a + 1 ≤ c := Nat.lt_of_mul_lt_mul_left h
  calc n * a + n = n * (a + 1) := (Nat.mul_succ n a).symm
    _ ≤ n * c := Nat.mul_le_mul_left n hlt

/-- Where blocks divide the ring, the block at a count of whole blocks ends
within it. -/
theorem block_fits (hn : b ∣ n) (hi : b ∣ i) (hpos : 0 < n) : i % n + b ≤ n := by
  have hmod : b ∣ i % n := (Nat.dvd_mod_iff hn).mpr hi
  have hlt : i % n < n := Nat.mod_lt i hpos
  obtain ⟨a,ha⟩ := hmod
  obtain ⟨c,hc⟩ := hn
  rw [ha,hc] at hlt ⊢
  exact mul_add_le hlt

/-- Cells of items within one block follow each other. -/
theorem mod_add (h : i % n + j < n) : (i + j) % n = i % n + j := by
  rw [Nat.add_mod,Nat.mod_eq_of_lt (Nat.lt_of_le_of_lt (Nat.le_add_left j _) h),Nat.mod_eq_of_lt h]

/-- The count after a block that ends at the end of the ring starts it
anew. -/
theorem mod_add_eq_zero (h : i % n + b = n) : (i + b) % n = 0 := by
  have hsplit := Nat.mod_add_div i n
  have hsum : i + b = n + n * (i / n) := by omega
  rw [hsum,Nat.add_mul_mod_self_left,Nat.mod_self]

/-- The count of a block that ends before the end of the ring moves on, and
starts the ring anew otherwise. -/
theorem mod_add_block (h : i % n + b ≤ n) :
    (i + b) % n = if i % n + b = n then 0 else i % n + b := by
  split
  · next hend => exact mod_add_eq_zero hend
  · next hend => exact mod_add (by omega)

/-- With the write position not below the read position, their distance is
the number of unread items. -/
theorem unread_of_le (hle : i ≤ j) (hlt : j < i + n) (h : i % n ≤ j % n) :
    j % n - i % n = j - i := by
  have hi := Nat.mod_add_div i n
  have hj := Nat.mod_add_div j n
  have hni := Nat.mod_lt i (by omega : 0 < n)
  have hnj := Nat.mod_lt j (by omega : 0 < n)
  rcases Nat.lt_trichotomy (n * (i / n)) (n * (j / n)) with hq | hq | hq
  · have := mul_add_le hq
    omega
  · omega
  · have := mul_add_le hq
    omega

/-- With the write position below the read position, the unread items wrap
around. -/
theorem unread_of_lt (hle : i ≤ j) (hlt : j < i + n) (h : j % n < i % n) :
    j % n + n - i % n = j - i := by
  have hi := Nat.mod_add_div i n
  have hj := Nat.mod_add_div j n
  have hni := Nat.mod_lt i (by omega : 0 < n)
  have hq : n * (i / n) < n * (j / n) := by omega
  have hgap := mul_add_le hq
  have hup : n * (j / n) ≤ n * (i / n + 1) := by
    by_contra hmore
    have := mul_add_le (Nat.not_le.mp hmore)
    rw [Nat.mul_succ] at this
    omega
  rw [Nat.mul_succ] at hup
  omega

/-- Unread items are not in the cells of the block after the last one. -/
theorem unread_outside (hi : r ≤ i) (hlt : i < xs.length)
    (hroom : xs.length + b ≤ r + n) :
    i % n < xs.length % n ∨ xs.length % n + b ≤ i % n := by
  by_contra h
  have hsplit := Nat.mod_add_div xs.length n
  have hsplit' := Nat.mod_add_div i n
  have hgap := mul_add_le (n := n) (a := i / n) (c := xs.length / n) (by omega)
  omega

/-- A block written after the last item joins the sequence. -/
theorem Holds.put (h : Holds n cell xs r) (hfit : xs.length % n + ys.length ≤ n)
    (hroom : xs.length + ys.length ≤ r + n) :
    Holds n (put cell (xs.length % n) ys) (xs ++ ys) r := by
  intro i x hi hx
  by_cases hlt : i < xs.length
  · rw [List.getElem?_append_left hlt] at hx
    have hcell : RingBuffers.put cell (xs.length % n) ys (i % n) = cell (i % n) := by
      rcases unread_outside hi hlt hroom with hout | hout
      · exact put_of_lt hout
      · exact put_of_ge hout
    rw [hcell]
    exact h i x hi hx
  · obtain ⟨k,rfl⟩ : ∃ k, i = xs.length + k := ⟨i - xs.length,by omega⟩
    rw [List.getElem?_append_right (by omega),Nat.add_sub_cancel_left] at hx
    obtain ⟨hk,rfl⟩ := List.getElem?_eq_some_iff.mp hx
    rw [mod_add (by omega)]
    exact put_add hk

/-- A block read at the read count holds the next items. -/
theorem Holds.items (h : Holds n cell xs r) (hfit : r % n + b ≤ n) (hlen : r + b ≤ xs.length) :
    items cell (r % n) b = (xs.drop r).take b := by
  apply List.ext_getElem?
  intro k
  by_cases hk : k < b
  · have hlt : r + k < xs.length := by omega
    rw [List.getElem?_take_of_lt hk,List.getElem?_drop,List.getElem?_eq_getElem hlt]
    unfold RingBuffers.items
    rw [List.getElem?_ofFn,dif_pos hk,← mod_add (by omega : r % n + k < n)]
    exact congrArg some (h (r + k) _ (by omega) (List.getElem?_eq_getElem hlt))
  · rw [List.getElem?_eq_none (by simpa [RingBuffers.items] using hk),
      List.getElem?_eq_none (by rw [List.length_take]; omega)]

/-- Only the cells of the ring matter. -/
theorem Holds.congr (h : Holds n cell xs r) (hpos : 0 < n) {cell' : ℕ → β}
    (hc : ∀ k < n, cell' k = cell k) : Holds n cell' xs r := by
  intro i x hi hx
  rw [hc _ (Nat.mod_lt i hpos)]
  exact h i x hi hx

/-- Reading on keeps the unread items in their cells. -/
theorem Holds.mono (h : Holds n cell xs r) {r' : ℕ} (hr : r ≤ r') : Holds n cell xs r' :=
  fun i x hi => h i x (by omega)

/-- The order of items is kept when the next ones are read. -/
theorem prefix_append {zs : List β} (hp : ys <+: xs) (hz : zs = (xs.drop ys.length).take b) :
    ys ++ zs <+: xs := by
  obtain ⟨ws,rfl⟩ := hp
  rw [hz,List.drop_left]
  exact List.prefix_append_right_inj ys |>.mpr (List.take_prefix b ws)

end EthernetFirmware.RingBuffers
