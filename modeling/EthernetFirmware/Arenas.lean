import Mathlib.Data.List.Basic
import Mathlib.Data.Nat.Basic

/-!
# Memory blocks handed out in order

An arena hands out blocks at growing addresses, each from an aligned address
on. Blocks below a limit that are pairwise apart stay so when a block from
the limit on is added.
-/

namespace EthernetFirmware.Arenas

/-- A block of memory. -/
structure Block where
  /-- First address. -/
  addr : ℕ
  /-- Number of bytes. -/
  size : ℕ

/-- The block lies between the two addresses. -/
def Within (lo hi : ℕ) (b : Block) : Prop := lo ≤ b.addr ∧ b.addr + b.size ≤ hi

/-- One block ends before the other starts. -/
def Apart (b c : Block) : Prop := b.addr + b.size ≤ c.addr ∨ c.addr + c.size ≤ b.addr

/-- Blocks between two addresses, pairwise apart. -/
structure Packed (lo hi : ℕ) (bs : List Block) : Prop where
  /-- Each lies between the addresses. -/
  within : ∀ b ∈ bs, Within lo hi b
  /-- No two overlap. -/
  apart : bs.Pairwise Apart

/-- The first multiple of the alignment from the value on. -/
def alignUp (value align : ℕ) : ℕ := (value + align - 1) / align * align

variable {lo hi hi' value align : ℕ} {b : Block} {bs : List Block}

theorem dvd_alignUp (value align : ℕ) : align ∣ alignUp value align := Nat.dvd_mul_left _ _

theorem le_alignUp (h : 0 < align) : value ≤ alignUp value align := by
  have hlt := Nat.lt_succ_self ((value + align - 1) / align)
  rw [Nat.div_lt_iff_lt_mul h,Nat.succ_mul] at hlt
  unfold alignUp
  omega

theorem alignUp_zero (h : 0 < align) : alignUp 0 align = 0 := by
  unfold alignUp
  rw [Nat.div_eq_of_lt (by omega),Nat.zero_mul]

theorem packed_nil : Packed lo hi [] where
  within := fun b hb => by cases hb
  apart := List.Pairwise.nil

theorem Packed.mono (h : Packed lo hi bs) (hle : hi ≤ hi') : Packed lo hi' bs where
  within := fun b hb => ⟨(h.within b hb).1,le_trans (h.within b hb).2 hle⟩
  apart := h.apart

/-- A block from the limit on is apart from all others. -/
theorem Packed.concat (h : Packed lo hi bs) (hle : lo ≤ hi) (hb : Within hi hi' b) :
    Packed lo hi' (bs ++ [b]) := by
  obtain ⟨hstart,hend⟩ := hb
  constructor
  · intro c hc
    rcases List.mem_append.mp hc with hc | hc
    · obtain ⟨hlo,hhi⟩ := h.within c hc
      exact ⟨hlo,by omega⟩
    · rw [List.mem_singleton] at hc
      rw [hc]
      exact ⟨le_trans hle hstart,hend⟩
  · refine List.pairwise_append.mpr ⟨h.apart,List.pairwise_singleton _ _,?_⟩
    intro c hc d hd
    rw [List.mem_singleton] at hd
    rw [hd]
    exact Or.inl (le_trans (h.within c hc).2 hstart)

/-- Blocks from the same address overlap. -/
theorem not_apart_of_addr_eq {c : Block} (haddr : b.addr = c.addr) (hb : 0 < b.size)
    (hc : 0 < c.size) : ¬ Apart b c := by
  unfold Apart
  omega

end EthernetFirmware.Arenas
