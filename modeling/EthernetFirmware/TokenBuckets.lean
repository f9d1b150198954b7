import Mathlib.Algebra.Order.Group.Nat
import Mathlib.Data.List.Basic

/-!
# Conformance of token buckets

A bucket of limited capacity earns at most `rate` tokens in `scale` units of
time, and every use spends tokens it holds. What is spent between any two
uses is then at most the capacity and what is earned between them. The
invariant is about the windows that reach up to now: what was spent in one
and what is still held are funded by the capacity and the time passed.
-/

namespace EthernetFirmware.TokenBuckets

/-- One use of a bucket. -/
structure Use where
  /-- When. -/
  time : ℕ
  /-- Tokens spent. -/
  spent : ℕ

/-- Tokens spent by the listed uses. -/
def spent : List Use → ℕ
  | [] => 0
  | u :: us => u.spent + spent us

/-- What is spent from one use to another, both included, is at most the
capacity and what is earned between them. -/
def Conforms (scale capacity rate : ℕ) (us : List Use) : Prop :=
  ∀ i j u v, i ≤ j → us[i]? = some u → us[j]? = some v →
    scale * spent ((us.take (j + 1)).drop i) ≤ scale * capacity + rate * (v.time - u.time)

/-- What was spent since any use and the level held are at most the capacity
and what is earned up to the given time. -/
def Funded (scale capacity rate : ℕ) (us : List Use) (level time : ℕ) : Prop :=
  ∀ i u, us[i]? = some u → u.time ≤ time ∧
    scale * (spent (us.drop i) + level) ≤ scale * capacity + rate * (time - u.time)

variable {scale capacity rate level level' time time' : ℕ} {us : List Use} {u : Use}

theorem spent_append (us vs : List Use) : spent (us ++ vs) = spent us + spent vs := by
  induction us with
  | nil => exact (Nat.zero_add _).symm
  | cons u us ih =>
    rw [List.cons_append,spent,spent,ih,Nat.add_assoc]

theorem spent_singleton (u : Use) : spent [u] = u.spent := Nat.add_zero _

theorem conforms_nil : Conforms scale capacity rate [] := by
  intro i j u v _ hu
  cases hu

theorem funded_nil : Funded scale capacity rate [] level time := by
  intro i u hu
  cases hu

/-- Time passes, and the level grows by no more than is earned. -/
theorem funded_refill (h : Funded scale capacity rate us level time) (htime : time ≤ time')
    (hlevel : scale * level' ≤ scale * level + rate * (time' - time)) :
    Funded scale capacity rate us level' time' := by
  intro i u hu
  obtain ⟨hle,hfunded⟩ := h i u hu
  refine ⟨le_trans hle htime,?_⟩
  have hpassed : time' - u.time = (time - u.time) + (time' - time) := by omega
  calc scale * (spent (us.drop i) + level')
      = scale * spent (us.drop i) + scale * level' := Nat.mul_add _ _ _
    _ ≤ scale * spent (us.drop i) + (scale * level + rate * (time' - time)) := by omega
    _ = scale * (spent (us.drop i) + level) + rate * (time' - time) := by
      rw [Nat.mul_add,Nat.add_assoc]
    _ ≤ scale * capacity + rate * (time - u.time) + rate * (time' - time) := by omega
    _ = scale * capacity + rate * (time' - u.time) := by
      rw [hpassed,Nat.mul_add,Nat.add_assoc]

/-- A use spends from a level within the capacity. -/
theorem funded_use (h : Funded scale capacity rate us level u.time) (hlevel : level ≤ capacity)
    (hspent : u.spent + level' ≤ level) :
    Funded scale capacity rate (us ++ [u]) level' u.time := by
  intro i v hv
  rw [List.getElem?_append] at hv
  split_ifs at hv with hi
  · obtain ⟨hle,hfunded⟩ := h i v hv
    refine ⟨hle,le_trans (Nat.mul_le_mul_left scale ?_) hfunded⟩
    rw [List.drop_append_of_le_length (by omega),spent_append,spent_singleton]
    omega
  · rw [List.getElem?_singleton] at hv
    split_ifs at hv with hlast
    cases hv
    have hwindow : (us ++ [u]).drop i = [u] := by
      have hi : i = us.length := by omega
      rw [hi]
      exact List.drop_left
    refine ⟨Nat.le_refl _,?_⟩
    rw [hwindow,spent_singleton]
    calc scale * (u.spent + level') ≤ scale * capacity :=
          Nat.mul_le_mul_left scale (le_trans hspent hlevel)
      _ ≤ scale * capacity + rate * (u.time - u.time) := Nat.le_add_right _ _

/-- The windows that end with the last use are funded, the others were. -/
theorem conforms_use (h : Conforms scale capacity rate us)
    (hfunded : Funded scale capacity rate (us ++ [u]) level u.time) :
    Conforms scale capacity rate (us ++ [u]) := by
  intro i j v w hij hv hw
  rw [List.getElem?_append] at hw
  split_ifs at hw with hj
  · rw [List.getElem?_append_left (by omega)] at hv
    rw [List.take_append_of_le_length (by omega)]
    exact h i j v w hij hv hw
  · rw [List.getElem?_singleton] at hw
    split_ifs at hw with hlast
    cases hw
    have hall : (us ++ [u]).take (j + 1) = us ++ [u] := by
      refine List.take_of_length_le ?_
      rw [List.length_append,List.length_singleton]
      omega
    rw [hall]
    exact le_trans (Nat.mul_le_mul_left scale (Nat.le_add_right _ _)) (hfunded i v hv).2

end EthernetFirmware.TokenBuckets
