import Mathlib.Algebra.Order.Group.Nat
import Mathlib.Data.List.GetD
import Mathlib.Data.List.Nodup
import Mathlib.Logic.Function.Basic

/-!
# Array scans and strings in fixed fields

A scan of an array looks at one index after the other until an entry stops
it or its bound is reached; the indices looked at are part of the result. A
loop over distinct indices rewrites each entry once; a loop whose rounds may
fail has no result once one does. A
string is a list of characters other than the terminator, kept in a field
of fixed width that a copy fills up with terminators, and compared
character by character, in whatever memory lies behind the field if the
field has no terminator.
-/

namespace EthernetFirmware.CArrays

section Loops

variable {ι α : Type*} [DecidableEq ι]

/-- A loop over distinct indices rewrites each entry once, from its first
value. -/
theorem foldl_update_apply (f : ι → α → α) {l : List ι} (hl : l.Nodup) (g : ι → α) (i : ι) :
    l.foldl (fun g j => Function.update g j (f j (g j))) g i =
      if i ∈ l then f i (g i) else g i := by
  induction l generalizing g with
  | nil => rfl
  | cons j l ih =>
    obtain ⟨hj,hl⟩ := List.nodup_cons.mp hl
    rw [List.foldl_cons,ih hl]
    by_cases hi : i = j
    · rw [hi,if_neg hj,if_pos List.mem_cons_self,Function.update_self]
    · rw [Function.update_of_ne hi]
      simp only [List.mem_cons,hi,false_or]

/-- A loop that writes the entry of each listed key leaves the other keys. -/
theorem foldl_update_key {κ : Type*} [DecidableEq κ] {k : κ → ι} (hk : Function.Injective k)
    (f : κ → α) (l : List κ) (g : ι → α) (i : κ) :
    l.foldl (fun g j => Function.update g (k j) (f j)) g (k i) =
      if i ∈ l then f i else g (k i) := by
  induction l generalizing g with
  | nil => rfl
  | cons j l ih =>
    rw [List.foldl_cons,ih]
    by_cases hi : i = j
    · subst hi
      simp
    · rw [Function.update_of_ne (hk.ne hi)]
      simp only [List.mem_cons,hi,false_or]

/-- Loop that writes an entry at each of the listed indices; a round without
a value ends it without a result. -/
def fillEntries (f : ι → Option α) : List ι → (ι → α) → Option (ι → α)
  | [], g => some g
  | i :: l, g => (f i).bind fun a => fillEntries f l (Function.update g i a)

variable {f : ι → Option α} {l : List ι}

/-- A loop that ends has written the values, and nothing else. -/
theorem fillEntries_eq_some {g g' : ι → α} (h : fillEntries f l g = some g') :
    (∀ i ∈ l, f i = some (g' i)) ∧ ∀ i ∉ l, g' i = g i := by
  induction l generalizing g with
  | nil =>
    cases h
    exact ⟨fun i hi => absurd hi List.not_mem_nil,fun _ _ => rfl⟩
  | cons j l ih =>
    obtain ⟨a,hj,hrest⟩ := Option.bind_eq_some_iff.mp h
    obtain ⟨hin,hout⟩ := ih hrest
    constructor
    · intro i hi
      by_cases hl : i ∈ l
      · exact hin i hl
      · obtain rfl : i = j := (List.mem_cons.mp hi).resolve_right hl
        rw [hout i hl,Function.update_self]
        exact hj
    · intro i hi
      obtain ⟨hne,hl⟩ := List.ne_and_not_mem_of_not_mem_cons hi
      rw [hout i hl,Function.update_of_ne hne]

/-- A loop whose rounds all have a value ends. -/
theorem exists_fillEntries (h : ∀ i ∈ l, ∃ a, f i = some a) (g : ι → α) :
    ∃ g', fillEntries f l g = some g' := by
  induction l generalizing g with
  | nil => exact ⟨g,rfl⟩
  | cons j l ih =>
    obtain ⟨hj,hl⟩ := List.forall_mem_cons.mp h
    obtain ⟨a,ha⟩ := hj
    obtain ⟨g',hg'⟩ := ih hl (Function.update g j a)
    exact ⟨g',Option.bind_eq_some_iff.mpr ⟨a,ha,hg'⟩⟩

end Loops

section Scans

/-- Scan of at most `n` entries from index `i`: the indices looked at, and
the entry that stopped the scan. -/
def scan (stop : ℕ → Bool) : ℕ → ℕ → List ℕ × Option ℕ
  | 0, _ => ([],none)
  | n + 1, i =>
    if stop i then ([i],some i)
    else (i :: (scan stop n (i + 1)).1,(scan stop n (i + 1)).2)

variable {stop : ℕ → Bool} {n i j k : ℕ}

/-- An index is looked at when no entry before it stops the scan. -/
theorem mem_scan_iff :
    j ∈ (scan stop n i).1 ↔ i ≤ j ∧ j < i + n ∧ ∀ l, i ≤ l → l < j → stop l = false := by
  induction n generalizing i with
  | zero =>
    rw [scan]
    simp
    omega
  | succ n ih =>
    rw [scan]
    split_ifs with hstop
    · rw [List.mem_singleton]
      constructor
      · rintro rfl
        exact ⟨le_rfl,by omega,fun l hl hlt => by omega⟩
      · rintro ⟨hij,-,hnone⟩
        by_contra hne
        rw [hnone i le_rfl (by omega)] at hstop
        cases hstop
    · rw [List.mem_cons,ih]
      constructor
      · rintro (rfl | ⟨hij,hlt,hnone⟩)
        · exact ⟨le_rfl,by omega,fun l hl hlt => by omega⟩
        · refine ⟨by omega,by omega,fun l hl hlj => ?_⟩
          rcases Nat.eq_or_lt_of_le hl with rfl | hl
          · simpa using hstop
          · exact hnone l hl hlj
      · rintro ⟨hij,hlt,hnone⟩
        rcases Nat.eq_or_lt_of_le hij with rfl | hij
        · exact Or.inl rfl
        · exact Or.inr ⟨hij,by omega,fun l hl hlj => hnone l (by omega) hlj⟩

/-- The entry that stops a scan is the first that can. -/
theorem scan_eq_some_iff :
    (scan stop n i).2 = some k ↔
      i ≤ k ∧ k < i + n ∧ stop k = true ∧ ∀ l, i ≤ l → l < k → stop l = false := by
  induction n generalizing i with
  | zero =>
    rw [scan]
    simp
    omega
  | succ n ih =>
    rw [scan]
    split_ifs with hstop
    · constructor
      · rintro ⟨⟩
        exact ⟨le_rfl,by omega,hstop,fun l hl hlt => by omega⟩
      · rintro ⟨hik,-,-,hnone⟩
        by_contra hne
        have hlt : i < k := by
          rcases Nat.eq_or_lt_of_le hik with rfl | hlt
          · exact absurd rfl hne
          · exact hlt
        rw [hnone i le_rfl hlt] at hstop
        cases hstop
    · rw [ih]
      constructor
      · rintro ⟨hik,hlt,hk,hnone⟩
        refine ⟨by omega,by omega,hk,fun l hl hlk => ?_⟩
        rcases Nat.eq_or_lt_of_le hl with rfl | hl
        · simpa using hstop
        · exact hnone l hl hlk
      · rintro ⟨hik,hlt,hk,hnone⟩
        have hne : i ≠ k := by
          rintro rfl
          exact hstop hk
        exact ⟨by omega,by omega,hk,fun l hl hlk => hnone l (by omega) hlk⟩

/-- A scan that nothing stops. -/
theorem scan_eq_none_iff :
    (scan stop n i).2 = none ↔ ∀ k, i ≤ k → k < i + n → stop k = false := by
  constructor
  · intro hnone k
    induction k using Nat.strongRecOn with
    | _ k ih =>
      intro hik hkn
      by_contra hk
      have hfound : (scan stop n i).2 = some k :=
        scan_eq_some_iff.mpr ⟨hik,hkn,by simpa using hk,fun l hl hlk => ih l hlk hl (by omega)⟩
      rw [hnone] at hfound
      cases hfound
  · intro h
    cases hscan : (scan stop n i).2 with
    | none => rfl
    | some k =>
      obtain ⟨hik,hkn,hk,-⟩ := scan_eq_some_iff.mp hscan
      rw [h k hik hkn] at hk
      cases hk

/-- A scan from the start stays below a bound exactly when its own bound or
an entry below the bound stops it. -/
theorem scan_within_iff {bound : ℕ} :
    (∀ j ∈ (scan stop n 0).1, j < bound) ↔ n ≤ bound ∨ ∃ l < bound, stop l = true := by
  constructor
  · intro h
    by_contra hnot
    push Not at hnot
    obtain ⟨hn,hnone⟩ := hnot
    have hmem : bound ∈ (scan stop n 0).1 :=
      mem_scan_iff.mpr ⟨Nat.zero_le _,by omega,fun l _ hl => by simpa using hnone l hl⟩
    exact Nat.lt_irrefl _ (h bound hmem)
  · rintro (hn | ⟨l,hl,hstop⟩) j hj
    · obtain ⟨-,hlt,-⟩ := mem_scan_iff.mp hj
      omega
    · obtain ⟨-,-,hnone⟩ := mem_scan_iff.mp hj
      by_contra hge
      rw [hnone l (Nat.zero_le _) (by omega)] at hstop
      cases hstop

end Scans

section Strings

variable {χ : Type*} [Zero χ]

/-- Characters of a string, none of them the terminator. -/
structure CString (χ : Type*) [Zero χ] where
  /-- The characters. -/
  chars : List χ
  /-- The terminator ends a string. -/
  noNul : (0 : χ) ∉ chars

/-- `strncpy` into a field of `width` characters. -/
def strncpy (width : ℕ) (s : CString χ) (j : Fin width) : χ := s.chars.getD j 0

/-- The field holds a terminator. -/
def Terminated {width : ℕ} (field : Fin width → χ) : Prop := ∃ j, field j = 0

/-- Memory from the start of a field on. -/
def fieldMemory {width : ℕ} (field : Fin width → χ) (behind : ℕ → χ) (j : ℕ) : χ :=
  if h : j < width then field ⟨j,h⟩ else behind j

/-- `strcmp` finds the string in memory at index `j`. -/
def strcmpEq [DecidableEq χ] (m : ℕ → χ) : ℕ → List χ → Bool
  | j, [] => m j == 0
  | j, c :: cs => m j == c && strcmpEq m (j + 1) cs

variable {width : ℕ} {s t : CString χ} {m : ℕ → χ} {cs : List χ} {j : ℕ}

/-- A copy is terminated exactly when the string is shorter than the field. -/
theorem terminated_strncpy_iff : Terminated (strncpy width s) ↔ s.chars.length < width := by
  constructor
  · rintro ⟨j,hj⟩
    by_contra hlen
    have hlt : j.val < s.chars.length := by omega
    unfold strncpy at hj
    rw [List.getD_eq_getElem _ _ hlt] at hj
    exact s.noNul (hj ▸ List.getElem_mem hlt)
  · intro hlen
    exact ⟨⟨s.chars.length,hlen⟩,List.getD_eq_default _ _ le_rfl⟩

variable [DecidableEq χ]

/-- The comparison reads the characters and the terminator. -/
theorem strcmpEq_iff :
    strcmpEq m j cs = true ↔
      (∀ l (h : l < cs.length), m (j + l) = cs[l]) ∧ m (j + cs.length) = 0 := by
  induction cs generalizing j with
  | nil => simp [strcmpEq]
  | cons c cs ih =>
    rw [strcmpEq,Bool.and_eq_true,beq_iff_eq,ih]
    constructor
    · rintro ⟨hc,hcs,hend⟩
      refine ⟨fun l hl => ?_,?_⟩
      · cases l with
        | zero => exact hc
        | succ l =>
          have hl' : l < cs.length := by simpa using hl
          rw [List.getElem_cons_succ,← hcs l hl',Nat.add_right_comm,Nat.add_assoc]
      · rw [List.length_cons,← hend,Nat.add_right_comm,Nat.add_assoc]
    · rintro ⟨hall,hend⟩
      refine ⟨hall 0 (by simp),fun l hl => ?_,?_⟩
      · have h := hall (l + 1) (by simpa using hl)
        rw [List.getElem_cons_succ] at h
        rw [← h,Nat.add_right_comm,Nat.add_assoc]
      · rw [List.length_cons] at hend
        rw [← hend,Nat.add_right_comm,Nat.add_assoc]

/-- A terminated copy compares equal to the string that was copied, and to no
other, whatever lies behind the field. -/
theorem strcmpEq_strncpy_iff {behind : ℕ → χ} (h : s.chars.length < width) :
    strcmpEq (fieldMemory (strncpy width s) behind) 0 t.chars = true ↔ t.chars = s.chars := by
  have hread : ∀ l, l ≤ s.chars.length →
      fieldMemory (strncpy width s) behind l = s.chars.getD l 0 := by
    intro l hl
    unfold fieldMemory strncpy
    rw [dif_pos (by omega)]
  rw [strcmpEq_iff]
  simp only [Nat.zero_add]
  constructor
  · rintro ⟨hall,hend⟩
    have hle : t.chars.length ≤ s.chars.length := by
      by_contra hlt
      have hl := hall s.chars.length (by omega)
      rw [hread _ le_rfl,List.getD_eq_default _ _ le_rfl] at hl
      exact t.noNul (hl ▸ List.getElem_mem _)
    have hge : s.chars.length ≤ t.chars.length := by
      by_contra hlt
      rw [hread _ hle,List.getD_eq_getElem _ _ (by omega)] at hend
      exact s.noNul (hend ▸ List.getElem_mem _)
    refine List.ext_getElem (by omega) fun l hl hl' => ?_
    rw [← hall l hl,hread l (by omega),List.getD_eq_getElem _ _ hl']
  · intro heq
    rw [heq]
    refine ⟨fun l hl => ?_,?_⟩
    · rw [hread l (by omega),List.getD_eq_getElem _ _ hl]
    · rw [hread _ le_rfl]
      exact List.getD_eq_default _ _ le_rfl

end Strings

end EthernetFirmware.CArrays
