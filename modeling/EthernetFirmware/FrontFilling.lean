import Mathlib.Data.List.Count
import Mathlib.Data.List.Pairwise

/-!
# Filling free places from the front

A list with free places is filled from the front by the items of another
list; places that are taken stay as they are. Filling it group by group
does the same as filling it with all groups at once exactly when no group
puts in an item that reads as a free place, unless all later items do: such
an item is overwritten by the next group. Open places are told apart from
items that only look free by a list of options.
-/

namespace EthernetFirmware.FrontFilling

variable {α : Type*}

section OpenPlaces

variable {o : List (Option α)} {cs ds : List α} {c e : α}

/-- Fill the open places with the items, as long as there are both. -/
def fillOpen : List (Option α) → List α → List (Option α)
  | o,[] => o
  | [],_ :: _ => []
  | none :: o,c :: cs => some c :: fillOpen o cs
  | some e :: o,c :: cs => some e :: fillOpen o (c :: cs)

@[simp] theorem fillOpen_nil_right (o : List (Option α)) : fillOpen o [] = o := by
  cases o <;> rfl

@[simp] theorem fillOpen_nil_left (cs : List α) : fillOpen [] cs = [] := by
  cases cs <;> rfl

@[simp] theorem fillOpen_none : fillOpen (none :: o) (c :: cs) = some c :: fillOpen o cs := rfl

@[simp] theorem fillOpen_some : fillOpen (some e :: o) cs = some e :: fillOpen o cs := by
  cases cs with
  | nil => simp
  | cons c cs => rfl

/-- An open place is filled once. -/
theorem fillOpen_getElem?_of_some {i : ℕ} (h : o[i]? = some (some e)) :
    (fillOpen o cs)[i]? = some (some e) := by
  induction o generalizing cs i with
  | nil => simp at h
  | cons p o ih =>
    cases cs with
    | nil => simpa using h
    | cons c cs =>
      cases i with
      | zero =>
        rw [List.getElem?_cons_zero,Option.some.injEq] at h
        simp [h]
      | succ i =>
        rw [List.getElem?_cons_succ] at h
        cases p with
        | none => exact ih h
        | some p =>
          rw [fillOpen_some,List.getElem?_cons_succ]
          exact ih h

/-- Groups fill open places as their items together do. -/
theorem fillOpen_append : fillOpen (fillOpen o cs) ds = fillOpen o (cs ++ ds) := by
  induction o generalizing cs with
  | nil => simp
  | cons p o ih =>
    cases cs with
    | nil => simp
    | cons c cs =>
      cases p with
      | none => rw [fillOpen_none,fillOpen_some,ih,List.cons_append,fillOpen_none]
      | some p => rw [fillOpen_some,fillOpen_some,ih,fillOpen_some]

variable [DecidableEq α]

/-- Every item closes an open place. -/
theorem count_fillOpen (h : cs.length ≤ o.count none) :
    (fillOpen o cs).count none + cs.length = o.count none := by
  induction o generalizing cs with
  | nil => simpa using h
  | cons p o ih =>
    cases cs with
    | nil => simp
    | cons c cs =>
      cases p with
      | none =>
        rw [List.count_cons_self,List.length_cons] at h
        have hrest : (fillOpen o cs).count none + cs.length = o.count none := ih (by omega)
        rw [fillOpen_none,List.count_cons_of_ne (by simp),List.count_cons_self,List.length_cons]
        omega
      | some p =>
        rw [List.count_cons_of_ne (by simp)] at h ⊢
        rw [fillOpen_some,List.count_cons_of_ne (by simp)]
        exact ih h

end OpenPlaces

section FreePlaces

variable [DecidableEq α] {free : α} {l cs ds : List α} {c e : α}

/-- Fill the free places with the items, as long as there are both. -/
def fillFront (free : α) : List α → List α → List α
  | l,[] => l
  | [],_ :: _ => []
  | e :: l,c :: cs => if e = free then c :: fillFront free l cs else e :: fillFront free l (c :: cs)

@[simp] theorem fillFront_nil_right (l : List α) : fillFront free l [] = l := by
  cases l <;> rfl

@[simp] theorem fillFront_nil_left (cs : List α) : fillFront free [] cs = [] := by
  cases cs <;> rfl

@[simp] theorem fillFront_free : fillFront free (free :: l) (c :: cs) =
    c :: fillFront free l cs := by
  simp [fillFront]

theorem fillFront_taken (he : e ≠ free) :
    fillFront free (e :: l) cs = e :: fillFront free l cs := by
  cases cs with
  | nil => simp
  | cons c cs => simp [fillFront,he]

/-- A place that is taken stays as it is. -/
theorem fillFront_getElem?_of_ne {i : ℕ} (h : l[i]? = some e) (he : e ≠ free) :
    (fillFront free l cs)[i]? = some e := by
  induction l generalizing cs i with
  | nil => simp at h
  | cons p l ih =>
    cases cs with
    | nil => simpa using h
    | cons c cs =>
      cases i with
      | zero =>
        rw [List.getElem?_cons_zero,Option.some.injEq] at h
        rw [h,fillFront_taken he,List.getElem?_cons_zero]
      | succ i =>
        rw [List.getElem?_cons_succ] at h
        by_cases hp : p = free
        · rw [hp,fillFront_free,List.getElem?_cons_succ]
          exact ih h
        · rw [fillFront_taken hp,List.getElem?_cons_succ]
          exact ih h

/-- Items that look free change nothing. -/
theorem fillFront_of_all_free (h : ∀ c ∈ cs, c = free) : fillFront free l cs = l := by
  induction l generalizing cs with
  | nil => simp
  | cons e l ih =>
    cases cs with
    | nil => simp
    | cons c cs =>
      by_cases he : e = free
      · rw [he,fillFront_free,h c (by simp),ih fun d hd => h d (by simp [hd])]
      · rw [fillFront_taken he,ih h]

end FreePlaces

section Readings

variable {free : α} {o : List (Option α)} {l cs ds : List α} {c e : α}

/-- Read an open place as a free one. -/
def reading (free : α) (o : List (Option α)) : List α := o.map fun p => p.getD free

/-- Items that look free stand before all open places. -/
def LooksFirst (free : α) : List (Option α) → Prop
  | [] => True
  | none :: o => some free ∉ o
  | some _ :: o => LooksFirst free o

/-- A place reads as taken where the item put in reads as free. -/
def Diverged (free : α) (l : List α) (o : List (Option α)) : Prop :=
  ∃ (i : ℕ) (x : α), o[i]? = some (some free) ∧ l[i]? = some x ∧ x ≠ free

theorem looksFirst_of_notMem (h : some free ∉ o) : LooksFirst free o := by
  induction o with
  | nil => trivial
  | cons p o ih =>
    rw [List.mem_cons,not_or] at h
    cases p with
    | none => exact h.2
    | some p => exact ih h.2

/-- Filling keeps the items that look free in front. -/
theorem LooksFirst.fillOpen (h : LooksFirst free o) : LooksFirst free (fillOpen o cs) := by
  induction o generalizing cs with
  | nil => simpa using h
  | cons p o ih =>
    cases cs with
    | nil => simpa using h
    | cons c cs =>
      cases p with
      | none =>
        rw [fillOpen_none]
        exact ih (looksFirst_of_notMem h)
      | some p =>
        rw [fillOpen_some]
        exact ih h

/-- An item that looks free came from the list or was put in. -/
theorem mem_fillOpen_iff [DecidableEq α] (h : cs.length ≤ o.count none) :
    some e ∈ fillOpen o cs ↔ some e ∈ o ∨ e ∈ cs := by
  induction o generalizing cs with
  | nil =>
    rw [List.count_nil,Nat.le_zero,List.length_eq_zero_iff] at h
    simp [h]
  | cons p o ih =>
    cases cs with
    | nil => simp
    | cons c cs =>
      cases p with
      | none =>
        rw [List.count_cons_self,List.length_cons] at h
        rw [fillOpen_none,List.mem_cons,ih (by omega)]
        simp [or_left_comm]
      | some p =>
        rw [List.count_cons_of_ne (by simp)] at h
        rw [fillOpen_some,List.mem_cons,ih h]
        simp [or_assoc]

theorem Diverged.cons {p : Option α} (h : Diverged free l o) :
    Diverged free (e :: l) (p :: o) := by
  obtain ⟨i,x,ho,hl,hx⟩ := h
  exact ⟨i + 1,x,ho,hl,hx⟩

theorem diverged_head (he : e ≠ free) : Diverged free (e :: l) (some free :: o) :=
  ⟨0,e,rfl,rfl,he⟩

theorem Diverged.ne (h : Diverged free l o) : l ≠ reading free o := by
  obtain ⟨i,x,ho,hl,hx⟩ := h
  rintro rfl
  rw [reading,List.getElem?_map,ho] at hl
  exact hx (Option.some.inj hl).symm

/-- Items that look free leave the reading as it is. -/
theorem reading_fillOpen_of_all_free (h : ∀ c ∈ cs, c = free) :
    reading free (fillOpen o cs) = reading free o := by
  induction o generalizing cs with
  | nil => simp
  | cons p o ih =>
    cases cs with
    | nil => simp
    | cons c cs =>
      cases p with
      | none =>
        rw [fillOpen_none,h c (by simp)]
        exact congrArg (free :: ·) (ih fun d hd => h d (by simp [hd]))
      | some p =>
        rw [fillOpen_some]
        exact congrArg (p :: ·) (ih h)

variable [DecidableEq α]

/-- Nothing that is put in later brings the two together again. -/
theorem Diverged.fill (h : Diverged free l o) :
    Diverged free (fillFront free l cs) (fillOpen o cs) := by
  obtain ⟨i,x,ho,hl,hx⟩ := h
  exact ⟨i,x,fillOpen_getElem?_of_some ho,fillFront_getElem?_of_ne hl hx,hx⟩

/-- Without an item that looks free the free places are the open ones. -/
theorem reading_fillOpen_of_notMem (h : some free ∉ o) :
    reading free (fillOpen o cs) = fillFront free (reading free o) cs := by
  induction o generalizing cs with
  | nil => simp [reading]
  | cons p o ih =>
    rw [List.mem_cons,not_or] at h
    cases cs with
    | nil => simp
    | cons c cs =>
      cases p with
      | none =>
        have hhead : reading free (none :: o) = free :: reading free o := rfl
        rw [fillOpen_none,hhead,fillFront_free,← ih h.2]
        rfl
      | some p =>
        have hp : p ≠ free := fun hp => h.1 (by rw [hp])
        have hhead : reading free (some p :: o) = p :: reading free o := rfl
        rw [fillOpen_some,hhead,fillFront_taken hp,← ih h.2]
        rfl

/-- An item that does not look free goes to the first place that does. When items that look
free are in front, that is not the place kept open for it: `n` counts how far the items
lag behind. -/
theorem diverged_of_lag (n : ℕ) (hne : ∃ c ∈ cs, c ≠ free) (hn : 0 < n ∨ some free ∈ o)
    (hlooks : n = 0 → LooksFirst free o) (hfit : cs.length + n ≤ o.count none) :
    Diverged free (fillFront free (reading free o) cs)
      (fillOpen o (List.replicate n free ++ cs)) := by
  induction o generalizing cs n with
  | nil =>
    rw [List.count_nil] at hfit
    rcases hn with hn | hn
    · omega
    · simp at hn
  | cons p o ih =>
    cases cs with
    | nil => simp at hne
    | cons c cs =>
      -- The head item shows in a free place, or it looks free and the rest lags one more.
      have hrest : c = free → ∃ d ∈ cs, d ≠ free := by
        rintro rfl
        simpa using hne
      have hshift : ∀ k, c = free → List.replicate k free ++ c :: cs =
          List.replicate (k + 1) free ++ cs := by
        rintro k rfl
        rw [List.replicate_succ',List.append_assoc,List.singleton_append]
      cases p with
      | none =>
        rw [List.count_cons_self,List.length_cons] at hfit
        have hhead : reading free (none :: o) = free :: reading free o := rfl
        rw [hhead,fillFront_free]
        cases n with
        | zero =>
          have hmem := hn.resolve_left (Nat.lt_irrefl 0)
          exact absurd (List.mem_of_ne_of_mem (by simp) hmem) (hlooks rfl)
        | succ k =>
          rw [List.replicate_succ,List.cons_append,fillOpen_none]
          by_cases hc : c = free
          · rw [hshift k hc]
            exact (ih (k + 1) (hrest hc) (Or.inl (by omega)) (by omega) (by omega)).cons
          · exact diverged_head hc
      | some p =>
        rw [List.count_cons_of_ne (by simp)] at hfit
        have hhead : reading free (some p :: o) = p :: reading free o := rfl
        rw [hhead,fillOpen_some]
        by_cases hp : p = free
        · rw [hp,fillFront_free]
          by_cases hc : c = free
          · rw [hshift n hc]
            rw [List.length_cons] at hfit
            exact (ih (n + 1) (hrest hc) (Or.inl (by omega)) (by omega) (by omega)).cons
          · exact diverged_head hc
        · rw [fillFront_taken hp]
          refine (ih n hne (hn.imp_right fun hmem => ?_) hlooks hfit).cons
          exact List.mem_of_ne_of_mem (fun heq => hp (Option.some.inj heq).symm) hmem

end Readings

section Groups

variable [DecidableEq α] {free : α} {o : List (Option α)} {l cs : List α}
  {gs : List (List α)}

/-- No group has an item that looks free before a later one that does not. -/
def Packed (free : α) (gs : List (List α)) : Prop :=
  gs.Pairwise fun g h => free ∈ g → ∀ c ∈ h, c = free

/-- Free places are the open ones. -/
def opening (free : α) (l : List α) : List (Option α) :=
  l.map fun e => if e = free then none else some e

theorem notMem_opening : some free ∉ opening free l := by
  simp [opening]

theorem count_opening : (opening free l).count none = l.count free := by
  induction l with
  | nil => rfl
  | cons e l ih =>
    by_cases he : e = free
    · simpa [opening,he] using ih
    · simpa [opening,he] using ih

theorem reading_opening : reading free (opening free l) = l := by
  rw [reading,opening,List.map_map]
  have hid : ((fun p : Option α => p.getD free) ∘ fun e => if e = free then none else some e) =
      id := by
    funext e
    by_cases he : e = free
    · simp [he]
    · simp [he]
  rw [hid,List.map_id]

/-- Once apart, filling group by group stays apart from filling at once. -/
theorem Diverged.foldl (h : Diverged free l o) :
    Diverged free (gs.foldl (fillFront free) l) (fillOpen o gs.flatten) := by
  induction gs generalizing l o with
  | nil => simpa using h
  | cons g gs ih =>
    rw [List.foldl_cons,List.flatten_cons,← fillOpen_append]
    exact ih h.fill

/-- Filling group by group does what filling at once does exactly when the groups are packed
and, behind items that look free, look free themselves. -/
theorem foldl_reading_iff (hlooks : LooksFirst free o)
    (hfit : gs.flatten.length ≤ o.count none) :
    gs.foldl (fillFront free) (reading free o) = reading free (fillOpen o gs.flatten) ↔
      Packed free gs ∧ (some free ∈ o → ∀ c ∈ gs.flatten, c = free) := by
  induction gs generalizing o with
  | nil => simp [Packed]
  | cons g gs ih =>
    rw [List.flatten_cons,List.length_append] at hfit
    rw [List.foldl_cons,List.flatten_cons,← fillOpen_append]
    by_cases hlag : some free ∈ o ∧ ∃ c ∈ g, c ≠ free
    · have hdiv := diverged_of_lag 0 hlag.2 (Or.inr hlag.1) (fun _ => hlooks) (by omega)
      rw [List.replicate_zero,List.nil_append] at hdiv
      refine iff_of_false hdiv.foldl.ne fun hpacked => ?_
      obtain ⟨c,hc,hne⟩ := hlag.2
      exact hne (hpacked.2 hlag.1 c (by simp [hc]))
    · have hg : some free ∈ o → ∀ c ∈ g, c = free := by
        intro hmem c hc
        by_contra hne
        exact hlag ⟨hmem,c,hc,hne⟩
      have hstep : fillFront free (reading free o) g = reading free (fillOpen o g) := by
        by_cases hmem : some free ∈ o
        · rw [fillFront_of_all_free (hg hmem),reading_fillOpen_of_all_free (hg hmem)]
        · exact (reading_fillOpen_of_notMem hmem).symm
      have hcount : (fillOpen o g).count none + g.length = o.count none :=
        count_fillOpen (by omega)
      rw [hstep,ih hlooks.fillOpen (by omega),mem_fillOpen_iff (by omega),Packed,Packed,
        List.pairwise_cons]
      constructor
      · rintro ⟨hgs,hall⟩
        refine ⟨⟨fun h hh hfree c hc => ?_,hgs⟩,fun hmem c hc => ?_⟩
        · exact hall (Or.inr hfree) c (List.mem_flatten_of_mem hh hc)
        · rcases List.mem_append.mp hc with hc | hc
          · exact hg hmem c hc
          · exact hall (Or.inl hmem) c hc
      · rintro ⟨⟨hhead,hgs⟩,hall⟩
        refine ⟨hgs,fun hmem c hc => ?_⟩
        rcases hmem with hmem | hmem
        · exact hall hmem c (List.mem_append_right g hc)
        · obtain ⟨h,hh,hc⟩ := List.mem_flatten.mp hc
          exact hhead h hh hmem c hc

/-- Filling a list with room group by group does what filling it at once does exactly when the
groups are packed. -/
theorem foldl_fillFront_iff (hfit : gs.flatten.length ≤ l.count free) :
    gs.foldl (fillFront free) l = fillFront free l gs.flatten ↔ Packed free gs := by
  have hopen : gs.flatten.length ≤ (opening free l).count none := by
    rw [count_opening]
    exact hfit
  have h := foldl_reading_iff (looksFirst_of_notMem notMem_opening) hopen
  rw [reading_fillOpen_of_notMem notMem_opening,reading_opening] at h
  rw [h]
  exact and_iff_left fun hmem => absurd hmem notMem_opening

end Groups

end EthernetFirmware.FrontFilling
