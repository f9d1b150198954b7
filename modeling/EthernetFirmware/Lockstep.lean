import EthernetFirmware.GuardedRuns

/-!
# Machines side by side

A machine answers each event and moves to its next state. Two machines
that are fed the same events agree when a relation between their states
holds throughout and every answer is the same. The rules reduce agreement
over whole runs to one event, with or without a condition on the events.
-/

namespace EthernetFirmware.Lockstep

open GuardedRuns

variable {σ τ α ω : Type*}

/-- State after an event. -/
def next (f : σ → α → ω × σ) (s : σ) (a : α) : σ := (f s a).2

/-- Two machines fed the same event. -/
def both (f : σ → α → ω × σ) (g : τ → α → ω × τ) (s : σ × τ) (a : α) : σ × τ :=
  (next f s.1 a,next g s.2 a)

/-- Events of a run with their answers. -/
def log (f : σ → α → ω × σ) : σ → List α → List (α × ω)
  | _, [] => []
  | s, a :: as => (a,(f s a).1) :: log f (next f s a) as

/-- The machines answer an event alike. -/
def SameAnswer (f : σ → α → ω × σ) (g : τ → α → ω × τ) (s : σ × τ) (a : α) : Prop :=
  (f s.1 a).1 = (g s.2 a).1

/-- The machines agree along a run: related states and equal answers. -/
structure Agree (f : σ → α → ω × σ) (g : τ → α → ω × τ) (R : σ → τ → Prop) (s : σ × τ)
    (as : List α) : Prop where
  /-- Every pair of states is related. -/
  states : Along (both f g) (fun s => R s.1 s.2) s as
  /-- Every answer is the same. -/
  answers : Guarded (both f g) (SameAnswer f g) s as

variable {f : σ → α → ω × σ} {g : τ → α → ω × τ} {R S : σ → τ → Prop} {G : σ × τ → α → Prop}
  {s : σ × τ} {as : List α}

/-- The pair of runs is the run of the pair. -/
theorem run_both (s : σ × τ) (as : List α) :
    run (both f g) s as = (run (next f) s.1 as,run (next g) s.2 as) := by
  induction as generalizing s with
  | nil => rfl
  | cons a as ih => exact ih (both f g s a)

/-- Agreement is exact under a condition when, for each event, related
states and the same answer come out exactly under it. -/
theorem agree_iff_guarded
    (hexact : ∀ s a, R s.1 s.2 → (R (both f g s a).1 (both f g s a).2 ∧ SameAnswer f g s a ↔ G s a))
    (hs : R s.1 s.2) : Agree f g R s as ↔ Guarded (both f g) G s as := by
  rw [← along_and_guarded_iff (P := fun s => R s.1 s.2) (I := fun s => R s.1 s.2)
    (Q := SameAnswer f g) (fun _ h => h) (fun s a h hG => ((hexact s a h).mpr hG).1) hexact hs]
  exact ⟨fun h => ⟨h.states,h.answers⟩,fun h => ⟨h.1,h.2⟩⟩

/-- A condition on the first machine alone is one on its own run. -/
theorem guarded_both {H : σ → α → Prop} :
    Guarded (both f g) (fun s a => H s.1 a) s as ↔ Guarded (next f) H s.1 as := by
  induction as generalizing s with
  | nil => simp
  | cons a as ih => exact and_congr_right fun _ => ih

/-- So is a condition on the second machine alone. -/
theorem guarded_second {H : τ → α → Prop} :
    Guarded (both f g) (fun s a => H s.2 a) s as ↔ Guarded (next g) H s.2 as := by
  induction as generalizing s with
  | nil => simp
  | cons a as ih => exact and_congr_right fun _ => ih

/-- Agreement in one event that meets a condition is agreement over the runs
that meet it throughout. -/
theorem agree_of_guarded
    (hstep : ∀ s a, R s.1 s.2 → G s a →
      R (both f g s a).1 (both f g s a).2 ∧ SameAnswer f g s a)
    (hs : R s.1 s.2) (hG : Guarded (both f g) G s as) : Agree f g R s as := by
  have hkeep : ∀ s a, R s.1 s.2 → G s a → R (both f g s a).1 (both f g s a).2 :=
    fun s a h hG => (hstep s a h hG).1
  exact ⟨along_of_guarded (I := fun s => R s.1 s.2) hkeep hs hG,
    guarded_of_invariant (I := fun s => R s.1 s.2) hkeep (fun s a h hG => (hstep s a h hG).2) hs hG⟩

/-- Agreement in one event is agreement over every run. -/
theorem agree_of_step
    (hstep : ∀ s a, R s.1 s.2 → R (both f g s a).1 (both f g s a).2 ∧ SameAnswer f g s a)
    (hs : R s.1 s.2) (as : List α) : Agree f g R s as :=
  agree_of_guarded (fun s a h _ => hstep s a h) hs (guarded_true s as)

/-- Agreeing machines leave the same log. -/
theorem Agree.log_eq (h : Agree f g R s as) : log f s.1 as = log g s.2 as := by
  induction as generalizing s with
  | nil => rfl
  | cons a as ih =>
    have hans : (f s.1 a).1 = (g s.2 a).1 := h.answers.1
    have hrest := ih (s := both f g s a) ⟨h.states.2,h.answers.2⟩
    change (a,(f s.1 a).1) :: log f (next f s.1 a) as = (a,(g s.2 a).1) :: log g (next g s.2 a) as
    rw [hans]
    exact congrArg (List.cons _) hrest

/-- Agreeing machines end in related states. -/
theorem Agree.final (h : Agree f g R s as) :
    R (run (next f) s.1 as) (run (next g) s.2 as) := by
  have hfin := along_final h.states
  rw [run_both] at hfin
  exact hfin

end EthernetFirmware.Lockstep
