import Mathlib.Data.List.Basic

/-!
# Guarded finite runs

Finite runs of a total step function, the states a run goes through,
and the conditions its steps meet. A step that is not enabled is a
stuttering step, so every list of events is a run. The rules reduce a
statement about whole runs to one step: an invariant kept by guarded
steps holds along every guarded run, and an exact one-step condition is
the exact condition of the run. A measure that some step lowers as long as a
goal is not reached gives a run to the goal.
-/

namespace EthernetFirmware.GuardedRuns

variable {σ α : Type*}

/-- State reached from `s` by the listed events in order. -/
def run (step : σ → α → σ) : σ → List α → σ
  | s, [] => s
  | s, a :: as => run step (step s a) as

/-- `P` holds in the start state and in every state the run goes through. -/
def Along (step : σ → α → σ) (P : σ → Prop) : σ → List α → Prop
  | s, [] => P s
  | s, a :: as => P s ∧ Along step P (step s a) as

/-- Every event meets the condition in the state just before it. -/
def Guarded (step : σ → α → σ) (G : σ → α → Prop) : σ → List α → Prop
  | _, [] => True
  | s, a :: as => G s a ∧ Guarded step G (step s a) as

variable {step : σ → α → σ} {P I : σ → Prop} {G Q : σ → α → Prop}

instance decidableGuarded [∀ s a, Decidable (G s a)] :
    (s : σ) → (as : List α) → Decidable (Guarded step G s as)
  | _, [] => isTrue trivial
  | s, a :: as =>
    have := decidableGuarded (step s a) as
    inferInstanceAs (Decidable (_ ∧ _))

@[simp] theorem run_nil (s : σ) : run step s [] = s := rfl

@[simp] theorem run_cons (s : σ) (a : α) (as : List α) :
    run step s (a :: as) = run step (step s a) as := rfl

@[simp] theorem along_nil (s : σ) : Along step P s [] ↔ P s := Iff.rfl

@[simp] theorem along_cons (s : σ) (a : α) (as : List α) :
    Along step P s (a :: as) ↔ P s ∧ Along step P (step s a) as := Iff.rfl

@[simp] theorem guarded_nil (s : σ) : Guarded step G s [] := trivial

@[simp] theorem guarded_cons (s : σ) (a : α) (as : List α) :
    Guarded step G s (a :: as) ↔ G s a ∧ Guarded step G (step s a) as := Iff.rfl

/-- A run of two lists is the second run from where the first one ends. -/
theorem run_append (s : σ) (as bs : List α) :
    run step s (as ++ bs) = run step (run step s as) bs := by
  induction as generalizing s with
  | nil => rfl
  | cons a as ih => exact ih (step s a)

theorem along_start {s : σ} {as : List α} (h : Along step P s as) : P s := by
  cases as with
  | nil => exact h
  | cons a as => exact h.1

/-- The states a run goes through are those its prefixes end in. -/
theorem along_iff_prefixes {s : σ} {as : List α} :
    Along step P s as ↔ ∀ bs, bs <+: as → P (run step s bs) := by
  induction as generalizing s with
  | nil => simp
  | cons a as ih =>
    constructor
    · rintro ⟨hs,has⟩ bs hbs
      cases bs with
      | nil => exact hs
      | cons b bs =>
        obtain ⟨rfl,hrest⟩ := List.cons_prefix_cons.mp hbs
        exact ih.mp has bs hrest
    · intro h
      refine ⟨h [] List.nil_prefix,ih.mpr ?_⟩
      intro bs hbs
      exact h (a :: bs) (List.cons_prefix_cons.mpr ⟨rfl,hbs⟩)

/-- The last state of a run is one of its states. -/
theorem along_final {s : σ} {as : List α} (h : Along step P s as) :
    P (run step s as) :=
  along_iff_prefixes.mp h as List.prefix_rfl

theorem along_mono {s : σ} {as : List α} {R : σ → Prop} (hPR : ∀ s, P s → R s)
    (h : Along step P s as) : Along step R s as := by
  rw [along_iff_prefixes] at h ⊢
  intro bs hbs
  exact hPR _ (h bs hbs)

/-- An invariant kept by guarded steps holds along every guarded run. -/
theorem along_of_guarded {s : σ} {as : List α}
    (hkeep : ∀ s a, I s → G s a → I (step s a)) (hs : I s)
    (h : Guarded step G s as) : Along step I s as := by
  induction as generalizing s with
  | nil => exact hs
  | cons a as ih => exact ⟨hs,ih (hkeep s a hs h.1) h.2⟩

/-- A guarded run of two lists is guarded in both parts. -/
theorem guarded_append {s : σ} {as bs : List α} :
    Guarded step G s (as ++ bs) ↔ Guarded step G s as ∧ Guarded step G (run step s as) bs := by
  induction as generalizing s with
  | nil => simp
  | cons a as ih =>
    rw [List.cons_append,guarded_cons,guarded_cons,run_cons,ih,and_assoc]

/-- A guarded run of a list and one event more. -/
theorem guarded_concat {s : σ} {as : List α} {a : α} :
    Guarded step G s (as ++ [a]) ↔ Guarded step G s as ∧ G (run step s as) a := by
  rw [guarded_append,guarded_cons]
  simp

/-- Events that meet the condition in every state make a guarded run. -/
theorem guarded_of_all {s : σ} {as : List α} (h : ∀ s, ∀ a ∈ as, G s a) :
    Guarded step G s as := by
  induction as generalizing s with
  | nil => trivial
  | cons a as ih =>
    exact ⟨h s a List.mem_cons_self,ih fun s b hb => h s b (List.mem_cons_of_mem a hb)⟩

/-- A condition on events alone is met by each event of the run. -/
theorem guarded_const_iff {H : α → Prop} {s : σ} {as : List α} :
    Guarded step (fun _ a => H a) s as ↔ ∀ a ∈ as, H a := by
  induction as generalizing s with
  | nil => simp
  | cons a as ih => rw [guarded_cons,ih,List.forall_mem_cons]

/-- Conditions that agree in every state agree along runs. -/
theorem guarded_congr {H : σ → α → Prop} {s : σ} {as : List α} (h : ∀ s a, G s a ↔ H s a) :
    Guarded step G s as ↔ Guarded step H s as := by
  induction as generalizing s with
  | nil => simp
  | cons a as ih => rw [guarded_cons,guarded_cons,h,ih]

/-- Two conditions are met along a run exactly when both are. -/
theorem guarded_and {H : σ → α → Prop} {s : σ} {as : List α} :
    Guarded step (fun s a => G s a ∧ H s a) s as ↔ Guarded step G s as ∧ Guarded step H s as := by
  induction as generalizing s with
  | nil => simp
  | cons a as ih =>
    rw [guarded_cons,guarded_cons,guarded_cons,ih]
    exact and_and_and_comm

theorem guarded_true (s : σ) (as : List α) : Guarded step (fun _ _ => True) s as :=
  guarded_of_all fun _ _ _ => trivial

/-- What every step keeps holds at the end of every run. -/
theorem run_invariant {s : σ} (hkeep : ∀ s a, I s → I (step s a)) (hs : I s) (as : List α) :
    I (run step s as) :=
  along_final (along_of_guarded (fun s a h _ => hkeep s a h) hs (guarded_true s as))

/-- The steps of a guarded run have what guarded steps from the
invariant have. -/
theorem guarded_of_invariant {s : σ} {as : List α}
    (hkeep : ∀ s a, I s → G s a → I (step s a))
    (hstep : ∀ s a, I s → G s a → Q s a) (hs : I s)
    (h : Guarded step G s as) : Guarded step Q s as := by
  induction as generalizing s with
  | nil => trivial
  | cons a as ih => exact ⟨hstep s a hs h.1,ih (hkeep s a hs h.1) h.2⟩

/-- When, from the invariant, a step is right exactly under the guard, a
run is right at every step exactly when it is guarded throughout. The steps
may be those that an environment allows. -/
theorem along_and_guarded_iff_of_allowed {A : σ → α → Prop} {s : σ} {as : List α}
    (hgood : ∀ s, I s → P s) (hkeep : ∀ s a, I s → A s a → G s a → I (step s a))
    (hexact : ∀ s a, I s → A s a → (P (step s a) ∧ Q s a ↔ G s a)) (hs : I s)
    (hallowed : Guarded step A s as) :
    Along step P s as ∧ Guarded step Q s as ↔ Guarded step G s as := by
  induction as generalizing s with
  | nil => simp [hgood s hs]
  | cons a as ih =>
    obtain ⟨hA,hAs⟩ := hallowed
    constructor
    · rintro ⟨⟨-,hP⟩,hQ,hQs⟩
      have hG : G s a := (hexact s a hs hA).mp ⟨along_start hP,hQ⟩
      exact ⟨hG,(ih (hkeep s a hs hA hG) hAs).mp ⟨hP,hQs⟩⟩
    · rintro ⟨hG,hGs⟩
      obtain ⟨hP,hQs⟩ := (ih (hkeep s a hs hA hG) hAs).mpr hGs
      exact ⟨⟨hgood s hs,hP⟩,((hexact s a hs hA).mpr hG).2,hQs⟩

/-- The same rule for an environment that allows every step. -/
theorem along_and_guarded_iff {s : σ} {as : List α}
    (hgood : ∀ s, I s → P s) (hkeep : ∀ s a, I s → G s a → I (step s a))
    (hexact : ∀ s a, I s → (P (step s a) ∧ Q s a ↔ G s a)) (hs : I s) :
    Along step P s as ∧ Guarded step Q s as ↔ Guarded step G s as :=
  along_and_guarded_iff_of_allowed hgood (fun s a hI _ => hkeep s a hI)
    (fun s a hI _ => hexact s a hI) hs (guarded_true s as)

/-- The same rule for a property of states alone. -/
theorem along_iff_guarded {s : σ} {as : List α}
    (hgood : ∀ s, I s → P s) (hkeep : ∀ s a, I s → G s a → I (step s a))
    (hexact : ∀ s a, I s → (P (step s a) ↔ G s a)) (hs : I s) :
    Along step P s as ↔ Guarded step G s as := by
  have h : Along step P s as ∧ Guarded step (fun _ _ => True) s as ↔ Guarded step G s as :=
    along_and_guarded_iff hgood hkeep (fun s a hI => by simpa using hexact s a hI) hs
  simpa [guarded_true s as] using h

/-- The same rule for a property of steps alone, among the steps that an
environment allows. -/
theorem guarded_iff_guarded_of_allowed {A : σ → α → Prop} {s : σ} {as : List α}
    (hkeep : ∀ s a, I s → A s a → G s a → I (step s a))
    (hexact : ∀ s a, I s → A s a → (Q s a ↔ G s a)) (hs : I s) (hallowed : Guarded step A s as) :
    Guarded step Q s as ↔ Guarded step G s as := by
  have h : Along step (fun _ => True) s as ∧ Guarded step Q s as ↔ Guarded step G s as :=
    along_and_guarded_iff_of_allowed (fun _ _ => trivial) hkeep
      (fun s a hI hA => by simpa using hexact s a hI hA) hs hallowed
  rw [← h]
  exact (and_iff_right (along_iff_prefixes.mpr fun _ _ => trivial)).symm

/-- The same rule for a property of steps alone. -/
theorem guarded_iff_guarded {s : σ} {as : List α}
    (hkeep : ∀ s a, I s → G s a → I (step s a)) (hexact : ∀ s a, I s → (Q s a ↔ G s a))
    (hs : I s) : Guarded step Q s as ↔ Guarded step G s as :=
  guarded_iff_guarded_of_allowed (fun s a hI _ => hkeep s a hI) (fun s a hI _ => hexact s a hI) hs
    (guarded_true s as)

/-- While some step from the invariant lowers a measure, a run reaches the
goal. -/
theorem exists_run_of_measure {Goal : σ → Prop} {s : σ} (measure : σ → ℕ)
    (hkeep : ∀ s a, I s → I (step s a))
    (hlower : ∀ s, I s → ¬ Goal s → ∃ a, measure (step s a) < measure s) (hs : I s) :
    ∃ as, Goal (run step s as) := by
  induction hm : measure s using Nat.strongRecOn generalizing s with
  | _ m ih =>
    by_cases hgoal : Goal s
    · exact ⟨[],hgoal⟩
    obtain ⟨a,ha⟩ := hlower s hs hgoal
    rw [hm] at ha
    obtain ⟨as,has⟩ := ih _ ha (hkeep s a hs) rfl
    exact ⟨a :: as,has⟩

/-- A run whose steps all leave the state alone ends where it started. -/
theorem run_eq_of_unchanged {s : σ} {as : List α}
    (h : Guarded step (fun s a => step s a = s) s as) : run step s as = s := by
  induction as generalizing s with
  | nil => rfl
  | cons a as ih =>
    have hrest := ih h.2
    rw [h.1] at hrest
    rw [run_cons,h.1]
    exact hrest

end EthernetFirmware.GuardedRuns
