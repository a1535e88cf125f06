import Mathlib.Data.List.Induction

/-!
# Runs of labelled transition systems

A system is a partial step function `step : σ → α → Option σ`: from a state, a
label either is not enabled (`none`) or leads to exactly one next state. All
nondeterminism (the order of steps, the answers of the environment) sits in the
labels, so a run is a list of labels and can be evaluated.

* `run` — follow a list of labels.
* `run_invariant`, `run_history` — what one step preserves holds along every
  run, of the state alone or of the state together with the labels so far.
* `Meets` — every step of a run satisfies a condition on the state before it;
  `run_invariant_of_meets`, `run_history_of_meets` are the two rules relative
  to such a condition, `meets_of_invariant` derives one from an invariant.
* `Along`, `along_iff_meets` — a property of every state of a run, and the
  condition on the steps that it comes down to.
* `purge`, `observations`, `run_purge` — a run without some of its steps, and
  when nothing different can be observed of it.
-/

namespace Transition

universe u v w

variable {σ : Type u} {α : Type v}

/-- Follow the labels from `s`; `none` as soon as one of them is not enabled. -/
def run (step : σ → α → Option σ) : σ → List α → Option σ
  | s, [] => some s
  | s, a :: as => (step s a).bind fun t => run step t as

variable {step : σ → α → Option σ}

@[simp] theorem run_nil (s : σ) : run step s [] = some s := rfl

theorem run_cons (s : σ) (a : α) (as : List α) :
    run step s (a :: as) = (step s a).bind fun t => run step t as := rfl

/-- Inversion for a nonempty run. -/
theorem run_cons_eq_some {s t : σ} {a : α} {as : List α}
    (h : run step s (a :: as) = some t) :
    ∃ u, step s a = some u ∧ run step u as = some t := by
  rw [run_cons] at h
  exact Option.bind_eq_some_iff.mp h

/-- A run over a concatenation is a run followed by a run. -/
theorem run_append (s : σ) (as bs : List α) :
    run step s (as ++ bs) = (run step s as).bind fun t => run step t bs := by
  induction as generalizing s with
  | nil => rfl
  | cons a as ih =>
    rw [List.cons_append, run_cons, run_cons]
    rcases step s a with _ | u
    · rfl
    · exact ih u

/-- Inversion for a run whose last label is known. -/
theorem run_concat_eq_some {s t : σ} {as : List α} {a : α}
    (h : run step s (as ++ [a]) = some t) :
    ∃ u, run step s as = some u ∧ step u a = some t := by
  rw [run_append] at h
  obtain ⟨u, hu, ha⟩ := Option.bind_eq_some_iff.mp h
  refine ⟨u, hu, ?_⟩
  obtain ⟨t', ht', hrun⟩ := run_cons_eq_some ha
  rw [run_nil] at hrun
  rw [ht', Option.some.inj hrun]

/-- A run that takes one more step. -/
theorem run_concat {s t : σ} {as : List α} (h : run step s as = some t) (a : α) :
    run step s (as ++ [a]) = step t a := by
  rw [run_append, h, Option.bind_some, run_cons]
  exact Option.bind_fun_some _

/-- Whether a run over given labels ends in a state with a property can be evaluated. -/
instance decidableExistsSome {τ : Type w} {o : Option τ} {P : τ → Prop} [DecidablePred P] :
    Decidable (∃ t, o = some t ∧ P t) :=
  match o with
  | none => isFalse fun ⟨_, h, _⟩ => nomatch h
  | some t => decidable_of_iff (P t)
      ⟨fun h => ⟨t, rfl, h⟩, fun ⟨_, h, hP⟩ => Option.some.inj h ▸ hP⟩

/-! ## Invariants -/

/-- A property of the state and of the labels so far that every step carries
over holds along every run. -/
theorem run_history {P : List α → σ → Prop} {s : σ} (init : P [] s)
    (next : ∀ as u a t, P as u → step u a = some t → P (as ++ [a]) t)
    {as : List α} {t : σ} (h : run step s as = some t) : P as t := by
  induction as using List.reverseRecOn generalizing t with
  | nil =>
    rw [run_nil] at h
    obtain rfl := Option.some.inj h
    exact init
  | append_singleton as a ih =>
    obtain ⟨u, hu, ha⟩ := run_concat_eq_some h
    exact next as u a t (ih hu) ha

/-- An invariant of the steps holds in every state a run reaches. -/
theorem run_invariant {I : σ → Prop} {s : σ} (init : I s)
    (next : ∀ u a t, I u → step u a = some t → I t)
    {as : List α} {t : σ} (h : run step s as = some t) : I t :=
  run_history (P := fun _ => I) init (fun _ u a t => next u a t) h

/-! ## Runs whose steps all meet a condition -/

/-- Every step taken along the labels meets `cond` in the state before it. -/
def Meets (step : σ → α → Option σ) (cond : σ → α → Prop) : σ → List α → Prop
  | _, [] => True
  | s, a :: as => cond s a ∧ ∀ t, step s a = some t → Meets step cond t as

variable {cond : σ → α → Prop}

/-- Whether a given list of labels meets a condition can be evaluated. -/
instance decidableMeets [∀ s a, Decidable (cond s a)] :
    ∀ (s : σ) (as : List α), Decidable (Meets step cond s as)
  | _, [] => isTrue trivial
  | s, a :: as =>
    match h : step s a with
    | none => decidable_of_iff (cond s a)
        ⟨fun hc => ⟨hc, fun _ ht => nomatch h.symm.trans ht⟩, And.left⟩
    | some t =>
      have := decidableMeets t as
      decidable_of_iff (cond s a ∧ Meets step cond t as)
        ⟨fun hc => ⟨hc.1, fun _ ht => Option.some.inj (h.symm.trans ht) ▸ hc.2⟩,
          fun hc => ⟨hc.1, hc.2 t h⟩⟩

/-- A concatenation meets the condition when its parts do. -/
theorem meets_append {s : σ} {as bs : List α} (h : Meets step cond s (as ++ bs)) :
    Meets step cond s as ∧ ∀ t, run step s as = some t → Meets step cond t bs := by
  induction as generalizing s with
  | nil =>
    refine ⟨trivial, fun t ht => ?_⟩
    rw [run_nil] at ht
    obtain rfl := Option.some.inj ht
    exact h
  | cons a as ih =>
    obtain ⟨hc, hrest⟩ := h
    refine ⟨⟨hc, fun u hu => (ih (hrest u hu)).1⟩, fun t ht => ?_⟩
    obtain ⟨u, hu, hrun⟩ := run_cons_eq_some ht
    exact (ih (hrest u hu)).2 t hrun

/-- `run_history`, relative to a condition that all steps of the run meet. -/
theorem run_history_of_meets {P : List α → σ → Prop} {s : σ} (init : P [] s)
    (next : ∀ as u a t, P as u → cond u a → step u a = some t → P (as ++ [a]) t)
    {as : List α} {t : σ} (hm : Meets step cond s as) (h : run step s as = some t) :
    P as t := by
  induction as using List.reverseRecOn generalizing t with
  | nil =>
    rw [run_nil] at h
    obtain rfl := Option.some.inj h
    exact init
  | append_singleton as a ih =>
    obtain ⟨hm₁, hm₂⟩ := meets_append hm
    obtain ⟨u, hu, ha⟩ := run_concat_eq_some h
    exact next as u a t (ih hm₁ hu) (hm₂ u hu).1 ha

/-- `run_invariant`, relative to a condition that all steps of the run meet. -/
theorem run_invariant_of_meets {I : σ → Prop} {s : σ} (init : I s)
    (next : ∀ u a t, I u → cond u a → step u a = some t → I t)
    {as : List α} {t : σ} (hm : Meets step cond s as) (h : run step s as = some t) : I t :=
  run_history_of_meets (P := fun _ => I) init (fun _ u a t => next u a t) hm h

/-- A condition that an invariant of the steps implies is met along every run. -/
theorem meets_of_invariant {I : σ → Prop} {s : σ} (init : I s)
    (next : ∀ u a t, I u → step u a = some t → I t) (holds : ∀ u a, I u → cond u a)
    (as : List α) : Meets step cond s as := by
  induction as generalizing s with
  | nil => exact trivial
  | cons a as ih => exact ⟨holds s a init, fun t ht => ih (next s a t init ht)⟩

/-- A property holds in every state that the labels lead through, the first one included. -/
def Along (step : σ → α → Option σ) (P : σ → Prop) (s : σ) (as : List α) : Prop :=
  ∀ past rest t, as = past ++ rest → run step s past = some t → P t

/-- If a condition says exactly which steps keep a property, then it says exactly along which
runs the property holds. -/
theorem along_iff_meets {I P : σ → Prop} {s : σ} (hI : I s) (hP : P s)
    (next : ∀ u a t, I u → step u a = some t → I t)
    (keep : ∀ u a t, I u → P u → step u a = some t → (P t ↔ cond u a))
    (disabled : ∀ u a, step u a = none → cond u a) (as : List α) :
    Along step P s as ↔ Meets step cond s as := by
  -- the invariant and the property are carried to the state after the first label
  induction as generalizing s with
  | nil =>
    refine ⟨fun _ => trivial, fun _ past rest t heq ht => ?_⟩
    obtain ⟨rfl, -⟩ := List.append_eq_nil_iff.mp heq.symm
    obtain rfl := Option.some.inj ht
    exact hP
  | cons a as ih =>
    constructor
    · intro along
      have hafter : ∀ t, step s a = some t → P t := fun t ht =>
        along [a] as t rfl (by rw [run_cons, ht]; rfl)
      refine ⟨?_, fun t ht => (ih (next s a t hI ht) (hafter t ht)).mp ?_⟩
      · rcases hstep : step s a with _ | t
        · exact disabled s a hstep
        · exact (keep s a t hI hP hstep).mp (hafter t hstep)
      · rintro past rest u rfl hu
        exact along (a :: past) rest u rfl (by rw [run_cons, ht]; exact hu)
    · rintro ⟨hc, hrest⟩ past rest t heq ht
      cases past with
      | nil =>
        obtain rfl := Option.some.inj ht
        exact hP
      | cons b past =>
        obtain ⟨rfl, rfl⟩ := List.cons.inj heq
        obtain ⟨u, hu, hrun⟩ := run_cons_eq_some ht
        have hPu : P u := (keep s a u hI hP hu).mpr hc
        exact (ih (next s a u hI hu) hPu).mpr (hrest u hu) past rest t rfl hrun

/-! ## Leaving steps out -/

section Purge

variable {ω : Type w} (step)

/-- The labels of a run that are to be kept, each judged in the state before its step. -/
def purge (keep : σ → α → Bool) : σ → List α → List α
  | _, [] => []
  | s, a :: as => match step s a with
    | none => []
    | some t => if keep s a then a :: purge keep t as else purge keep t as

/-- What is observed along a run, step by step. -/
def observations (observe : σ → α → List ω) : σ → List α → List ω
  | _, [] => []
  | s, a :: as => match step s a with
    | none => []
    | some t => observe s a ++ observations observe t as

variable {step}

/-- Unwinding: if a step that is left out shows nothing and keeps two states related, and a
step that is kept can be made from both with the same observations, then the kept steps make
a run on their own with the same observations as all steps. -/
theorem run_purge {keep : σ → α → Bool} {observe : σ → α → List ω} {R : σ → σ → Prop}
    (skip : ∀ u a t v, R u v → keep u a = false → step u a = some t →
      R t v ∧ observe u a = [])
    (copy : ∀ u a t v, R u v → keep u a = true → step u a = some t →
      ∃ t', step v a = some t' ∧ R t t' ∧ observe v a = observe u a)
    {s s' t : σ} {as : List α} (hR : R s s') (h : run step s as = some t) :
    ∃ t', run step s' (purge step keep s as) = some t' ∧ R t t' ∧
      observations step observe s' (purge step keep s as) = observations step observe s as := by
  induction as generalizing s s' with
  | nil =>
    obtain rfl := Option.some.inj h
    exact ⟨s', rfl, hR, rfl⟩
  | cons a as ih =>
    obtain ⟨u, hu, hrun⟩ := run_cons_eq_some h
    -- the first label is judged in the state of the full run, also in the purged one
    simp only [purge, observations, hu]
    rcases hkeep : keep s a with _ | _
    · obtain ⟨hRu, hobs⟩ := skip s a u s' hR hkeep hu
      obtain ⟨t', ht', hRt, htrace⟩ := ih hRu hrun
      exact ⟨t', ht', hRt, by rw [hobs, List.nil_append]; exact htrace⟩
    · obtain ⟨u', hu', hRu, hobs⟩ := copy s a u s' hR hkeep hu
      obtain ⟨t', ht', hRt, htrace⟩ := ih hRu hrun
      refine ⟨t', ?_, hRt, ?_⟩
      · rw [if_pos rfl, run_cons, hu']
        exact ht'
      · rw [if_pos rfl]
        simp only [observations, hu']
        rw [hobs, htrace]

end Purge

end Transition
