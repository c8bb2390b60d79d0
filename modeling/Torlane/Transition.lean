import Mathlib.Logic.Relation

/-!
# Partial transition systems

A transition system is a partial function `step : σ → α → Option σ`: the state that an action leads
to, and `none` where the action is not enabled. All nondeterminism is in the choice of the action.

Two views of a run are used. `Reaches` forgets the actions, and `Reaches.invariant` is the rule that
carries an invariant along it. `Along` and `Always` keep the list of the actions, for statements
that compare the steps of a run with the states it visits. A guard `G : σ → α → Prop` restricts the
runs to those whose every step meets it. `observed` collects what is seen along a list of actions,
in order.
-/

namespace Transition

variable {σ α β : Type*}

/-- One step that meets the guard `G`. -/
def Next (step : σ → α → Option σ) (G : σ → α → Prop) (s t : σ) : Prop :=
  ∃ a, G s a ∧ step s a = some t

/-- `t` is reached from `s` by steps that all meet the guard `G`. -/
def Reaches (step : σ → α → Option σ) (G : σ → α → Prop) : σ → σ → Prop :=
  Relation.ReflTransGen (Next step G)

/-- The guard that every step meets. -/
def anyStep : σ → α → Prop := fun _ _ => True

variable {step : σ → α → Option σ} {G : σ → α → Prop} {s t u : σ}

/-- A state reaches itself. -/
theorem Reaches.refl : Reaches step G s s := Relation.ReflTransGen.refl

/-- Runs compose. -/
theorem Reaches.trans (h : Reaches step G s t) (h' : Reaches step G t u) : Reaches step G s u :=
  Relation.ReflTransGen.trans h h'

/-- A run followed by one more step. -/
theorem Reaches.tail {a : α} (h : Reaches step G s t) (hG : G t a) (ht : step t a = some u) :
    Reaches step G s u :=
  Relation.ReflTransGen.tail h ⟨a, hG, ht⟩

/-- One step is a run. -/
theorem Reaches.single {a : α} (hG : G s a) (hs : step s a = some t) : Reaches step G s t :=
  Reaches.refl.tail hG hs

/-- The invariant rule: what every guarded step preserves holds at the end of a run if it holds at
its start. -/
theorem Reaches.invariant {I : σ → Prop}
    (hstep : ∀ s a t, G s a → step s a = some t → I s → I t)
    (h : Reaches step G s t) (hs : I s) : I t := by
  induction h with
  | refl => exact hs
  | tail _ hnext ih =>
    obtain ⟨a, hG, ht⟩ := hnext
    exact hstep _ a _ hG ht ih

/-- The invariant rule relative to an invariant `J` that is known already. -/
theorem Reaches.invariant_of {I J : σ → Prop}
    (hJ : ∀ s a t, G s a → step s a = some t → J s → J t)
    (hI : ∀ s a t, G s a → step s a = some t → J s → I s → I t)
    (h : Reaches step G s t) (hs : J s) (hs' : I s) : I t :=
  (h.invariant (I := fun s => J s ∧ I s)
    (fun s a t hG ht ⟨hj, hi⟩ => ⟨hJ s a t hG ht hj, hI s a t hG ht hj hi⟩) ⟨hs, hs'⟩).2

/-- The state after a list of actions, or `none` if one of them is not enabled. -/
def run (step : σ → α → Option σ) : σ → List α → Option σ
  | s, [] => some s
  | s, a :: as => (step s a).bind (run step · as)

/-- Every step that a list of actions takes meets the guard. -/
def Along (step : σ → α → Option σ) (G : σ → α → Prop) : σ → List α → Prop
  | _, [] => True
  | s, a :: as => G s a ∧ ∀ t, step s a = some t → Along step G t as

/-- Every state that a list of actions visits has the property `P`. -/
def Always (step : σ → α → Option σ) (P : σ → Prop) : σ → List α → Prop
  | s, [] => P s
  | s, a :: as => P s ∧ ∀ t, step s a = some t → Always step P t as

/-- What is seen along a list of actions, in order; it ends with the first action that is not
enabled. -/
def observed (step : σ → α → Option σ) (obs : σ → α → List β) : σ → List α → List β
  | _, [] => []
  | s, a :: as =>
    match step s a with
    | none => []
    | some t => obs s a ++ observed step obs t as

@[simp] theorem run_nil : run step s [] = some s := rfl

@[simp] theorem run_cons {a : α} {as : List α} :
    run step s (a :: as) = (step s a).bind (run step · as) := rfl

/-- A guard is met by an enabled action and by the steps behind it. -/
theorem Along.of_step {a : α} {as : List α} (hG : G s a) (ht : step s a = some t)
    (h : Along step G t as) : Along step G s (a :: as) :=
  ⟨hG, fun _ hu => Option.some.inj (ht.symm.trans hu) ▸ h⟩

/-- A property holds before an enabled action and along the steps behind it. -/
theorem Always.of_step {P : σ → Prop} {a : α} {as : List α} (hP : P s) (ht : step s a = some t)
    (h : Always step P t as) : Always step P s (a :: as) :=
  ⟨hP, fun _ hu => Option.some.inj (ht.symm.trans hu) ▸ h⟩

/-- The end of an executed list of actions is reached. -/
theorem reaches_of_run {as : List α} (h : run step s as = some t) : Reaches step anyStep s t := by
  induction as generalizing s with
  | nil =>
    obtain rfl : s = t := by simpa using h
    exact .refl
  | cons a as ih =>
    obtain ⟨u, hu, hrest⟩ := Option.bind_eq_some_iff.mp h
    exact (Reaches.single trivial hu).trans (ih hrest)

/-- Steps that meet the guard keep the invariant, so that every state they visit has the property
that it implies. -/
theorem Along.always {I P : σ → Prop}
    (hstep : ∀ s a t, G s a → step s a = some t → I s → I t) (hP : ∀ s, I s → P s)
    {as : List α} (hs : I s) (h : Along step G s as) : Always step P s as := by
  induction as generalizing s with
  | nil => exact hP s hs
  | cons a as ih => exact ⟨hP s hs, fun t ht => ih (hstep s a t h.1 ht hs) (h.2 t ht)⟩

/-- Where a step that breaks the guard leads to a state without the property, a run that keeps the
property keeps the guard on its enabled steps. `J` is an invariant of all steps. -/
theorem Always.along {J P : σ → Prop} (hJ : ∀ s a t, step s a = some t → J s → J t)
    (hbreak : ∀ s a t, J s → step s a = some t → ¬ G s a → ¬ P t)
    (hdisabled : ∀ s a, step s a = none → G s a)
    {as : List α} (hs : J s) (h : Always step P s as) : Along step G s as := by
  induction as generalizing s with
  | nil => trivial
  | cons a as ih =>
    -- The property of the state after the step decides whether the step has met the guard.
    refine ⟨?_, fun t ht => ih (hJ s a t ht hs) (h.2 t ht)⟩
    cases ht : step s a with
    | none => exact hdisabled s a ht
    | some t =>
      have hPt : P t := by
        have hrest := h.2 t ht
        cases as with
        | nil => exact hrest
        | cons => exact hrest.1
      exact Classical.not_not.mp fun hG => hbreak s a t hs ht hG hPt

/-- An invariant that relates the state to what has been seen so far is kept along a run, if each
step keeps it when its own observations are added. -/
theorem observed_invariant {obs : σ → α → List β} {I : σ → List β → Prop}
    (hstep : ∀ s a t seen, step s a = some t → I s seen → I t (seen ++ obs s a))
    {as : List α} {seen : List β} (hs : I s seen) (h : run step s as = some t) :
    I t (seen ++ observed step obs s as) := by
  induction as generalizing s seen with
  | nil =>
    obtain rfl : s = t := by simpa using h
    simpa [observed] using hs
  | cons a as ih =>
    obtain ⟨u, hu, hrest⟩ := Option.bind_eq_some_iff.mp h
    simp only [observed, hu, ← List.append_assoc]
    exact ih (hstep s a u seen hu hs) hrest

/-- A property of every visited state is one of the first. -/
theorem Always.head {P : σ → Prop} {as : List α} (h : Always step P s as) : P s := by
  cases as with
  | nil => exact h
  | cons a as => exact h.1

/-- The same along a run whose states all have a property: a step has to keep the invariant only
between states that have it. -/
theorem Always.observed_invariant {P : σ → Prop} {obs : σ → α → List β} {I : σ → List β → Prop}
    (hstep : ∀ s a t seen, P s → P t → step s a = some t → I s seen → I t (seen ++ obs s a))
    {as : List α} {seen : List β} (hs : I s seen) (halways : Always step P s as)
    (h : run step s as = some t) : I t (seen ++ observed step obs s as) := by
  induction as generalizing s seen with
  | nil =>
    obtain rfl : s = t := by simpa using h
    simpa [observed] using hs
  | cons a as ih =>
    obtain ⟨u, hu, hrest⟩ := Option.bind_eq_some_iff.mp h
    have hafter : Always step P u as := halways.2 u hu
    simp only [observed, hu, ← List.append_assoc]
    exact ih (hstep s a u seen halways.1 hafter.head hu hs) hafter hrest

/-- What is seen may be mapped step by step. -/
theorem observed_map {γ : Type*} (f : β → γ) (obs : σ → α → List β) (s : σ) (as : List α) :
    observed step (fun s a => (obs s a).map f) s as = (observed step obs s as).map f := by
  induction as generalizing s with
  | nil => rfl
  | cons a as ih =>
    cases h : step s a with
    | none => simp only [observed, h, List.map_nil]
    | some t => simp only [observed, h, ih, List.map_append]

end Transition
