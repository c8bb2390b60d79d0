import Mathlib.Algebra.BigOperators.Group.Finset.Basic
import Torlane.Transition

/-!
# Potentials

A potential bounds the length of the runs of a transition system. Every step costs one, and is paid
for by a fall of the potential, or by the credit that the action brings with it. So a run is no
longer than its credit allows (`Paid.length_le`), and actions without a credit come to an end, in a
state in which none of them is enabled (`Paid.exists_quiet`). Both are relative to an invariant,
and to the class of the actions that are taken.

Where a system runs any number of tasks, its potential is a sum over those that have been started
(`started`), and `sum_update_add` says how it changes when one of them moves.
-/

namespace Transition

variable {σ α : Type*} {step : σ → α → Option σ} {A : α → Prop} {I : σ → Prop} {μ : σ → ℕ}
  {credit : α → ℕ} {s t u : σ} {as bs : List α}

/-- Two lists of actions are executed one after the other. -/
theorem run_append (s : σ) (as bs : List α) :
    run step s (as ++ bs) = (run step s as).bind (run step · bs) := by
  induction as generalizing s with
  | nil => rfl
  | cons a as ih =>
    cases h : step s a with
    | none => simp [h]
    | some u => simpa [h] using ih u

/-- A run of the actions of a class keeps what each of them preserves. -/
theorem run_invariant (hstep : ∀ s a t, A a → step s a = some t → I s → I t)
    (hA : ∀ a ∈ as, A a) (hs : I s) (h : run step s as = some t) : I t := by
  induction as generalizing s with
  | nil =>
    obtain rfl : s = t := by simpa using h
    exact hs
  | cons a as ih =>
    obtain ⟨u, hu, hrest⟩ := Option.bind_eq_some_iff.mp h
    have hhead : A a := hA a List.mem_cons_self
    have htail : ∀ b ∈ as, A b := fun b hb => hA b (List.mem_cons_of_mem _ hb)
    exact ih htail (hstep s a u hhead hu hs) hrest

/-- No action of the class is enabled. -/
def Quiet (step : σ → α → Option σ) (A : α → Prop) (s : σ) : Prop := ∀ a, A a → step s a = none

/-- The actions of the class keep the invariant, and each of their steps is paid for by the
potential or by its credit. -/
structure Paid (step : σ → α → Option σ) (A : α → Prop) (I : σ → Prop) (μ : σ → ℕ)
    (credit : α → ℕ) : Prop where
  keeps : ∀ s a t, A a → step s a = some t → I s → I t
  pays : ∀ s a t, A a → step s a = some t → I s → μ t + 1 ≤ μ s + credit a

/-- The credit that a list of actions brings with it. -/
def totalCredit (credit : α → ℕ) : List α → ℕ
  | [] => 0
  | a :: as => credit a + totalCredit credit as

/-- A run is no longer than the potential at its start and its credit allow. -/
theorem Paid.length_le (hpaid : Paid step A I μ credit) (hA : ∀ a ∈ as, A a) (hs : I s)
    (h : run step s as = some t) : as.length + μ t ≤ μ s + totalCredit credit as := by
  induction as generalizing s with
  | nil =>
    obtain rfl : s = t := by simpa using h
    simp [totalCredit]
  | cons a as ih =>
    obtain ⟨u, hu, hrest⟩ := Option.bind_eq_some_iff.mp h
    have hhead : A a := hA a List.mem_cons_self
    have htail : ∀ b ∈ as, A b := fun b hb => hA b (List.mem_cons_of_mem _ hb)
    have hpays := hpaid.pays s a u hhead hu hs
    have hlength := ih htail (hpaid.keeps s a u hhead hu hs) hrest
    calc (a :: as).length + μ t = as.length + μ t + 1 := by rw [List.length_cons]; omega
      _ ≤ μ u + totalCredit credit as + 1 := by omega
      _ ≤ μ s + credit a + totalCredit credit as := by omega
      _ = μ s + totalCredit credit (a :: as) := by rw [totalCredit]; omega

/-- The potential alone pays for the actions without a credit. -/
theorem Paid.of_no_credit {B : α → Prop} (hpaid : Paid step A I μ credit)
    (hB : ∀ a, B a → A a ∧ credit a = 0) : Paid step B I μ fun _ => 0 where
  keeps s a t ha h hs := hpaid.keeps s a t (hB a ha).1 h hs
  pays s a t ha h hs := by
    have hpays := hpaid.pays s a t (hB a ha).1 h hs
    rwa [(hB a ha).2] at hpays

/-- Actions without a credit can be taken until none of them is enabled. -/
theorem Paid.exists_quiet (hpaid : Paid step A I μ fun _ => 0) (hs : I s) :
    ∃ as t, (∀ a ∈ as, A a) ∧ run step s as = some t ∧ Quiet step A t := by
  -- Each further action takes the potential down.
  induction hμ : μ s using Nat.strongRecOn generalizing s with
  | ind n ih =>
    by_cases hquiet : Quiet step A s
    · exact ⟨[], s, by simp, rfl, hquiet⟩
    · simp only [Quiet, not_forall] at hquiet
      obtain ⟨a, hA, hne⟩ := hquiet
      obtain ⟨u, hu⟩ := Option.ne_none_iff_exists'.mp hne
      have hpays : μ u + 1 ≤ μ s := hpaid.pays s a u hA hu hs
      have hlt : μ u < n := by omega
      obtain ⟨as, t, has, ht, hquiet⟩ := ih (μ u) hlt (hpaid.keeps s a u hA hu hs) rfl
      have hrun : run step s (a :: as) = some t := by simpa [hu] using ht
      exact ⟨a :: as, t, List.forall_mem_cons.mpr ⟨hA, has⟩, hrun, hquiet⟩

/-- A run can be continued by actions without a credit until none of them is enabled. -/
theorem Paid.settles {B : α → Prop} (hpaid : Paid step A I μ credit)
    (hB : ∀ a, B a → A a ∧ credit a = 0) (hA : ∀ a ∈ as, A a) (hs : I s)
    (h : run step s as = some t) : ∃ rest u, (∀ a ∈ rest, B a) ∧ run step t rest = some u ∧
      run step s (as ++ rest) = some u ∧ Quiet step B u := by
  have hreached : I t := run_invariant hpaid.keeps hA hs h
  obtain ⟨rest, u, hrest, hu, hquiet⟩ := (hpaid.of_no_credit hB).exists_quiet hreached
  have hrun : run step s (as ++ rest) = some u := by
    rw [run_append, h]
    exact hu
  exact ⟨rest, u, hrest, hu, hrun, hquiet⟩

/-! ## Tasks -/

section Tasks

variable {ι β : Type*} [DecidableEq ι] {starts : α → Option ι}

/-- The action starts no task but those of `F`. -/
def StartsIn (starts : α → Option ι) (F : Finset ι) (a : α) : Prop := ∀ c, starts a = some c → c ∈ F

/-- The tasks that a list of actions starts. -/
def started (starts : α → Option ι) (as : List α) : Finset ι := (as.filterMap starts).toFinset

/-- The actions of a list start no task but those that the list starts. -/
theorem startsIn_started (as : List α) : ∀ a ∈ as, StartsIn starts (started starts as) a :=
  fun a ha _ hc => List.mem_toFinset.mpr (List.mem_filterMap.mpr ⟨a, ha, hc⟩)

/-- The sum over the tasks after one of them has moved. -/
theorem sum_update_add {F : Finset ι} {c : ι} (hc : c ∈ F) (f : ι → β) (x : β) (w : β → ℕ) :
    ∑ c' ∈ F, w (Function.update f c x c') + w (f c) = ∑ c' ∈ F, w (f c') + w x := by
  have hmoved : w (Function.update f c x c) = w x := by rw [Function.update_self]
  have hothers : ∑ c' ∈ F.erase c, w (Function.update f c x c') =
      ∑ c' ∈ F.erase c, w (f c') := by
    refine Finset.sum_congr rfl fun c' hc' => ?_
    rw [Function.update_of_ne (Finset.ne_of_mem_erase hc')]
  have hbefore := Finset.add_sum_erase F (fun c' => w (f c')) hc
  have hafter := Finset.add_sum_erase F (fun c' => w (Function.update f c x c')) hc
  omega

end Tasks

end Transition
