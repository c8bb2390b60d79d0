import Mathlib.Data.Nat.Notation
import Mathlib.Tactic.ByContra

/-!
# Dialogues

A party that asks one question after the other, each after the answer to the one before, and that
returns a value in the end. `sent` is what it has asked when the answers run out, and `outcome` what
it has returned by then. The answers are a plain list: whoever gives them may choose each of them
after seeing the questions, and a statement about every list is about every such choice.

Dialogues are a lawful monad. A dialogue that may fail returns an `Except`. It is `Careful` if it
asks nothing more after an answer that is not good: sequencing keeps this (`Careful.bind`), and
`Careful.good_of_sent` is what it says about the questions.
-/

universe u v

/-- A dialogue with questions in `Q` and answers in `R`. -/
inductive Dialogue (Q R : Type v) (α : Type u) : Type (max u v) where
  | ret (value : α)
  | ask (question : Q) (next : R → Dialogue Q R α)

namespace Dialogue

variable {Q R : Type v} {α β ε : Type u}

/-- One dialogue after the other. -/
def bind : Dialogue Q R α → (α → Dialogue Q R β) → Dialogue Q R β
  | ret value, f => f value
  | ask question next, f => ask question fun answer => (next answer).bind f

instance : Monad (Dialogue Q R) where
  pure := ret
  bind := bind

/-- Sequencing is associative. -/
theorem bind_assoc {γ : Type u} (d : Dialogue Q R α) (f : α → Dialogue Q R β)
    (g : β → Dialogue Q R γ) : (d.bind f).bind g = d.bind fun value => (f value).bind g := by
  induction d with
  | ret value => rfl
  | ask question next ih =>
    show ask question (fun answer => ((next answer).bind f).bind g) = _
    rw [funext ih]
    rfl

/-- To return at the end changes nothing. -/
theorem bind_ret (d : Dialogue Q R α) : d.bind ret = d := by
  induction d with
  | ret value => rfl
  | ask question next ih =>
    show ask question (fun answer => (next answer).bind ret) = _
    rw [funext ih]

instance : LawfulMonad (Dialogue Q R) :=
  LawfulMonad.mk' (Dialogue Q R) (fun d => by
    show d.bind (fun value => ret value) = d
    exact bind_ret d) (fun _ _ => rfl) bind_assoc

/-- What is asked, with these answers. -/
def sent : Dialogue Q R α → List R → List Q
  | ret _, _ => []
  | ask question _, [] => [question]
  | ask question next, answer :: answers => question :: (next answer).sent answers

/-- What is returned, with these answers, unless a further answer is waited for. -/
def outcome : Dialogue Q R α → List R → Option α
  | ret value, _ => some value
  | ask _ _, [] => none
  | ask _ next, answer :: answers => (next answer).outcome answers

/-- After an answer that is not good, the dialogue ends with an error. -/
inductive Careful (good : R → Prop) : Dialogue Q R (Except ε α) → Prop
  | ret (value : Except ε α) : Careful good (ret value)
  | ask {question : Q} {next : R → Dialogue Q R (Except ε α)}
      (hstop : ∀ answer, ¬ good answer → ∃ error, next answer = .ret (.error error))
      (hnext : ∀ answer, Careful good (next answer)) : Careful good (ask question next)

variable {good : R → Prop}

/-- Whoever asks on has had a good answer. -/
theorem Careful.good_of_sent {d : Dialogue Q R (Except ε α)} (h : Careful good d)
    {answers : List R} {i : ℕ} (hi : i + 1 < (d.sent answers).length) :
    ∃ answer, answers[i]? = some answer ∧ good answer := by
  induction h generalizing answers i with
  | ret value => simp [sent] at hi
  | @ask question next hstop _ ih =>
    cases answers with
    | nil => simp [sent] at hi
    | cons answer answers =>
      have hlen : i < ((next answer).sent answers).length := by
        simp only [sent, List.length_cons] at hi
        omega
      cases i with
      | zero =>
        refine ⟨answer, rfl, ?_⟩
        by_contra hbad
        obtain ⟨error, heq⟩ := hstop answer hbad
        simp [heq, sent] at hlen
      | succ i =>
        have hgood := ih answer hlen
        simpa using hgood

/-- A careful dialogue that goes on carefully. -/
theorem Careful.bind {s : ExceptT ε (Dialogue Q R) α} {f : α → ExceptT ε (Dialogue Q R) β}
    (hs : Careful good s.run) (hf : ∀ a, Careful good (f a).run) : Careful good (s >>= f).run := by
  show Careful good (Dialogue.bind s.run (ExceptT.bindCont f))
  generalize s.run = d at hs ⊢
  induction hs with
  | ret value =>
    cases value with
    | error error => exact .ret _
    | ok a => exact hf a
  | @ask question next hstop _ ih =>
    refine .ask (fun answer hbad => ?_) ih
    obtain ⟨error, heq⟩ := hstop answer hbad
    exact ⟨error, by rw [heq]; rfl⟩

end Dialogue
