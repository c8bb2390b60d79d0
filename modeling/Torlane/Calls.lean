import Mathlib.Logic.Relation
import Torlane.Dialogue

/-!
# Programs that make calls

A program makes calls to a system, each after the answer to the one before, and returns a value in
the end. Unlike in a `Dialogue`, the type of an answer depends on the call. What a call does is a
relation between the system's state before it, the answer, and the state after it (its effect), so a
call may be answered in several ways, and a statement about every answer is one about every
behaviour of the system.

`Meets` is the weakest precondition of a program: each call is made in a state in which the guard
allows it, and the value is returned in a state in which the postcondition holds. Its rules follow
the program (`meets_bind`, `meets_bind_except`), and `Meets.reaches` says what it means for the
states that a run visits. A `Dialogue` becomes a program once its questions are calls (`interpret`).
-/

universe u v w x

/-- A program with calls in `Q`, answered in `R`. -/
inductive Calls (Q : Type u) (R : Q → Type v) (α : Type w) : Type (max u v w) where
  | ret (value : α)
  | call (q : Q) (next : R q → Calls Q R α)

namespace Calls

variable {Q : Type u} {R : Q → Type v} {α β ε : Type w} {σ : Type x}

/-- One program after the other. -/
def bind : Calls Q R α → (α → Calls Q R β) → Calls Q R β
  | ret value, f => f value
  | call q next, f => call q fun r => (next r).bind f

instance : Monad (Calls Q R) where
  pure := ret
  bind := bind

/-- Sequencing is associative. -/
theorem bind_assoc {γ : Type w} (p : Calls Q R α) (f : α → Calls Q R β) (g : β → Calls Q R γ) :
    (p.bind f).bind g = p.bind fun value => (f value).bind g := by
  induction p with
  | ret value => rfl
  | call q next ih =>
    show call q (fun r => ((next r).bind f).bind g) = _
    rw [funext ih]
    rfl

/-- To return at the end changes nothing. -/
theorem bind_ret (p : Calls Q R α) : p.bind ret = p := by
  induction p with
  | ret value => rfl
  | call q next ih =>
    show call q (fun r => (next r).bind ret) = _
    rw [funext ih]

instance : LawfulMonad (Calls Q R) :=
  LawfulMonad.mk' (Calls Q R) (fun p => by
    show p.bind (fun value => ret value) = p
    exact bind_ret p) (fun _ _ => rfl) bind_assoc

/-- A single call. -/
def make (q : Q) : Calls Q R (R q) := call q ret

/-! ## Weakest preconditions -/

/-- The states before and after each call, with its answer. -/
abbrev Effect (Q : Type u) (R : Q → Type v) (σ : Type x) := (q : Q) → σ → R q → σ → Prop

/-- With every answer, each call is made where the guard allows it, and the value is returned where
the postcondition holds. -/
def Meets (effect : Effect Q R σ) (guard : σ → Q → Prop) (post : α → σ → Prop) :
    Calls Q R α → σ → Prop
  | ret value, s => post value s
  | call q next, s => guard s q ∧ ∀ r t, effect q s r t → Meets effect guard post (next r) t

variable {effect : Effect Q R σ} {guard guard' : σ → Q → Prop} {s t : σ}

@[simp] theorem meets_ret {post : α → σ → Prop} {value : α} :
    (ret value : Calls Q R α).Meets effect guard post s ↔ post value s := Iff.rfl

@[simp] theorem meets_pure {post : α → σ → Prop} {value : α} :
    (pure value : Calls Q R α).Meets effect guard post s ↔ post value s := Iff.rfl

/-- A single call. -/
@[simp] theorem meets_make {q : Q} {post : R q → σ → Prop} :
    (make q : Calls Q R (R q)).Meets effect guard post s ↔
      guard s q ∧ ∀ r t, effect q s r t → post r t := Iff.rfl

/-- What a program does and returns may be said with less. -/
theorem Meets.mono {p : Calls Q R α} {post post' : α → σ → Prop}
    (hguard : ∀ s q, guard s q → guard' s q) (hpost : ∀ value t, post value t → post' value t)
    (h : p.Meets effect guard post s) : p.Meets effect guard' post' s := by
  induction p generalizing s with
  | ret value => exact hpost value s h
  | call q next ih => exact ⟨hguard s q h.1, fun r t hr => ih r (h.2 r t hr)⟩

/-- What a program returns may be said with less. -/
theorem Meets.imp {p : Calls Q R α} {post post' : α → σ → Prop}
    (h : p.Meets effect guard post s) (hpost : ∀ value t, post value t → post' value t) :
    p.Meets effect guard post' s :=
  h.mono (fun _ _ hq => hq) hpost

/-- In a system that can do less, a program meets the same. -/
theorem Meets.of_effect {effect' : Effect Q R σ} {p : Calls Q R α} {post : α → σ → Prop}
    (h : p.Meets effect guard post s) (heffect : ∀ q s r t, effect' q s r t → effect q s r t) :
    p.Meets effect' guard post s := by
  induction p generalizing s with
  | ret value => exact h
  | call q next ih => exact ⟨h.1, fun r t hr => ih r (h.2 r t (heffect q s r t hr))⟩

/-- What every call keeps, every program keeps. -/
theorem meets_invariant {inv : σ → Prop} (hcall : ∀ q s r t, inv s → effect q s r t → inv t)
    (p : Calls Q R α) (hs : inv s) :
    p.Meets effect (fun t _ => inv t) (fun _ t => inv t) s := by
  induction p generalizing s with
  | ret value => exact hs
  | call q next ih => exact ⟨hs, fun r t hr => ih r (hcall q s r t hs hr)⟩

/-- Two facts about a program are one fact. -/
theorem Meets.and {p : Calls Q R α} {post post' : α → σ → Prop}
    (h : p.Meets effect guard post s) (h' : p.Meets effect guard' post' s) :
    p.Meets effect (fun s q => guard s q ∧ guard' s q)
      (fun value t => post value t ∧ post' value t) s := by
  induction p generalizing s with
  | ret value => exact ⟨h, h'⟩
  | call q next ih => exact ⟨⟨h.1, h'.1⟩, fun r t hr => ih r (h.2 r t hr) (h'.2 r t hr)⟩

/-- Sequencing: the second program starts where the first one has returned. -/
theorem meets_bind {p : Calls Q R α} {f : α → Calls Q R β} {post : β → σ → Prop} :
    (p >>= f).Meets effect guard post s ↔
      p.Meets effect guard (fun value t => (f value).Meets effect guard post t) s := by
  show (p.bind f).Meets effect guard post s ↔ _
  induction p generalizing s with
  | ret value => rfl
  | call q next ih =>
    show (guard s q ∧ ∀ r t, effect q s r t → ((next r).bind f).Meets effect guard post t) ↔
      guard s q ∧ ∀ r t, effect q s r t → (next r).Meets effect guard _ t
    simp only [ih]

/-- Sequencing, after what is known of the first program. -/
theorem Meets.bind {p : Calls Q R α} {f : α → Calls Q R β} {mid : α → σ → Prop}
    {post : β → σ → Prop} (h : p.Meets effect guard mid s)
    (hf : ∀ value t, mid value t → (f value).Meets effect guard post t) :
    (p >>= f).Meets effect guard post s :=
  meets_bind.mpr (h.imp hf)

/-! ## Programs that fail -/

/-- What holds of a value, or of an error. -/
def orElse (post : α → σ → Prop) (fail : ε → σ → Prop) : Except ε α → σ → Prop
  | .ok value, t => post value t
  | .error error, t => fail error t

@[simp] theorem orElse_ok {post : α → σ → Prop} {fail : ε → σ → Prop} {value : α} :
    orElse post fail (.ok value) t ↔ post value t := Iff.rfl

@[simp] theorem orElse_error {post : α → σ → Prop} {fail : ε → σ → Prop} {error : ε} :
    orElse post fail (.error error) t ↔ fail error t := Iff.rfl

/-- Sequencing: an error of the first program ends both. -/
theorem meets_bind_except {p : ExceptT ε (Calls Q R) α} {f : α → ExceptT ε (Calls Q R) β}
    {post : Except ε β → σ → Prop} :
    (p >>= f).run.Meets effect guard post s ↔
      p.run.Meets effect guard (orElse (fun value t => (f value).run.Meets effect guard post t)
        fun error t => post (.error error) t) s := by
  have hstep : ∀ (value : Except ε α) (t : σ),
      Meets effect guard post (ExceptT.bindCont f value) t ↔
        orElse (fun value t => (f value).run.Meets effect guard post t)
          (fun error t => post (.error error) t) value t := by
    rintro (error | value) t <;> exact Iff.rfl
  show (p.run >>= ExceptT.bindCont f).Meets effect guard post s ↔ _
  rw [meets_bind]
  exact ⟨fun h => h.imp fun value t => (hstep value t).mp,
    fun h => h.imp fun value t => (hstep value t).mpr⟩

/-- Sequencing, after what is known of the first program. -/
theorem Meets.bind_except {p : ExceptT ε (Calls Q R) α} {f : α → ExceptT ε (Calls Q R) β}
    (mid : α → σ → Prop) (fail : ε → σ → Prop) {post : Except ε β → σ → Prop}
    (h : p.run.Meets effect guard (orElse mid fail) s)
    (hf : ∀ value t, mid value t → (f value).run.Meets effect guard post t)
    (hfail : ∀ error t, fail error t → post (.error error) t) :
    (p >>= f).run.Meets effect guard post s := by
  refine meets_bind_except.mpr (h.imp ?_)
  rintro (error | value) t hmid
  · exact hfail error t hmid
  · exact hf value t hmid

/-- A program whose error ends the one it is a part of, as an error of that one's type. -/
def attempt {δ : Type w} (wrap : δ → ε) (p : Calls Q R (Except δ α)) : ExceptT ε (Calls Q R) α :=
  ExceptT.mk (p >>= fun result => pure (result.mapError wrap))

/-- Sequencing, after what is known of a program whose error ends both. -/
theorem attempt_bind {δ : Type w} {wrap : δ → ε} {p : Calls Q R (Except δ α)}
    {f : α → ExceptT ε (Calls Q R) β} (mid : α → σ → Prop) {post : Except ε β → σ → Prop}
    (h : p.Meets effect guard (orElse mid fun error t => post (.error (wrap error)) t) s)
    (hf : ∀ value t, mid value t → (f value).run.Meets effect guard post t) :
    (attempt wrap p >>= f).run.Meets effect guard post s := by
  refine Meets.bind_except mid (fun error t => post (.error error) t) ?_ hf fun error t => id
  refine meets_bind.mpr (h.imp ?_)
  rintro (error | value) t hmid <;> exact hmid

/-! ## Runs -/

/-- A part of a run: the program that is left, and the state it is left in. -/
inductive Reaches (effect : Effect Q R σ) : Calls Q R α → σ → Calls Q R α → σ → Prop
  | refl (p : Calls Q R α) (s : σ) : Reaches effect p s p s
  | step {q : Q} {next : R q → Calls Q R α} {s t u : σ} {r : R q} {p : Calls Q R α}
      (hcall : effect q s r t) (hrest : Reaches effect (next r) t p u) :
      Reaches effect (call q next) s p u

/-- What a program meets, the rest of it meets at every point of a run. -/
theorem Meets.reaches {p p' : Calls Q R α} {post : α → σ → Prop}
    (h : p.Meets effect guard post s) (hrun : Reaches effect p s p' t) :
    p'.Meets effect guard post t := by
  induction hrun with
  | refl => exact h
  | step hcall _ ih => exact ih (h.2 _ _ hcall)

/-- If every call has an answer, a program has a run to its end, which is as it meets. -/
theorem Meets.exists_run (htotal : ∀ q s, ∃ r t, effect q s r t) {p : Calls Q R α}
    {post : α → σ → Prop} (h : p.Meets effect guard post s) :
    ∃ value t, Reaches effect p s (ret value) t ∧ post value t := by
  induction p generalizing s with
  | ret value => exact ⟨value, s, .refl _ _, h⟩
  | call q next ih =>
    obtain ⟨r, t, hcall⟩ := htotal q s
    obtain ⟨value, u, hrun, hpost⟩ := ih r (h.2 r t hcall)
    exact ⟨value, u, .step hcall hrun, hpost⟩

/-- What a program does in a system that answers as `answer` says. -/
def exec (answer : (q : Q) → σ → R q × σ) : Calls Q R α → σ → α × σ
  | ret value, s => (value, s)
  | call q next, s => exec answer (next (answer q s).1) (answer q s).2

/-- What a system answers that behaves as the effect says makes a run. -/
theorem reaches_exec {answer : (q : Q) → σ → R q × σ}
    (hanswer : ∀ q s, effect q s (answer q s).1 (answer q s).2) (p : Calls Q R α) (s : σ) :
    Reaches effect p s (ret (p.exec answer s).1) (p.exec answer s).2 := by
  induction p generalizing s with
  | ret value => exact .refl _ _
  | call q next ih => exact .step (hanswer q s) (ih _ _)

/-! ## Programs that make some of the calls only -/

/-- With every answer, only calls with the property are made. -/
def Only (P : Q → Prop) : Calls Q R α → Prop
  | ret _ => True
  | call q next => P q ∧ ∀ r, (next r).Only P

variable {P : Q → Prop}

/-- What calls are made may be said with less. -/
theorem Only.mono {P' : Q → Prop} {p : Calls Q R α} (hp : p.Only P) (h : ∀ q, P q → P' q) :
    p.Only P' := by
  induction p with
  | ret value => trivial
  | call q next ih => exact ⟨h q hp.1, fun r => ih r (hp.2 r)⟩

/-- Sequencing keeps to the same calls. -/
theorem Only.bind {p : Calls Q R α} {f : α → Calls Q R β} (hp : p.Only P)
    (hf : ∀ value, (f value).Only P) : (p >>= f).Only P := by
  show (p.bind f).Only P
  induction p with
  | ret value => exact hf value
  | call q next ih => exact ⟨hp.1, fun r => ih r (hp.2 r)⟩

/-- Sequencing keeps to the same calls. -/
theorem Only.bind_except {p : ExceptT ε (Calls Q R) α} {f : α → ExceptT ε (Calls Q R) β}
    (hp : p.run.Only P) (hf : ∀ value, (f value).run.Only P) : (p >>= f).run.Only P := by
  refine Only.bind (f := ExceptT.bindCont f) hp ?_
  rintro (error | value)
  · trivial
  · exact hf value

/-- What the calls keep, the program keeps. -/
theorem Only.meets {p : Calls Q R α} (hp : p.Only P) (inv : σ → Prop)
    (hcall : ∀ q s, P q → inv s → guard s q ∧ ∀ r t, effect q s r t → inv t) (hs : inv s) :
    p.Meets effect guard (fun _ t => inv t) s := by
  induction p generalizing s with
  | ret value => exact hs
  | call q next ih =>
    obtain ⟨hguard, hinv⟩ := hcall q s hp.1 hs
    exact ⟨hguard, fun r t hr => ih r (hp.2 r) (hinv r t hr)⟩

/-! ## Dialogues -/

/-- A dialogue whose questions are asked by a program. -/
def interpret {Q' R' : Type w} (ask : Q' → Calls Q R R') : Dialogue Q' R' α → Calls Q R α
  | .ret value => ret value
  | .ask question next => (ask question).bind fun answer => interpret ask (next answer)

/-- Sequencing is kept. -/
theorem interpret_bind {Q' R' : Type w} (ask : Q' → Calls Q R R') (d : Dialogue Q' R' α)
    (f : α → Dialogue Q' R' β) :
    interpret ask (d >>= f) = interpret ask d >>= fun value => interpret ask (f value) := by
  show interpret ask (d.bind f) = (interpret ask d).bind fun value => interpret ask (f value)
  induction d with
  | ret value => rfl
  | ask question next ih =>
    show (ask question).bind (fun answer => interpret ask ((next answer).bind f)) = _
    rw [funext ih]
    exact (bind_assoc _ _ _).symm

/-- A dialogue makes the calls that its questions make. -/
theorem only_interpret {Q' R' : Type w} {ask : Q' → Calls Q R R'}
    (hask : ∀ question, (ask question).Only P) (d : Dialogue Q' R' α) :
    (interpret ask d).Only P := by
  induction d with
  | ret value => trivial
  | ask question next ih => exact (hask question).bind ih

end Calls
