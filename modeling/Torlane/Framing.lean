import Mathlib.Data.List.Infix

/-!
# Frames

A stream is cut into frames, each of which ends with an element that is an end. A reader gets the
stream in pieces that it does not choose, and keeps what is left of one piece for the next one:
`frames_append` says that it has the frames of the whole stream. `upToError` is what a reader makes
of frames one after the other, until it fails with one of them.
-/

namespace Framing

variable {α β ε : Type*} {isEnd : α → Bool}

/-- The frames that are complete, each with its end, and what is left. The first frame starts with
what was left before. -/
def frames (isEnd : α → Bool) : List α → List α → List (List α) × List α
  | rest, [] => ([], rest)
  | rest, x :: xs =>
    if isEnd x then
      let later := frames isEnd [] xs
      ((rest ++ [x]) :: later.1, later.2)
    else frames isEnd (rest ++ [x]) xs

/-- The frames of a stream that has ended. The last one may lack its end. -/
def allFrames (isEnd : α → Bool) (xs : List α) : List (List α) :=
  match frames isEnd [] xs with
  | (complete, []) => complete
  | (complete, rest) => complete ++ [rest]

@[simp] theorem frames_nil (rest : List α) : frames isEnd rest [] = ([], rest) := rfl

/-- An end completes a frame. -/
theorem frames_cons_end {x : α} (hx : isEnd x) (rest xs : List α) :
    frames isEnd rest (x :: xs) =
      ((rest ++ [x]) :: (frames isEnd [] xs).1, (frames isEnd [] xs).2) := by
  rw [frames, if_pos hx]

/-- Everything else is left for later. -/
theorem frames_cons {x : α} (hx : ¬ isEnd x) (rest xs : List α) :
    frames isEnd rest (x :: xs) = frames isEnd (rest ++ [x]) xs := by
  rw [frames, if_neg hx]

/-- A stream that comes in two pieces has the frames of the whole stream. -/
theorem frames_append (rest xs ys : List α) :
    frames isEnd rest (xs ++ ys) =
      ((frames isEnd rest xs).1 ++ (frames isEnd (frames isEnd rest xs).2 ys).1,
        (frames isEnd (frames isEnd rest xs).2 ys).2) := by
  induction xs generalizing rest with
  | nil => rfl
  | cons x xs ih =>
    rw [List.cons_append]
    by_cases hx : isEnd x
    · rw [frames_cons_end hx, frames_cons_end hx, ih]
      rfl
    · rw [frames_cons hx, frames_cons hx, ih]

/-- Without an end, everything is left. -/
theorem frames_of_forall {xs : List α} (hxs : ∀ x ∈ xs, ¬ isEnd x) (rest : List α) :
    frames isEnd rest xs = ([], rest ++ xs) := by
  induction xs generalizing rest with
  | nil => rw [frames_nil, List.append_nil]
  | cons x xs ih =>
    obtain ⟨hx, hxs⟩ := List.forall_mem_cons.mp hxs
    rw [frames_cons hx, ih hxs, List.append_assoc]
    rfl

/-- The first end completes the first frame. -/
theorem frames_of_end {xs : List α} (hxs : ∀ x ∈ xs, ¬ isEnd x) {x : α} (hx : isEnd x)
    (rest ys : List α) :
    frames isEnd rest (xs ++ x :: ys) =
      ((rest ++ (xs ++ [x])) :: (frames isEnd [] ys).1, (frames isEnd [] ys).2) := by
  rw [frames_append, frames_of_forall hxs, frames_cons_end hx, List.append_assoc]
  rfl

/-- Complete frames stay the first ones when the stream goes on. -/
theorem prefix_allFrames {xs ys : List α} {complete : List (List α)} {rest : List α}
    (h : frames isEnd [] xs = (complete, rest)) : complete <+: allFrames isEnd (xs ++ ys) := by
  have hframes : frames isEnd [] (xs ++ ys) =
      (complete ++ (frames isEnd rest ys).1, (frames isEnd rest ys).2) := by
    rw [frames_append, h]
  unfold allFrames
  rw [hframes]
  split
  · next heq =>
    obtain ⟨rfl, -⟩ := Prod.mk.inj heq
    exact List.prefix_append _ _
  · next heq =>
    obtain ⟨rfl, -⟩ := Prod.mk.inj heq
    rw [List.append_assoc]
    exact List.prefix_append _ _

/-- A stream that has ended with a complete frame. -/
theorem allFrames_of_complete {xs : List α} {complete : List (List α)}
    (h : frames isEnd [] xs = (complete, [])) : allFrames isEnd xs = complete := by
  unfold allFrames
  rw [h]

/-- A stream that has ended within a frame. -/
theorem allFrames_of_rest {xs rest : List α} {complete : List (List α)}
    (h : frames isEnd [] xs = (complete, rest)) (hrest : rest ≠ []) :
    allFrames isEnd xs = complete ++ [rest] := by
  obtain ⟨x, rest, rfl⟩ := List.exists_cons_of_ne_nil hrest
  unfold allFrames
  rw [h]

/-- The frames that a stream is made of. -/
theorem allFrames_flatMap {bodies : List (List α)} (hbodies : ∀ xs ∈ bodies, ∀ x ∈ xs, ¬ isEnd x)
    {x : α} (hx : isEnd x) :
    allFrames isEnd (bodies.flatMap (· ++ [x])) = bodies.map (· ++ [x]) := by
  refine allFrames_of_complete ?_
  induction bodies with
  | nil => rfl
  | cons xs bodies ih =>
    obtain ⟨hxs, hbodies⟩ := List.forall_mem_cons.mp hbodies
    rw [List.flatMap_cons, List.append_assoc, List.singleton_append, frames_of_end hxs hx,
      ih hbodies]
    rfl

/-! ## Until the first error -/

/-- The results up to the first error, and with it. -/
def upToError : List (Except ε β) → List (Except ε β)
  | [] => []
  | .ok value :: results => .ok value :: upToError results
  | .error error :: _ => [.error error]

/-- No result is an error. -/
def AllOk (results : List (Except ε β)) : Prop := ∀ result ∈ results, result.isOk

variable {results more : List (Except ε β)}

theorem AllOk.append (h : AllOk results) (h' : AllOk more) : AllOk (results ++ more) :=
  List.forall_mem_append.mpr ⟨h, h'⟩

/-- Results that are no errors are passed by. -/
theorem AllOk.upToError_append (h : AllOk results) (more : List (Except ε β)) :
    upToError (results ++ more) = results ++ upToError more := by
  induction results with
  | nil => rfl
  | cons result results ih =>
    obtain ⟨hresult, hresults⟩ := List.forall_mem_cons.mp h
    cases result with
    | ok value => rw [List.cons_append, upToError, ih hresults, List.cons_append]
    | error error => cases hresult

/-- Without an error, there are all results. -/
theorem AllOk.upToError_eq (h : AllOk results) : upToError results = results := by
  have happend := h.upToError_append []
  rwa [List.append_nil, upToError, List.append_nil] at happend

end Framing
