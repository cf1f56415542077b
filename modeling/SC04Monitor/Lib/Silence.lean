import Mathlib.Tactic.Common

/-! # Frames between silences

On a line where a pause ends a frame, a history is a list of symbols (`some`) and of pauses
(`none`). The frames of a history are the runs of symbols that a pause has ended; pauses
without a symbol between them end nothing. -/

namespace SC04Monitor.Lib.Silence

variable {α : Type*}

/-- The frames that a history ends when `cur` has been received since the last pause. -/
def frames : (cur : List α) → List (Option α) → List (List α)
  | _, [] => []
  | cur, some a :: l => frames (cur ++ [a]) l
  | cur, none :: l => if cur = [] then frames [] l else cur :: frames [] l

@[simp] theorem frames_symbol (cur : List α) (a : α) (l : List (Option α)) :
    frames cur (some a :: l) = frames (cur ++ [a]) l := rfl

theorem frames_pause_empty (l : List (Option α)) : frames [] (none :: l) = frames [] l := rfl

theorem frames_pause {cur : List α} (h : cur ≠ []) (l : List (Option α)) :
    frames cur (none :: l) = cur :: frames [] l := if_neg h

/-- The history of one frame and the pause behind it. -/
def sent (f : List α) : List (Option α) := f.map some ++ [none]

theorem frames_sent (cur f : List α) (l : List (Option α)) (h : cur ++ f ≠ []) :
    frames cur (sent f ++ l) = (cur ++ f) :: frames [] l := by
  induction f generalizing cur with
  | nil =>
    rw [List.append_nil] at h ⊢
    exact frames_pause h l
  | cons a f ih =>
    show frames (cur ++ [a]) (sent f ++ l) = _
    rw [ih (cur ++ [a]) (by simp), List.append_assoc]
    rfl

/-- Frames that are sent with a pause behind each are the frames of the history. -/
theorem frames_flatMap_sent {fs : List (List α)} (h : ∀ f ∈ fs, f ≠ []) :
    frames [] (fs.flatMap sent) = fs := by
  induction fs with
  | nil => rfl
  | cons f fs ih =>
    rw [List.flatMap_cons, frames_sent [] f _ (h f List.mem_cons_self),
      ih fun g hg => h g (List.mem_cons_of_mem f hg)]
    rfl

end SC04Monitor.Lib.Silence
