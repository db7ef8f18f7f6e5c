import Mathlib.Data.List.Basic
import Mathlib.Data.List.TakeWhile

/-!
# Runs of characters

What a text starts with, of characters of one class, and what comes after that run.
-/

namespace ShaderChannels

variable {p : Char → Bool} {cs run rest : List Char}

/-- What follows a run of characters of one class starts with none of them. -/
theorem eq_false_of_head?_dropWhile {c : Char} (h : c ∈ (cs.dropWhile p).head?) : p c = false := by
  have first := List.head?_dropWhile_not p cs
  rw [Option.mem_def.mp h] at first
  simpa using first

/-- A run of characters of one class ends where another class begins. -/
theorem span_append (inside : ∀ c ∈ run, p c) (outside : ∀ c ∈ rest.head?, p c = false) :
    (run ++ rest).takeWhile p = run ∧ (run ++ rest).dropWhile p = rest := by
  rw [List.takeWhile_append_of_pos inside, List.dropWhile_append_of_pos inside]
  cases rest with
  | nil => exact ⟨List.append_nil run, rfl⟩
  | cons c rest => simp [outside c rfl]

/-- A run of characters of one class that ends is the same whatever follows its end. -/
theorem span_append_of_ne_nil (more : List Char) (ends : cs.dropWhile p ≠ []) :
    (cs ++ more).takeWhile p = cs.takeWhile p ∧
      (cs ++ more).dropWhile p = cs.dropWhile p ++ more := by
  have whole : cs ++ more = cs.takeWhile p ++ (cs.dropWhile p ++ more) := by
    rw [← List.append_assoc, List.takeWhile_append_dropWhile]
  rw [whole]
  apply span_append
  · intro d hd
    exact List.mem_takeWhile_imp hd
  · intro d hd
    rw [List.head?_append_of_ne_nil _ ends] at hd
    exact eq_false_of_head?_dropWhile hd

end ShaderChannels
