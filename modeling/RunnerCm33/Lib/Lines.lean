import Mathlib.Data.List.Basic

/-! Texts made of lines: each line ends in its only newline, so that a text determines
its lines. -/

namespace RunnerCm33.Lines

variable {Cell : Type} {newline : Cell} {first second rest more : List Cell}
  {lines others : List (List Cell)}

/-- A text without newlines and one behind it. -/
def IsLine (newline : Cell) (line : List Cell) : Prop :=
  ∃ body, newline ∉ body ∧ line = body ++ [newline]

theorem IsLine.ne_nil (line : IsLine newline first) : first ≠ [] := by
  obtain ⟨body, -, rfl⟩ := line
  simp

theorem IsLine.append_inj (line : IsLine newline first) (other : IsLine newline second)
    (same : first ++ rest = second ++ more) : first = second ∧ rest = more := by
  obtain ⟨body, clean, rfl⟩ := line
  obtain ⟨otherBody, otherClean, rfl⟩ := other
  induction body generalizing otherBody with
  | nil =>
    cases otherBody with
    | nil => simpa using same
    | cons cell otherBody =>
      obtain ⟨rfl, -⟩ := List.cons_eq_cons.mp same
      exact absurd List.mem_cons_self otherClean
  | cons cell body ih =>
    cases otherBody with
    | nil =>
      obtain ⟨rfl, -⟩ := List.cons_eq_cons.mp same
      exact absurd List.mem_cons_self clean
    | cons otherCell otherBody =>
      obtain ⟨rfl, behind⟩ := List.cons_eq_cons.mp same
      obtain ⟨bodies, rests⟩ := ih (mt (List.mem_cons_of_mem _) clean) otherBody
        (mt (List.mem_cons_of_mem _) otherClean) behind
      exact ⟨congrArg (_ :: ·) bodies, rests⟩

theorem flatten_inj (allLines : ∀ line ∈ lines, IsLine newline line)
    (allOthers : ∀ line ∈ others, IsLine newline line) (same : lines.flatten = others.flatten) :
    lines = others := by
  induction lines generalizing others with
  | nil =>
    cases others with
    | nil => rfl
    | cons line others =>
      have empty : line = [] := (List.append_eq_nil_iff.mp same.symm).1
      exact absurd empty (allOthers line (by simp)).ne_nil
  | cons line lines ih =>
    cases others with
    | nil => exact absurd (List.append_eq_nil_iff.mp same).1 (allLines line (by simp)).ne_nil
    | cons other others =>
      obtain ⟨rfl, remaining⟩ := (allLines line (by simp)).append_inj (allOthers other (by simp)) same
      rw [ih (fun next member => allLines next (by simp [member]))
        (fun next member => allOthers next (by simp [member])) remaining]

end RunnerCm33.Lines
