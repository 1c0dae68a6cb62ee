import Mathlib.Data.List.Basic
import Mathlib.Data.List.TakeWhile

/-! A text line by line, as a stream editor goes through it. Every line ends at a newline,
except that the last one may lack it. -/

namespace RunnerCm33.Lines

variable {Cell : Type} [DecidableEq Cell] {newline : Cell} {text rest : List Cell}

/-- The lines of a text, each with the newline that ends it. -/
def splitLines (newline : Cell) : List Cell → List (List Cell)
  | [] => []
  | cell :: rest =>
    if cell = newline then [cell] :: splitLines newline rest
    else
      match splitLines newline rest with
      | [] => [[cell]]
      | line :: lines => (cell :: line) :: lines

/-- A line without its newline. -/
def withoutNewline (newline : Cell) (line : List Cell) : List Cell := line.takeWhile (· ≠ newline)

/-- The lines of a text without their newlines. -/
def bodies (newline : Cell) (text : List Cell) : List (List Cell) :=
  (splitLines newline text).map (withoutNewline newline)

/-- A line with a newline at its end, as it is printed when more follows. -/
def endLine (newline : Cell) (line : List Cell) : List Cell :=
  if newline ∈ line then line else line ++ [newline]

/-- Lines are printed one after the other. -/
def joinLines (newline : Cell) (lines : List (List Cell)) : List Cell :=
  lines.flatMap (· ++ [newline])

/-- Print the text with a block of lines behind every chosen line. -/
def appendAfter (newline : Cell) (chosen : List Cell → Bool) (block : List (List Cell))
    (text : List Cell) : List Cell :=
  (splitLines newline text).flatMap fun line =>
    if chosen (withoutNewline newline line) then endLine newline line ++ joinLines newline block else line

/-- A text is empty, or one line that lacks its newline, or a line and a text behind it. -/
theorem lines_induction (newline : Cell) {motive : List Cell → Prop} (empty : motive [])
    (last : ∀ body, body ≠ [] → newline ∉ body → motive body)
    (line : ∀ body rest, newline ∉ body → motive rest → motive (body ++ newline :: rest))
    (text : List Cell) : motive text := by
  by_cases ended : newline ∈ text
  · obtain ⟨body, rest, split, clean⟩ := List.eq_append_cons_of_mem ended
    have shorter : rest.length < text.length := by
      rw [split, List.length_append, List.length_cons]
      omega
    rw [split]
    exact line body rest clean (lines_induction newline empty last line rest)
  · by_cases nonempty : text = []
    · rw [nonempty]
      exact empty
    · exact last text nonempty ended
termination_by text.length

variable {chosen : List Cell → Bool} {lines block : List (List Cell)}

theorem splitLines_line (clean : newline ∉ text) :
    splitLines newline (text ++ newline :: rest) = (text ++ [newline]) :: splitLines newline rest := by
  induction text with
  | nil => simp [splitLines]
  | cons cell text ih =>
    rw [List.mem_cons, not_or] at clean
    simp [splitLines, Ne.symm clean.1, ih clean.2]

theorem splitLines_last (nonempty : text ≠ []) (clean : newline ∉ text) :
    splitLines newline text = [text] := by
  induction text with
  | nil => exact absurd rfl nonempty
  | cons cell text ih =>
    rw [List.mem_cons, not_or] at clean
    cases text with
    | nil => simp [splitLines, Ne.symm clean.1]
    | cons second text => rw [splitLines, if_neg (Ne.symm clean.1), ih (by simp) clean.2]

theorem withoutNewline_line (clean : newline ∉ text) :
    withoutNewline newline (text ++ newline :: rest) = text := by
  rw [withoutNewline, List.takeWhile_append_of_pos]
  · simp
  · intro cell member
    exact decide_eq_true fun same : cell = newline => clean (same ▸ member)

theorem withoutNewline_last (clean : newline ∉ text) : withoutNewline newline text = text := by
  rw [withoutNewline, List.takeWhile_eq_self_iff]
  intro cell member
  exact decide_eq_true fun same : cell = newline => clean (same ▸ member)

@[simp] theorem bodies_nil : bodies newline [] = [] := rfl

theorem bodies_line (clean : newline ∉ text) :
    bodies newline (text ++ newline :: rest) = text :: bodies newline rest := by
  rw [bodies, splitLines_line clean, List.map_cons, withoutNewline_line clean]
  rfl

theorem bodies_last (nonempty : text ≠ []) (clean : newline ∉ text) : bodies newline text = [text] := by
  rw [bodies, splitLines_last nonempty clean, List.map_cons, List.map_nil, withoutNewline_last clean]

theorem bodies_joinLines (clean : ∀ line ∈ lines, newline ∉ line) (text : List Cell) :
    bodies newline (joinLines newline lines ++ text) = lines ++ bodies newline text := by
  induction lines with
  | nil => rfl
  | cons line lines ih =>
    obtain ⟨first, others⟩ := List.forall_mem_cons.mp clean
    have split : joinLines newline (line :: lines) ++ text =
        line ++ newline :: (joinLines newline lines ++ text) := by
      simp [joinLines]
    rw [split, bodies_line first, ih others, List.cons_append]

theorem appendAfter_line (clean : newline ∉ text) :
    appendAfter newline chosen block (text ++ newline :: rest) =
      joinLines newline (if chosen text then text :: block else [text]) ++
        appendAfter newline chosen block rest := by
  rw [appendAfter, splitLines_line clean, List.flatMap_cons, withoutNewline_line clean]
  by_cases picked : chosen text <;> simp [picked, endLine, joinLines, appendAfter]

theorem appendAfter_last (nonempty : text ≠ []) (clean : newline ∉ text) :
    appendAfter newline chosen block text =
      if chosen text then joinLines newline (text :: block) else text := by
  rw [appendAfter, splitLines_last nonempty clean, List.flatMap_singleton, withoutNewline_last clean]
  by_cases picked : chosen text <;> simp [picked, endLine, clean, joinLines]

theorem bodies_behind (text rest : List Cell) :
    ∃ before, bodies newline (text ++ newline :: rest) = before ++ bodies newline rest := by
  induction text using lines_induction newline with
  | empty => exact ⟨[[]], bodies_line List.not_mem_nil⟩
  | last body _ clean => exact ⟨[body], bodies_line clean⟩
  | line body text clean ih =>
    obtain ⟨before, split⟩ := ih
    refine ⟨body :: before, ?_⟩
    rw [List.append_assoc, List.cons_append, bodies_line clean, split, List.cons_append]

/-- The block stands behind every chosen line, and nothing else has changed. -/
theorem bodies_appendAfter (blockClean : ∀ line ∈ block, newline ∉ line) (text : List Cell) :
    bodies newline (appendAfter newline chosen block text) =
      (bodies newline text).flatMap fun line => if chosen line then line :: block else [line] := by
  induction text using lines_induction newline with
  | empty => rfl
  | last text nonempty clean =>
    rw [appendAfter_last nonempty clean, bodies_last nonempty clean, List.flatMap_singleton]
    by_cases picked : chosen text
    · rw [if_pos picked, if_pos picked, ← List.append_nil (joinLines ..),
        bodies_joinLines (List.forall_mem_cons.mpr ⟨clean, blockClean⟩), bodies_nil, List.append_nil]
    · rw [if_neg picked, if_neg picked, bodies_last nonempty clean]
  | line text rest clean ih =>
    have printed : ∀ line ∈ if chosen text then text :: block else [text], newline ∉ line := by
      by_cases picked : chosen text
      · rw [if_pos picked]
        exact List.forall_mem_cons.mpr ⟨clean, blockClean⟩
      · rw [if_neg picked]
        exact List.forall_mem_singleton.mpr clean
    rw [appendAfter_line clean, bodies_joinLines printed, ih, bodies_line clean, List.flatMap_cons]

theorem appendAfter_of_none (none : ∀ line ∈ bodies newline text, ¬chosen line) :
    appendAfter newline chosen block text = text := by
  induction text using lines_induction newline with
  | empty => rfl
  | last text nonempty clean =>
    rw [bodies_last nonempty clean, List.forall_mem_singleton] at none
    rw [appendAfter_last nonempty clean, if_neg none]
  | line text rest clean ih =>
    rw [bodies_line clean, List.forall_mem_cons] at none
    rw [appendAfter_line clean, if_neg none.1, ih none.2]
    simp [joinLines]

end RunnerCm33.Lines
