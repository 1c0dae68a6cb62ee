/-! Edits that are made at most once. A detector looks for the edit in a text; where it
finds none, the text is kept as a backup and edited. Made again and again, such an edit
leaves the text and the backup of the first time. -/

namespace RunnerCm33.GuardedEdits

universe u

/-- An edit that its detector finds again, unless it changes nothing. -/
structure Edit (Text : Type u) where
  applied : Text → Bool
  edit : Text → Text
  settles : ∀ text, ¬applied text → applied (edit text) ∨ edit text = text

/-- A text with its backup. -/
structure Kept (Text : Type u) where
  current : Text
  backup : Option Text

variable {Text : Type u}

/-- The text after the edit. -/
def Edit.result (edit : Edit Text) (text : Text) : Text :=
  if edit.applied text then text else edit.edit text

/-- Make the edit, with a backup. -/
def Edit.make (edit : Edit Text) (kept : Kept Text) : Kept Text :=
  if edit.applied kept.current then kept else ⟨edit.edit kept.current, some kept.current⟩

/-- The edit has been made of an original, which is all the backup can hold. -/
structure Edit.MadeOf (edit : Edit Text) (original : Text) (kept : Kept Text) : Prop where
  current : kept.current = edit.result original
  backup : ∀ text ∈ kept.backup, text = original

variable {edit : Edit Text} {text original : Text} {kept : Kept Text}

theorem Edit.make_current : (edit.make kept).current = edit.result kept.current := by
  unfold make result
  split <;> rfl

theorem Edit.result_result : edit.result (edit.result text) = edit.result text := by
  by_cases applied : edit.applied text
  · have unchanged : edit.result text = text := if_pos applied
    rw [unchanged, unchanged]
  · have edited : edit.result text = edit.edit text := if_neg applied
    rw [edited]
    rcases edit.settles text applied with found | nothing
    · exact if_pos found
    · rw [nothing, edited, nothing]

/-- A text that the detector still misses after the edit is the original. -/
theorem Edit.result_of_missed (missed : ¬edit.applied (edit.result text)) : edit.result text = text := by
  by_cases applied : edit.applied text
  · exact if_pos applied
  · have edited : edit.result text = edit.edit text := if_neg applied
    rw [edited] at missed ⊢
    exact (edit.settles text applied).resolve_left missed

theorem Edit.make_pristine : edit.MadeOf original (edit.make ⟨original, none⟩) where
  current := edit.make_current
  backup := by
    intro text held
    unfold make at held
    split at held
    · cases held
    · exact (Option.some.inj held).symm

theorem Edit.MadeOf.again (made : edit.MadeOf original kept) : edit.MadeOf original (edit.make kept) where
  current := by rw [edit.make_current, made.current, edit.result_result]
  backup := by
    intro text held
    unfold make at held
    split at held
    · exact made.backup text held
    · rename_i missed
      rw [made.current] at missed held
      rw [← Option.some.inj held]
      exact edit.result_of_missed missed

end RunnerCm33.GuardedEdits
