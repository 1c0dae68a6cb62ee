import RunnerCm33.Lib.GuardedEdits

/-! Guarded edits that may be interrupted. As long as the edit itself is put in place at
once, what an interruption leaves is edited by the next attempt as if none had come
before; a text torn in the middle is taken for an original. -/

namespace RunnerCm33.GuardedEdits

universe u
variable {Text : Type u} {edit : Edit Text} {original torn : Text} {kept next : Kept Text}

/-- Where an interruption may stop an edit: before it, with any part of the backup
written, or behind it. -/
inductive Edit.Reaches (edit : Edit Text) (kept : Kept Text) : Kept Text → Prop where
  | before : Reaches edit kept kept
  | backup (missed : ¬edit.applied kept.current) (part : Text) :
      Reaches edit kept ⟨kept.current, some part⟩
  | edited (missed : ¬edit.applied kept.current) :
      Reaches edit kept ⟨edit.edit kept.current, some kept.current⟩

/-- Either the edit was made of the original, or the original still stands and, if its
detector is silent, any backup will be written again. -/
def Edit.Recoverable (edit : Edit Text) (original : Text) (kept : Kept Text) : Prop :=
  kept.current = original ∧ (edit.applied original → kept.backup = none) ∨ edit.MadeOf original kept

theorem Edit.recoverable_pristine : edit.Recoverable original ⟨original, none⟩ :=
  .inl ⟨rfl, fun _ => rfl⟩

theorem Edit.MadeOf.of_missed (missed : ¬edit.applied original) :
    edit.MadeOf original ⟨edit.edit original, some original⟩ :=
  ⟨(if_neg missed).symm, fun _ held => (Option.some.inj held).symm⟩

theorem Edit.Recoverable.current_of_missed (recoverable : edit.Recoverable original kept)
    (missed : ¬edit.applied kept.current) : kept.current = original := by
  rcases recoverable with ⟨current, -⟩ | made
  · exact current
  · rw [made.current] at missed ⊢
    exact edit.result_of_missed missed

theorem Edit.Recoverable.reaches (recoverable : edit.Recoverable original kept)
    (reaches : edit.Reaches kept next) : edit.Recoverable original next := by
  cases reaches with
  | before => exact recoverable
  | backup missed part =>
    have current := recoverable.current_of_missed missed
    rw [current] at missed
    exact .inl ⟨current, fun applied => absurd applied missed⟩
  | edited missed =>
    have current := recoverable.current_of_missed missed
    rw [current] at missed ⊢
    exact .inr (.of_missed missed)

/-- The next attempt that comes to its end makes the edit of the original. -/
theorem Edit.Recoverable.make (recoverable : edit.Recoverable original kept) :
    edit.MadeOf original (edit.make kept) := by
  rcases recoverable with ⟨rfl, backup⟩ | made
  · by_cases applied : edit.applied kept.current
    · have unedited : edit.make kept = kept := if_pos applied
      rw [unedited]
      exact ⟨(if_pos applied).symm, fun text held => by simp [backup applied] at held⟩
    · have edited : edit.make kept = ⟨edit.edit kept.current, some kept.current⟩ := if_neg applied
      rw [edited]
      exact .of_missed applied
  · exact made.again

/-- A text torn while the edit was put in place is recovered only if nothing of it was
there yet, or all. -/
theorem Edit.make_torn_iff (missed : ¬edit.applied original) :
    edit.MadeOf original (edit.make ⟨torn, some original⟩) ↔ torn = original ∨ torn = edit.edit original := by
  have result : edit.result original = edit.edit original := if_neg missed
  by_cases applied : edit.applied torn
  · have unedited : edit.make ⟨torn, some original⟩ = ⟨torn, some original⟩ := if_pos applied
    rw [unedited]
    constructor
    · intro made
      exact .inr (made.current.trans result)
    · rintro (rfl | rfl)
      · exact absurd applied missed
      · exact .of_missed missed
  · have edited : edit.make ⟨torn, some original⟩ = ⟨edit.edit torn, some torn⟩ := if_neg applied
    rw [edited]
    constructor
    · intro made
      exact .inl (made.backup torn rfl)
    · rintro (rfl | rfl)
      · exact .of_missed missed
      · have nothing : edit.edit original = original := (edit.settles original missed).resolve_left applied
        rw [nothing, nothing]
        have made := Edit.MadeOf.of_missed missed
        rwa [nothing] at made

end RunnerCm33.GuardedEdits
