import RunnerCm33.Lib.BoundedLog

/-! A bounded log with several writers. What it holds is a merge of what each of them
offered since it was last cleared, in each one's order, if all of that fits. -/

namespace RunnerCm33.SharedLog

open RunnerCm33.BoundedLog RunnerCm33.Runs

universe u v
variable {Writer : Type u} {Entry Cell : Type v} [DecidableEq Writer]

/-- What one of the writers contributed. -/
def ofWriter (writer : Writer) (tagged : List (Writer × Entry)) : List Entry :=
  tagged.filterMap fun entry => if entry.1 = writer then some entry.2 else none

/-- `whole` is made of the parts of the writers, each in its order and each entry once. -/
def Merges (parts : Writer → List Entry) (whole : List Entry) : Prop :=
  ∃ tagged : List (Writer × Entry), tagged.map Prod.snd = whole ∧ ∀ writer, ofWriter writer tagged = parts writer

/-- What the log looks like to a writer: its own offers, and every time it is cleared. -/
def view (writer : Writer) (tagged : List (Writer × Event Cell)) : List (Event Cell) :=
  tagged.filterMap fun entry => match entry.2 with
    | .offer record => if entry.1 = writer then some (.offer record) else none
    | .clear => some .clear

variable {parts : Writer → List Entry} {whole : List Entry} {first second writer : Writer}
  {tagged more : List (Writer × Event Cell)}

/-! ### Merges -/

theorem ofWriter_append {front back : List (Writer × Entry)} :
    ofWriter writer (front ++ back) = ofWriter writer front ++ ofWriter writer back :=
  List.filterMap_append

theorem Merges.sublist (merges : Merges parts whole) (writer : Writer) : (parts writer).Sublist whole := by
  obtain ⟨tagged, rfl, same⟩ := merges
  rw [← same writer]
  clear same
  induction tagged with
  | nil => exact List.Sublist.refl _
  | cons entry rest ih =>
    by_cases own : entry.1 = writer
    · simpa [ofWriter, own] using ih
    · simpa [ofWriter, own] using ih.cons entry.2

theorem Merges.perm (merges : Merges parts whole) (apart : first ≠ second)
    (cover : ∀ writer, writer = first ∨ writer = second) : whole.Perm (parts first ++ parts second) := by
  obtain ⟨tagged, rfl, same⟩ := merges
  rw [← same first, ← same second]
  clear same
  induction tagged with
  | nil => exact List.Perm.refl _
  | cons entry rest ih =>
    obtain ⟨writer, content⟩ := entry
    rcases cover writer with rfl | rfl
    · simpa [ofWriter, apart] using ih
    · have behind : ofWriter writer ((writer, content) :: rest) = content :: ofWriter writer rest := by
        simp [ofWriter]
      have other : ofWriter first ((writer, content) :: rest) = ofWriter first rest := by
        simp [ofWriter, apart.symm]
      rw [behind, other, List.map_cons]
      exact (ih.cons content).trans List.perm_middle.symm

/-! ### The log -/

theorem view_append : view writer (tagged ++ more) = view writer tagged ++ view writer more :=
  List.filterMap_append

/-- What is offered since the last clear is a merge of what each writer offered since then. -/
theorem merges_offered (tagged : List (Writer × Event Cell)) :
    Merges (fun writer => offered (view writer tagged)) (offered (tagged.map Prod.snd)) := by
  induction tagged using List.reverseRecOn with
  | nil => exact ⟨[], rfl, fun _ => rfl⟩
  | append_singleton tagged entry ih =>
    obtain ⟨author, event⟩ := entry
    cases event with
    | clear =>
      refine ⟨[], by simp, fun writer => ?_⟩
      have cleared : view writer [(author, (.clear : Event Cell))] = [.clear] := rfl
      simp [ofWriter, view_append, cleared]
    | offer record =>
      obtain ⟨before, whole, same⟩ := ih
      refine ⟨before ++ [(author, record)], by simp [whole], fun writer => ?_⟩
      rw [ofWriter_append, same]
      by_cases own : author = writer
      · have seen : view writer [(author, Event.offer record)] = [.offer record] := by simp [view, own]
        have added : ofWriter writer [(author, record)] = [record] := by simp [ofWriter, own]
        simp only [added, view_append, seen, offered_offer]
      · have unseen : view writer [(author, Event.offer record)] = [] := by simp [view, own]
        have other : ofWriter writer [(author, record)] = [] := by simp [ofWriter, own]
        simp only [other, view_append, unseen, List.append_nil]

end RunnerCm33.SharedLog
