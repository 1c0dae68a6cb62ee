import Mathlib.Data.List.Basic

/-! Patterns for a line of text: cells of a class, one or any number in a row, one behind
the other. A pattern that may start or end anywhere in the line has a run of arbitrary
cells there. -/

namespace RunnerCm33.LinePatterns

/-- One cell of a class, or any number of them. -/
inductive Item (Cell : Type) where
  | one (test : Cell → Bool)
  | many (test : Cell → Bool)

abbrev Pattern (Cell : Type) := List (Item Cell)

variable {Cell : Type}

/-- The pattern's language. -/
inductive Matches : Pattern Cell → List Cell → Prop where
  | nil : Matches [] []
  | one {test : Cell → Bool} {rest : Pattern Cell} {cell : Cell} {cells : List Cell}
      (passes : test cell) (others : Matches rest cells) : Matches (.one test :: rest) (cell :: cells)
  | many {test : Cell → Bool} {rest : Pattern Cell} {row cells : List Cell}
      (passes : ∀ cell ∈ row, test cell) (others : Matches rest cells) :
      Matches (.many test :: rest) (row ++ cells)

/-- Try the rest of the pattern behind every row of cells of the class. -/
def acceptsMany (test : Cell → Bool) (rest : List Cell → Bool) : List Cell → Bool
  | [] => rest []
  | cell :: cells => rest (cell :: cells) || test cell && acceptsMany test rest cells

/-- The matcher. -/
def accepts : Pattern Cell → List Cell → Bool
  | [], line => line.isEmpty
  | .one _ :: _, [] => false
  | .one test :: rest, cell :: cells => test cell && accepts rest cells
  | .many test :: rest, line => acceptsMany test (accepts rest) line

/-- Anything. -/
def anything : Item Cell := .many fun _ => true

/-- The cells of a text, one after the other. -/
def literal [DecidableEq Cell] (cells : List Cell) : Pattern Cell :=
  cells.map fun cell => .one (· = cell)

variable {test : Cell → Bool} {pattern more : Pattern Cell} {rest : List Cell → Bool}
  {line others row before after : List Cell} {cell : Cell}

theorem acceptsMany_iff :
    acceptsMany test rest line ↔ ∃ row cells, line = row ++ cells ∧ (∀ cell ∈ row, test cell) ∧ rest cells := by
  induction line with
  | nil => simp [acceptsMany]
  | cons first line ih =>
    rw [acceptsMany, Bool.or_eq_true, Bool.and_eq_true, ih]
    constructor
    · rintro (here | ⟨passes, row, cells, rfl, rowPasses, accepted⟩)
      · exact ⟨[], first :: line, rfl, by simp, here⟩
      · exact ⟨first :: row, cells, rfl, List.forall_mem_cons.mpr ⟨passes, rowPasses⟩, accepted⟩
    · rintro ⟨row, cells, split, passes, accepted⟩
      cases row with
      | nil =>
        rw [List.nil_append] at split
        exact .inl (split ▸ accepted)
      | cons head row =>
        obtain ⟨rfl, rfl⟩ := List.cons_eq_cons.mp split
        obtain ⟨headPasses, rowPasses⟩ := List.forall_mem_cons.mp passes
        exact .inr ⟨headPasses, row, cells, rfl, rowPasses, accepted⟩

theorem accepts_iff : accepts pattern line ↔ Matches pattern line := by
  induction pattern generalizing line with
  | nil =>
    rw [accepts, List.isEmpty_iff]
    constructor
    · rintro rfl
      exact .nil
    · rintro ⟨⟩
      rfl
  | cons item pattern ih =>
    cases item with
    | one test =>
      cases line with
      | nil => exact ⟨nofun, nofun⟩
      | cons cell cells =>
        rw [accepts, Bool.and_eq_true, ih]
        constructor
        · exact fun ⟨passes, others⟩ => .one passes others
        · intro language
          cases language with
          | one passes others => exact ⟨passes, others⟩
    | many test =>
      rw [accepts, acceptsMany_iff]
      constructor
      · rintro ⟨row, cells, rfl, passes, accepted⟩
        exact .many passes (ih.mp accepted)
      · intro language
        cases language with
        | many passes others => exact ⟨_, _, rfl, passes, ih.mpr others⟩

theorem Matches.append (first : Matches pattern line) (second : Matches more others) :
    Matches (pattern ++ more) (line ++ others) := by
  induction first with
  | nil => exact second
  | one passes _ ih => exact .one passes ih
  | many passes _ ih =>
    rw [List.append_assoc]
    exact .many passes ih

theorem matches_append_iff :
    Matches (pattern ++ more) line ↔
      ∃ before after, line = before ++ after ∧ Matches pattern before ∧ Matches more after := by
  constructor
  · intro both
    induction pattern generalizing line with
    | nil => exact ⟨[], line, rfl, .nil, both⟩
    | cons item pattern ih =>
      cases both with
      | one passes others =>
        obtain ⟨before, after, rfl, first, second⟩ := ih others
        exact ⟨_ :: before, after, rfl, .one passes first, second⟩
      | many passes others =>
        obtain ⟨before, after, rfl, first, second⟩ := ih others
        exact ⟨_ ++ before, after, (List.append_assoc ..).symm, .many passes first, second⟩
  · rintro ⟨before, after, rfl, first, second⟩
    exact first.append second

theorem matches_literal_iff [DecidableEq Cell] {cells : List Cell} :
    Matches (literal cells) line ↔ line = cells := by
  induction cells generalizing line with
  | nil =>
    constructor
    · rintro ⟨⟩
      rfl
    · rintro rfl
      exact .nil
  | cons cell cells ih =>
    constructor
    · intro language
      cases language with
      | one passes others => rw [of_decide_eq_true passes, ih.mp others]
    · rintro rfl
      exact .one (decide_eq_true rfl) (ih.mpr rfl)

theorem matches_literal [DecidableEq Cell] (cells : List Cell) : Matches (literal cells) cells :=
  matches_literal_iff.mpr rfl

theorem matches_anything (cells : List Cell) : Matches [anything] cells := by
  have all : Matches [anything] (cells ++ []) := .many (fun _ _ => rfl) .nil
  rwa [List.append_nil] at all

end RunnerCm33.LinePatterns
