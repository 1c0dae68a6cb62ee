import RunnerCm33.Lib.Numerals

/-! Reports made of labelled numbers of fixed width, one behind the other, and the
reader that knows the labels and widths only. -/

namespace RunnerCm33.Fields

open RunnerCm33.Numerals

variable {Cell : Type}

/-- What a reader knows of a field. -/
structure Shape (Cell : Type) where
  label : List Cell
  width : ℕ

/-- A number that fits the width behind its label. -/
structure Field (alphabet : Alphabet Cell) extends Shape Cell where
  value : ℕ
  fits : value < alphabet.base ^ width

variable {alphabet : Alphabet Cell}

def Field.text (field : Field alphabet) : List Cell :=
  field.label ++ alphabet.numeral field.width field.value

def render (fields : List (Field alphabet)) : List Cell := fields.flatMap Field.text

/-- The values of the fields at the start of a text, and the text behind them. -/
def parse [BEq Cell] (alphabet : Alphabet Cell) :
    List (Shape Cell) → List Cell → Option (List ℕ × List Cell)
  | [], text => some ([], text)
  | shape :: shapes, text => do
      let text ← shape.label.isPrefixOf? text
      let value ← alphabet.value (text.take shape.width)
      let (values, rest) ← parse alphabet shapes (text.drop shape.width)
      some (value :: values, rest)

variable {fields : List (Field alphabet)} {field : Field alphabet} {label rest : List Cell}

theorem Field.text_length : field.text.length = field.label.length + field.width := by
  rw [Field.text, List.length_append, Alphabet.numeral_length]

theorem isPrefixOf?_append [BEq Cell] [LawfulBEq Cell] : label.isPrefixOf? (label ++ rest) = some rest := by
  induction label with
  | nil => rfl
  | cons cell label ih => exact (if_pos (beq_self_eq_true cell)).trans ih

/-- Fields of one length make a report of that many times as many cells. -/
theorem render_length {length : ℕ} (uniform : ∀ field ∈ fields, field.text.length = length) :
    (render fields).length = fields.length * length := by
  induction fields with
  | nil => simp [render]
  | cons field fields ih =>
    have first := uniform field (by simp)
    have others := ih fun other member => uniform other (by simp [member])
    rw [render] at others
    rw [render, List.flatMap_cons, List.length_append, others, first, List.length_cons, Nat.succ_mul,
      Nat.add_comm]

theorem parse_render [BEq Cell] [LawfulBEq Cell] (fields : List (Field alphabet)) (rest : List Cell) :
    parse alphabet (fields.map Field.toShape) (render fields ++ rest) =
      some (fields.map Field.value, rest) := by
  induction fields with
  | nil => rfl
  | cons field fields ih =>
    have text : render (field :: fields) ++ rest =
        field.label ++ (alphabet.numeral field.width field.value ++ (render fields ++ rest)) := by
      simp [render, Field.text]
    have first : (alphabet.numeral field.width field.value ++ (render fields ++ rest)).take field.width =
        alphabet.numeral field.width field.value := by
      rw [List.take_append_of_le_length (by simp), List.take_of_length_le (by simp)]
    have behind : (alphabet.numeral field.width field.value ++ (render fields ++ rest)).drop field.width =
        render fields ++ rest := List.drop_left' Alphabet.numeral_length
    simp only [List.map_cons, parse, text, isPrefixOf?_append, Option.bind_eq_bind, Option.bind_some,
      first, behind, Alphabet.value_numeral field.fits, ih]

end RunnerCm33.Fields
