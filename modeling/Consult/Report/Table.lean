import Consult.Text.Columns

/-!
# Tables in text

A table has a header and rows of cells, framed by box-drawing characters. Every
column is as wide as its widest line; a cell that spans several lines makes its
row higher. Nothing is wrapped or cut.

## Main results

* `intercalate_lines` — the lines of a text, with breaks between them, spell the text.
-/

namespace Consult.Report

/-- The lines of a text, which line feeds separate. -/
def lines : List Char → List (List Char)
  | [] => [[]]
  | c :: cs =>
    match lines cs with
    | [] => [[c]]
    | line :: rest => if c = '\n' then [] :: line :: rest else (c :: line) :: rest

/-- A table cell as its lines. -/
abbrev Cell := List (List Char)

/-- The cell for a text. -/
def cell (text : String) : Cell := lines text.toList

/-- The characters that a horizontal line is drawn with. -/
structure Border where
  left : Char
  line : Char
  cross : Char
  right : Char

/-- The upper edge. -/
def topBorder : Border := ⟨'┌', '─', '┬', '┐'⟩

/-- The line below the header. -/
def headerBorder : Border := ⟨'╞', '═', '╪', '╡'⟩

/-- The line between two rows. -/
def rowBorder : Border := ⟨'├', '╌', '┼', '┤'⟩

/-- The lower edge. -/
def bottomBorder : Border := ⟨'└', '─', '┴', '┘'⟩

/-- Draws a horizontal line over columns of these widths. -/
def Border.draw (b : Border) (widths : List Nat) : List Char :=
  b.left :: ([b.cross].intercalate
    (widths.map fun w => List.replicate (w + 2) b.line) ++ [b.right])

/-- A line of a cell, filled up to the width of its column. -/
def pad (width : Nat) (line : List Char) : List Char :=
  ' ' :: (line ++ List.replicate (width - Text.lineColumns line) ' ' ++ [' '])

/-- Draws one line of a row. -/
def drawLine (widths : List Nat) (row : List Cell) (index : Nat) : List Char :=
  let cells := (widths.zip row).map fun (width, lines) =>
      pad width (lines[index]?.getD [])
  '│' :: (['┆'].intercalate cells ++ ['│'])

/-- Draws a row, which is as high as its highest cell. -/
def drawRow (widths : List Nat) (row : List Cell) : List (List Char) :=
  (List.range ((row.map List.length).foldl max 1)).map (drawLine widths row)

/-- The width of the widest line in a cell. -/
def cellColumns (c : Cell) : Nat := (c.map Text.lineColumns).foldl max 0

/-- The widths of the columns, which hold a column of text at least. -/
def columnWidths (rows : List (List Cell)) : List Nat :=
  rows.foldl
    (fun widths row => List.zipWith (fun w c => max w (cellColumns c)) widths row)
    ((rows.head?.getD []).map fun _ => 1)

/-- Draws a table with a header. -/
def table (header : List String) (rows : List (List String)) : String :=
  let header := header.map cell
  let rows := rows.map (·.map cell)
  let widths := columnWidths (header :: rows)
  let body := ([rowBorder.draw widths].intercalate (rows.map (drawRow widths)))
  let drawn := topBorder.draw widths :: drawRow widths header ++
      headerBorder.draw widths :: body ++
    [bottomBorder.draw widths]
  .ofList (['\n'].intercalate drawn)

theorem lines_ne_nil (cs : List Char) : lines cs ≠ [] := by
  cases cs with
  | nil => simp [lines]
  | cons c cs =>
    simp only [lines]
    split
    · simp
    · split <;> simp

/-- The lines of a text, with breaks between them, spell the text. -/
theorem intercalate_lines (cs : List Char) : ['\n'].intercalate (lines cs) = cs := by
  induction cs with
  | nil => simp [lines, List.intercalate]
  | cons c cs ih =>
    simp only [lines]
    split
    · next h => exact absurd h (lines_ne_nil cs)
    · next line rest h =>
      rw [h] at ih
      split
      · next hc =>
        subst hc
        rw [← ih]
        simp [List.intercalate]
      · cases rest <;> simp_all [List.intercalate]

end Consult.Report
