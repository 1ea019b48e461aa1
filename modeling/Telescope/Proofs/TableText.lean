import Telescope.Proofs.NumberText
import Telescope.Table.Record

/-!
# The text of a table

A table is read as it was written: its lines are the header and one line for every record, and between
the commas of a line are its cells (`Table.cells_text`). This is so because no name of a column and no
number has a comma or a line end in it.

What is read back are the characters of the cells. That a cell under a column is the field of this
name is not a matter of the text: a record lists its fields in the order of the columns
(`Record.unzip_fields`), and the writer takes them from there.
-/

namespace Telescope.Table

/-- The text can stand in a cell. A comma would end the cell, and the other two would end the line. -/
def Fits (cell : List Char) : Prop := ',' ∉ cell ∧ '\n' ∉ cell ∧ '\r' ∉ cell

instance (cell : List Char) : Decidable (Fits cell) := inferInstanceAs (Decidable (_ ∧ _))

/-- The names of the columns fit. -/
theorem fits_columns : ∀ cell ∈ columns.map String.toList, Fits cell := by
  decide

/-- The cells of a record, in the order of the columns. -/
def Record.cells (r : Record) : List (List Char) := r.values.map cell.chars

/-- The cells of a record are numbers, and all numbers fit. -/
theorem fits_cells (r : Record) : ∀ cell ∈ r.cells, Fits cell := by
  intro c hc
  obtain ⟨x, -, rfl⟩ := List.mem_map.1 hc
  have hnumeric := cell.numeric_chars x
  exact ⟨hnumeric.not_mem (by decide), hnumeric.not_mem (by decide), hnumeric.not_mem (by decide)⟩

/-- The rows of cells of a table, the header first. -/
def rows (records : List Record) : List (List (List Char)) :=
  columns.map String.toList :: records.map Record.cells

/-- No row of a table is empty, and all of its cells fit. Both are needed: a row without cells has
the text of a row with one empty cell. -/
theorem fits_rows (records : List Record) :
    ∀ row ∈ rows records, row ≠ [] ∧ ∀ cell ∈ row, Fits cell := by
  intro row hrow
  obtain rfl | hrow := List.mem_cons.1 hrow
  · exact ⟨List.cons_ne_nil _ _, fits_columns⟩
  · obtain ⟨r, -, rfl⟩ := List.mem_map.1 hrow
    exact ⟨List.cons_ne_nil _ _, fits_cells r⟩

/-- A line is its cells with commas between them, and a line feed. -/
theorem toList_line (cells : List String) :
    (line cells).toList = [','].intercalate (cells.map String.toList) ++ ['\n'] := by
  rw [line, String.toList_append, String.toList_intercalate]
  rfl

/-- A table is its rows one after the other, each on a line. -/
theorem toList_text (records : List Record) :
    (text records).toList = ((rows records).map [','].intercalate).flatMap (· ++ ['\n']) := by
  have hrecord : ∀ r : Record, r.line.toList = [','].intercalate r.cells ++ ['\n'] := by
    intro r
    have hwrite : ∀ x, (cell.write x).toList = cell.chars x := fun x => String.toList_ofList
    -- a line is made from the fields, the cells from the values
    have hvalues : r.values = r.fields.map Prod.snd := by rw [← List.unzip_snd, r.unzip_fields]
    rw [Record.line, toList_line, List.map_map, Record.cells, hvalues, List.map_map]
    simp only [Function.comp_def, hwrite]
  rw [text, String.toList_append, header, toList_line, String.toList_join, rows, List.map_cons,
    List.flatMap_cons, List.flatMap_map, List.flatMap_map, List.flatMap_map]
  simp only [hrecord]

/-- **A table is read as it was written,** line by line and cell by cell. The header is one of the
lines, and its cells are the names of the columns. -/
theorem cells_text (records : List Record) :
    (Text.lines (text records).toList).map (List.splitOn ',') = rows records := by
  have hfits := fits_rows records
  have hlines : Text.lines (text records).toList = (rows records).map [','].intercalate := by
    rw [toList_text]
    refine Text.lines_flatMap_feed_of_not_mem fun l hl => ?_
    obtain ⟨row, hrow, rfl⟩ := List.mem_map.1 hl
    have hcells := (hfits row hrow).2
    exact ⟨Text.not_mem_intercalate (by decide) fun cell hcell => (hcells cell hcell).2.1,
      Text.not_mem_intercalate (by decide) fun cell hcell => (hcells cell hcell).2.2⟩
  rw [hlines, List.map_map]
  refine (List.map_congr_left fun row hrow => ?_).trans (List.map_id _)
  obtain ⟨hrow, hcells⟩ := hfits row hrow
  exact List.splitOn_intercalate ',' (fun cell hcell => (hcells cell hcell).1) hrow

end Telescope.Table
