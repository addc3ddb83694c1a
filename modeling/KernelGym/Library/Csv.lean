import Mathlib.Data.List.Basic

/-! Comma-separated texts: the reader of Python's `csv` in its default dialect, and the writer that quotes every cell. -/

namespace KernelGym.Library.Csv

inductive Mode
  | startRecord
  | startField
  | inField
  | inQuotedField
  | quoteInQuotedField
  | eatNewline
  deriving DecidableEq

/-- The reader between two characters: the cell under way, the row under way and the rows that are finished. -/
structure Reader where
  mode : Mode := .startRecord
  cell : List Char := []
  row : List (List Char) := []
  rows : List (List (List Char)) := []
  deriving DecidableEq

namespace Reader

def saveField (s : Reader) : Reader := { s with mode := .startField, cell := [], row := s.row ++ [s.cell] }

def addChar (s : Reader) (c : Char) (mode : Mode) : Reader := { s with mode, cell := s.cell ++ [c] }

def endRecord (s : Reader) : Reader := { s with mode := .startRecord, row := [], rows := s.rows ++ [s.row] }

/-- A line break outside quotes; behind a carriage return only further line breaks may stand. -/
def lineBreak (s : Reader) (c : Char) : Reader := if c = '\n' then s.endRecord else { s with mode := .eatNewline }

/-- One character; none is the reader's error. -/
def step (s : Reader) (c : Char) : Option Reader :=
  match s.mode with
  | .startRecord =>
    if c = '\n' ∨ c = '\r' then some (s.lineBreak c)
    else if c = '"' then some { s with mode := .inQuotedField }
    else if c = ',' then some s.saveField
    else some (s.addChar c .inField)
  | .startField =>
    if c = '\n' ∨ c = '\r' then some (s.saveField.lineBreak c)
    else if c = '"' then some { s with mode := .inQuotedField }
    else if c = ',' then some s.saveField
    else some (s.addChar c .inField)
  | .inField =>
    if c = '\n' ∨ c = '\r' then some (s.saveField.lineBreak c)
    else if c = ',' then some s.saveField
    else some (s.addChar c .inField)
  | .inQuotedField =>
    if c = '"' then some { s with mode := .quoteInQuotedField } else some (s.addChar c .inQuotedField)
  | .quoteInQuotedField =>
    if c = '"' then some (s.addChar c .inQuotedField)
    else if c = ',' then some s.saveField
    else if c = '\n' ∨ c = '\r' then some (s.saveField.lineBreak c)
    else some (s.addChar c .inField)
  | .eatNewline => if c = '\n' ∨ c = '\r' then some (s.lineBreak c) else none

/-- The end of the text. -/
def finish (s : Reader) : List (List (List Char)) :=
  match s.mode with
  | .startRecord => s.rows
  | .eatNewline => s.endRecord.rows
  | _ => s.saveField.endRecord.rows

end Reader

/-- `list(csv.reader(io.StringIO(text)))`. -/
def read (text : List Char) : Option (List (List (List Char))) := (text.foldlM Reader.step {}).map Reader.finish

def quote (cell : List Char) : List Char :=
  '"' :: (cell.flatMap fun c => if c = '"' then ['"', '"'] else [c]) ++ ['"']

def writeRow : List (List Char) → List Char
  | [] => ['\r', '\n']
  | cell :: cells => quote cell ++ (cells.flatMap fun cell => ',' :: quote cell) ++ ['\r', '\n']

/-- `csv.writer(…, quoting=csv.QUOTE_ALL).writerows(rows)`. -/
def write (rows : List (List (List Char))) : List Char := rows.flatMap writeRow

section

variable {s : Reader}

theorem steps_append {text rest : List Char} {s' : Reader} (h : text.foldlM Reader.step s = some s') :
    (text ++ rest).foldlM Reader.step s = rest.foldlM Reader.step s' := by
  rw [List.foldlM_append, h]
  rfl

/-- Inside the quotes a cell is read back, each doubled quote as one. -/
theorem steps_quoted (hmode : s.mode = .inQuotedField) (cell : List Char) :
    (cell.flatMap fun c => if c = '"' then ['"', '"'] else [c]).foldlM Reader.step s =
      some { s with cell := s.cell ++ cell } := by
  induction cell generalizing s with
  | nil => simp
  | cons c rest ih =>
      have hchar : (if c = '"' then ['"', '"'] else [c]).foldlM Reader.step s = some (s.addChar c .inQuotedField) := by
        by_cases hc : c = '"'
        · subst c
          simp [Reader.step, hmode, Reader.addChar]
        · simp [Reader.step, hmode, hc]
      rw [List.flatMap_cons, steps_append hchar, ih rfl]
      simp [Reader.addChar, hmode]

theorem steps_quote (hmode : s.mode = .startRecord ∨ s.mode = .startField) (hcell : s.cell = []) (cell : List Char) :
    (quote cell).foldlM Reader.step s = some { s with mode := .quoteInQuotedField, cell } := by
  have hopen : s.step '"' = some { s with mode := .inQuotedField } := by
    rcases hmode with hmode | hmode <;> simp [Reader.step, hmode]
  rw [quote, List.cons_append, List.foldlM_cons, hopen]
  change List.foldlM Reader.step _ _ = _
  rw [steps_append (steps_quoted rfl cell)]
  simp [Reader.step, hcell]

/-- The cells behind the first one of a row. -/
theorem steps_cells (hmode : s.mode = .quoteInQuotedField) (cells : List (List Char)) :
    (cells.flatMap fun cell => ',' :: quote cell).foldlM Reader.step s =
      some { s with
        row := s.row ++ (s.cell :: cells).dropLast
        cell := (s.cell :: cells).getLast (List.cons_ne_nil _ _) } := by
  induction cells generalizing s with
  | nil => simp
  | cons cell rest ih =>
      have hcell : (',' :: quote cell).foldlM Reader.step s =
          some { s with row := s.row ++ [s.cell], cell, mode := .quoteInQuotedField } := by
        have hcomma : s.step ',' = some s.saveField := by simp [Reader.step, hmode]
        rw [List.foldlM_cons, hcomma]
        exact steps_quote (s := s.saveField) (Or.inr rfl) rfl cell
      rw [List.flatMap_cons, steps_append hcell, ih rfl]
      simp [hmode]

theorem steps_writeRow (hmode : s.mode = .startRecord) (hcell : s.cell = []) (hrow : s.row = []) (row : List (List Char)) :
    (writeRow row).foldlM Reader.step s = some { s with rows := s.rows ++ [row] } := by
  cases row with
  | nil =>
      simp [writeRow, Reader.step, hmode, Reader.lineBreak, Reader.endRecord, hrow]
  | cons cell cells =>
      rw [writeRow, List.append_assoc, steps_append (steps_quote (Or.inl hmode) hcell cell),
        steps_append (steps_cells rfl cells)]
      simp [Reader.step, Reader.saveField, Reader.lineBreak, Reader.endRecord, hrow, hmode, hcell,
        List.dropLast_append_getLast]

theorem steps_write (hmode : s.mode = .startRecord) (hcell : s.cell = []) (hrow : s.row = [])
    (rows : List (List (List Char))) :
    (write rows).foldlM Reader.step s = some { s with rows := s.rows ++ rows } := by
  induction rows generalizing s with
  | nil => simp [write]
  | cons row rest ih =>
      rw [write, List.flatMap_cons, steps_append (steps_writeRow hmode hcell hrow row)]
      refine (ih (s := { s with rows := s.rows ++ [row] }) hmode hcell hrow).trans ?_
      simp

/-- **The reader inverts the writer.** -/
theorem read_write (rows : List (List (List Char))) : read (write rows) = some rows := by
  rw [read, steps_write rfl rfl rfl]
  rfl

end

end KernelGym.Library.Csv
