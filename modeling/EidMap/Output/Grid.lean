import EidMap.Text.Cut
import EidMap.Text.Width

/-!
Text in columns: a framed grid with a header, and labelled lines. A cell may have several lines; a
column is as wide as its widest line.
-/

namespace EidMap.Output

/-- Lines of labels and values. The values stand two columns behind the longest label, whose length
is counted in bytes. -/
def labelled (fields : List (String × String)) : String :=
  let width := (fields.map fun (k, _) => k.utf8ByteSize).foldl max 0
  let line (k v : String) := k ++ String.ofList (List.replicate (width - k.length) ' ') ++ "  " ++ v
  String.intercalate "\n" (fields.map fun (k, v) => line k v)

abbrev Cell := List (List Char)

def cell (s : String) : Cell := Text.pieces '\n' s.toList

def cellWidth (c : Cell) : Nat := (c.map Text.width).foldl max 0

def columnWidth (rows : List (List Cell)) (column : Nat) : Nat :=
  (rows.map fun r => (r[column]?.map cellWidth).getD 0).foldl max 0

def rule (left cross right : Char) (widths : List Nat) : List Char :=
  left :: List.intercalate [cross] (widths.map fun w => List.replicate (w + 2) '─') ++ [right]

def padded (w : Nat) (cs : List Char) : List Char :=
  cs ++ List.replicate (w - Text.width cs) ' '

def rowLine (widths : List Nat) (r : List Cell) (line : Nat) : List Char :=
  let texts := (r.zip widths).map fun (cell, w) => ' ' :: padded w (cell[line]?.getD []) ++ [' ']
  '│' :: List.intercalate ['│'] texts ++ ['│']

def rowLines (widths : List Nat) (r : List Cell) : List (List Char) :=
  let height := (r.map List.length).foldl max 1
  (List.range height).map (rowLine widths r)

/-- A grid with round corners and a line under its header. Without rows that line is the last. -/
def grid (header : List String) (rows : List (List String)) : String :=
  let header := header.map cell
  let rows := rows.map fun r => r.map cell
  let widths := (List.range header.length).map (columnWidth (header :: rows))
  let close := if rows.isEmpty then [] else [rule '╰' '┴' '╯' widths]
  let lines := [rule '╭' '┬' '╮' widths] ++ rowLines widths header ++
    [rule '├' '┼' '┤' widths] ++ rows.flatMap (rowLines widths) ++ close
  String.ofList (List.intercalate ['\n'] lines)

end EidMap.Output
