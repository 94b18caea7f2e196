namespace CportNode.Cli.Table

def maxWidth : Nat := 65535

def widen (w : Option Nat) (cell : Option String) : Nat :=
  max (w.getD 0) (cell.elim 0 fun cell => min maxWidth cell.length)

def widths (rows : List (List String)) : List Nat :=
  rows.foldl (List.zipWithAll widen) []

def spaces (n : Nat) : String :=
  String.ofList (List.replicate n ' ')

def rule (left fill cross right : Char) (ws : List Nat) : String :=
  let pieces := ws.map fun w => String.ofList (List.replicate (min maxWidth (w + 2)) fill)
  left.toString ++ cross.toString.intercalate pieces ++ right.toString

def pieces (w : Nat) (cell : List Char) : List (List Char) :=
  if cell.length ≤ w ∨ w = 0 then [cell] else cell.take w :: pieces w (cell.drop w)
termination_by cell.length
decreasing_by
  simp only [List.length_drop]
  omega

@[simp] theorem flatten_pieces (w : Nat) (cell : List Char) : (pieces w cell).flatten = cell := by
  fun_induction pieces w cell with
  | case1 => exact List.append_nil _
  | case2 _ _ ih => rw [List.flatten_cons, ih, List.take_append_drop]

def line (ws : List Nat) (cells : List String) : String :=
  let padded := List.zipWith (fun w cell => " " ++ cell ++ spaces (w - cell.length) ++ " ") ws cells
  "│" ++ "┆".intercalate padded ++ "│"

def rowLines (ws : List Nat) (cells : List String) : List String :=
  let columns := List.zipWith (fun w cell => pieces w cell.toList) ws cells
  let height := (columns.map List.length).foldl max 1
  (List.range height).map fun i =>
    line ws (columns.map fun column => String.ofList (column.getD i []))

def row (ws : List Nat) (cells : List String) : String :=
  "\n".intercalate (rowLines ws cells)

def render (header : List String) (rows : List (List String)) : String :=
  let ws := widths (header :: rows)
  let between := "\n" ++ rule '├' '╌' '┼' '┤' ws ++ "\n"
  "\n".intercalate
    [rule '┌' '─' '┬' '┐' ws, row ws header, rule '╞' '═' '╪' '╡' ws,
      between.intercalate (rows.map (row ws)), rule '└' '─' '┴' '┘' ws]

end CportNode.Cli.Table
