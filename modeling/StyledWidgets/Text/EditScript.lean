/-
Module: StyledWidgets.Text.EditScript
Purpose: Short scripts of edits that turn one list of lines into another. Two searches, one from
  each end, follow the furthest points that a number of edits can reach until they meet; the lists
  are cut there and both parts are treated in the same way.
Main exports: Line, splitLines, Edit, editScript
-/

namespace StyledWidgets.Text

/-! ### Lines -/

/-- A line with its terminator. -/
abbrev Line := List Char

/-- Put a character in front of the first line. -/
def consLine (c : Char) : List Line → List Line
  | [] => [[c]]
  | line :: later => (c :: line) :: later

/-- The lines of a text. A line ends after a line feed, a carriage return or both in this order; the
last one may lack a terminator, but it is never empty. -/
def splitLines : List Char → List Line
  | [] => []
  | '\r' :: '\n' :: rest => ['\r', '\n'] :: splitLines rest
  | c :: rest =>
      if c = '\n' ∨ c = '\r' then [c] :: splitLines rest else consLine c (splitLines rest)

/-! ### Edits -/

/-- A step from an old list of lines to a new one. Lines that are put in together form one step. -/
inductive Edit where
  | keep (line : Line)
  | delete (line : Line)
  | insert (lines : List Line)
  deriving Repr, DecidableEq, Inhabited

/-- The number of lines at the start that two lists have in common. -/
def commonLength : List Line → List Line → Nat
  | a :: old, b :: new => if a = b then commonLength old new + 1 else 0
  | _, _ => 0

/-! ### The search from one end -/

/-- Two lists of lines in the order in which a search from one of their ends meets them. -/
structure Facing where
  old : Array Line
  new : Array Line

/-- The number of lines that are the same from a column of the old ones and a row of the new ones
on. -/
def Facing.runLength (facing : Facing) (column row : Nat) : Nat :=
  if inside : column < facing.old.size ∧ row < facing.new.size then
    if facing.old[column] = facing.new[row] then
      facing.runLength (column + 1) (row + 1) + 1
    else 0
  else 0
termination_by facing.old.size - column

/-- The furthest point on a diagonal: the column at which the lines that are kept there begin, and
the column behind them. The row is the column less the diagonal. -/
structure Reach where
  diagonal : Int
  start : Nat
  finish : Nat
  deriving Repr, DecidableEq, Inhabited

/-- The columns from which each diagonal between two neighbours is entered: along the lower one by
a deletion or along the upper one by an insertion, whichever leads further. -/
def columnsBelow (upper : Nat) : List Nat → List Nat
  | [] => [upper]
  | lower :: rest => (if lower < upper then upper else lower + 1) :: columnsBelow lower rest

/-- The columns at which one more edit enters its diagonals. `frontier` has the furthest columns
without that edit, from the highest diagonal to the lowest. -/
def columnsAfter : List Nat → List Nat
  | [] => [0]
  | highest :: rest => (highest + 1) :: columnsBelow highest rest

/-- The furthest points after a number of edits, on the diagonals from that number down to its
negative, in steps of two. -/
def reachesAfter (facing : Facing) (edits : Nat) (frontier : List Nat) : List Reach :=
  (columnsAfter frontier).zipIdx.map fun (column, index) =>
    let diagonal := (edits : Int) - 2 * (index : Int)
    let row := ((column : Int) - diagonal).toNat
    ⟨diagonal, column, column + facing.runLength column row⟩

/-- The furthest column that a number of edits reaches on a diagonal. -/
def furthest? (edits : Int) (frontier : Array Nat) (diagonal : Int) : Option Nat :=
  if diagonal.natAbs ≤ edits then frontier[((edits - diagonal) / 2).toNat]? else none

/-- The first point of one search that meets the other search, which has made `edits` edits from
the opposite end. -/
def meeting? (width : Nat) (delta edits : Int) (frontier : List Nat) (reaches : List Reach) :
    Option Reach :=
  let columns := frontier.toArray
  reaches.find? fun reach =>
    match furthest? edits columns (delta - reach.diagonal) with
    | some column => decide (width ≤ reach.finish + column)
    | none => false

/-! ### The search from both ends -/

/-- Search from both ends, with one more edit each time; a point that lies on a shortest script.
After an odd number of edits in all the forward search is the one that notices the meeting. -/
def middleFrom (fore back : Facing) (edits : Nat) (forward backward : List Nat) :
    Nat → Option (Nat × Nat)
  | 0 => none
  | more + 1 =>
      let width := fore.old.size
      let height := fore.new.size
      let delta := (width : Int) - height
      let ahead := reachesAfter fore edits forward
      let met :=
        if delta % 2 = 0 then none else meeting? width delta ((edits : Int) - 1) backward ahead
      match met with
      | some reach => some (reach.start, ((reach.start : Int) - reach.diagonal).toNat)
      | none =>
          let forward := ahead.map Reach.finish
          let behind := reachesAfter back edits backward
          let met := if delta % 2 = 0 then meeting? width delta edits forward behind else none
          match met with
          | some reach =>
              let row := ((reach.finish : Int) - reach.diagonal).toNat
              some (width - reach.finish, height - row)
          | none => middleFrom fore back (edits + 1) forward (behind.map Reach.finish) more

/-- A point at which two lists can be cut without making the script longer; there is none to look
for if one of the lists is empty. -/
def middle? (old new : List Line) : Option (Nat × Nat) :=
  if old.isEmpty || new.isEmpty then none
  else
    middleFrom ⟨old.toArray, new.toArray⟩ ⟨old.reverse.toArray, new.reverse.toArray⟩ 0 [] []
      ((old.length + new.length + 1) / 2 + 1)

/-! ### Scripts -/

/-- The script that deletes all old lines and puts in all new ones. -/
def replaceAll (old new : List Line) : List Edit :=
  old.map Edit.delete ++ if new.isEmpty then [] else [Edit.insert new]

/-- The lines between a number of them at the start and a number of them at the end. -/
def between (start tail : Nat) (lines : List Line) : List Line :=
  (lines.drop start).take (lines.length - start - tail)

theorem length_between_le (start tail : Nat) (lines : List Line) :
    (between start tail lines).length ≤ lines.length := by
  rw [between, List.length_take, List.length_drop]
  omega

theorem length_take_lt (old new : List Line) (column row : Nat)
    (h : 0 < (old.drop column).length + (new.drop row).length) :
    (old.take column).length + (new.take row).length < old.length + new.length := by
  rw [List.length_drop, List.length_drop] at h
  rw [List.length_take, List.length_take]
  omega

theorem length_drop_lt (old new : List Line) (column row : Nat)
    (h : 0 < (old.take column).length + (new.take row).length) :
    (old.drop column).length + (new.drop row).length < old.length + new.length := by
  rw [List.length_take, List.length_take] at h
  rw [List.length_drop, List.length_drop]
  omega

/-- A short script from one list of lines to another. Lines that both have in common at the start
and at the end are kept. What is left is cut at a point of a shortest script, unless one of the
lists is empty or the point is a corner; then all is replaced. -/
def editScript (old new : List Line) : List Edit :=
  let start := commonLength old new
  let tail := commonLength (old.drop start).reverse (new.drop start).reverse
  let inner :=
    match middle? (between start tail old) (between start tail new) with
    | none => replaceAll (between start tail old) (between start tail new)
    | some (column, row) =>
        if _h : 0 < ((between start tail old).take column).length +
              ((between start tail new).take row).length ∧
            0 < ((between start tail old).drop column).length +
              ((between start tail new).drop row).length then
          editScript ((between start tail old).take column) ((between start tail new).take row) ++
            editScript ((between start tail old).drop column) ((between start tail new).drop row)
        else replaceAll (between start tail old) (between start tail new)
  (old.take start).map Edit.keep ++ inner ++ (old.drop (old.length - tail)).map Edit.keep
termination_by old.length + new.length
decreasing_by
  · exact Nat.lt_of_lt_of_le (length_take_lt _ _ _ _ _h.2)
      (Nat.add_le_add (length_between_le _ _ _) (length_between_le _ _ _))
  · exact Nat.lt_of_lt_of_le (length_drop_lt _ _ _ _ _h.1)
      (Nat.add_le_add (length_between_le _ _ _) (length_between_le _ _ _))

end StyledWidgets.Text
