/-!
# Sizes

The size of a screen in cells. A screen has at most `Size.maxCells` of them. A size with more is
reduced to the largest one of the same proportions, in whole columns and rows; a size within the
limit stays as it is (`Size.limited_of_cells_le`). Both the limit and the reduction are assumed of
the terminal library that makes the screen. How many cells a character takes is a matter of the
rows, not of the size.
-/

namespace BasicCompiler.Viewer

/-- The number of columns and the number of rows. -/
structure Size where
  width : Nat
  height : Nat
deriving DecidableEq, Repr

namespace Size

/-- The largest number of cells of a screen: cells are counted in sixteen bits. -/
def maxCells : Nat :=
  UInt16.size - 1

/-- The number of cells. -/
def cells (size : Size) : Nat :=
  size.width * size.height

/-- The size in the same proportions that has `maxCells` cells, computed in double precision and
rounded down to whole columns and rows. -/
def proportional (size : Size) : Size :=
  let ratio := Float.ofNat size.width / Float.ofNat size.height
  let height := (Float.ofNat maxCells / ratio).sqrt
  ⟨(height * ratio).toUInt16.toNat, height.toUInt16.toNat⟩

/-- The size of the screen that is made where this size is asked for. -/
def limited (size : Size) : Size :=
  if size.cells ≤ maxCells then size else size.proportional

/-- A size within the limit is granted. -/
theorem limited_of_cells_le {size : Size} (h : size.cells ≤ maxCells) : size.limited = size := by
  simp [limited, h]

end Size

end BasicCompiler.Viewer
