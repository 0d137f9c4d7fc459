import StackMachine.Text.Table
import StackMachine.Word

/-!
# StackTable

The words of a stack as a table, the top first and marked with an arrow.
-/

namespace StackMachine

/-- The place of a word that has `depth` others above it. -/
def stackLabel (depth : Nat) : String :=
  if depth = 0 then "* --> S[0] =" else "S[" ++ depth.repr ++ "] ="

/-- One row for each word; depths stand to the right, values to the left. -/
def stackTable (stack : List Word) : Text.Table where
  columns := [⟨"Depth", .right⟩, ⟨"Value", .left⟩]
  rows    := stack.zipIdx.map fun (w, depth) => [stackLabel depth, w.text]

/-- The words of a stack, its top first, as text. -/
def stackText (stack : List Word) : String := (stackTable stack).render

end StackMachine
