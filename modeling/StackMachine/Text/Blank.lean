import StackMachine.Text.Ranges

/-!
# Text — Blank

White space as the property `White_Space` has it, and text without the white space at its end.  The
information separators U+001C to U+001F and the zero-width characters are not white space.
-/

namespace StackMachine.Text

/-- The code points of `White_Space`. -/
def blankRanges : Ranges :=
  [(0x9, 0xD), (0x20, 0x20), (0x85, 0x85), (0xA0, 0xA0), (0x1680, 0x1680), (0x2000, 0x200A),
   (0x2028, 0x2029), (0x202F, 0x202F), (0x205F, 0x205F), (0x3000, 0x3000)]

theorem ascending_blankRanges : blankRanges.Ascending := by decide +kernel

/-- The character is white space. -/
def isBlank (c : Char) : Bool := blankRanges.contains c.toNat

/-- The text up to its last character that is not white space. -/
def trimEnd (s : String) : String := String.ofList (s.toList.reverse.dropWhile isBlank).reverse

/-- What is left of a text ends in no white space. -/
theorem not_isBlank_getLast_trimEnd {s : String} {c : Char}
    (h : (trimEnd s).toList.getLast? = some c) : isBlank c = false := by
  simp only [trimEnd, String.toList_ofList, List.getLast?_reverse] at h
  have := List.head?_dropWhile_not isBlank s.toList.reverse
  rw [h] at this
  simpa using this

end StackMachine.Text
