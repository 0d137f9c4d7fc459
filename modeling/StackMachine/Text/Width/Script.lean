import StackMachine.Text.Width.Single

/-!
# Text — Width — Script

The letters that a script draws together, so that they take fewer columns than they would one by
one, in version 15.1 of the standard.
-/

namespace StackMachine.Text

/-- The forms of the Arabic letter alef. -/
def alefRanges : Ranges :=
  [(0x622, 0x623), (0x625, 0x625), (0x627, 0x627), (0x671, 0x673), (0x675, 0x675), (0x773, 0x774),
   (0x870, 0x882)]

theorem ascending_alefRanges : alefRanges.Ascending := by decide +kernel

/-- The forms of the Arabic letter lam. -/
def lamRanges : Ranges :=
  [(0x644, 0x644), (0x6B5, 0x6B8), (0x76A, 0x76A), (0x8A6, 0x8A6), (0x8C7, 0x8C7)]

theorem ascending_lamRanges : lamRanges.Ascending := by decide +kernel

/-- The code points without a column that break the joining of the letters around them. -/
def joinBreakingRanges : Ranges :=
  [(0x605, 0x605), (0x890, 0x891), (0x8E2, 0x8E2), (0x9BE, 0x9BE), (0x9D7, 0x9D7), (0xB3E, 0xB3E),
   (0xB57, 0xB57), (0xBBE, 0xBBE), (0xBD7, 0xBD7), (0xCC0, 0xCC0), (0xCC2, 0xCC2), (0xCC7, 0xCC8),
   (0xCCA, 0xCCB), (0xCD5, 0xCD6), (0xD3E, 0xD3E), (0xD4E, 0xD4E), (0xD57, 0xD57), (0xDCF, 0xDCF),
   (0xDDF, 0xDDF), (0x1160, 0x11FF), (0x180E, 0x180E), (0x1B35, 0x1B35), (0x1B3B, 0x1B3B),
   (0x1B3D, 0x1B3D), (0x1B43, 0x1B43), (0x200C, 0x200D), (0x2065, 0x2069), (0x302E, 0x302F),
   (0x3164, 0x3164), (0xA8FA, 0xA8FA), (0xD7B0, 0xD7C6), (0xD7CB, 0xD7FB), (0xFF9E, 0xFFA0),
   (0xFFF0, 0xFFF8), (0x111C2, 0x111C3), (0x1133E, 0x1133E), (0x11357, 0x11357),
   (0x114B0, 0x114B0), (0x114BD, 0x114BD), (0x115AF, 0x115AF), (0x11930, 0x11930),
   (0x1193F, 0x1193F), (0x11941, 0x11941), (0x11A3A, 0x11A3A), (0x11A84, 0x11A89),
   (0x11D46, 0x11D46), (0x11F02, 0x11F02), (0x1D165, 0x1D165), (0x1D16E, 0x1D172),
   (0xE0000, 0xE0000), (0xE0002, 0xE001F), (0xE0080, 0xE00FF), (0xE01F0, 0xE0FFF)]

theorem ascending_joinBreakingRanges : joinBreakingRanges.Ascending := by decide +kernel

/-- The Khmer letters that have a form below the line. -/
def khmerBelowRanges : Ranges :=
  [(0x1780, 0x1782), (0x1784, 0x1787), (0x1789, 0x178C), (0x178E, 0x1793), (0x1795, 0x1798),
   (0x179B, 0x179D), (0x17A0, 0x17A0), (0x17A2, 0x17A2), (0x17A7, 0x17A7), (0x17AB, 0x17AC),
   (0x17AF, 0x17AF)]

theorem ascending_khmerBelowRanges : khmerBelowRanges.Ascending := by decide +kernel

/-- The code points without a column that stand inside a ligature and do not break it. -/
def ligatureInsideRanges : Ranges :=
  [(0x34F, 0x34F), (0x17B4, 0x17B5), (0x180B, 0x180D), (0x180F, 0x180F), (0x200D, 0x200D),
   (0xFE00, 0xFE0F), (0xE0100, 0xE01EF)]

theorem ascending_ligatureInsideRanges : ligatureInsideRanges.Ascending := by decide +kernel

/-- The character is a form of alef. -/
def isAlef (c : Char) : Bool := alefRanges.contains c.toNat

/-- The character is a form of lam. -/
def isLam (c : Char) : Bool := lamRanges.contains c.toNat

/-- The character takes no column, and lets the letters around it join. -/
def joinsAcross (c : Char) : Bool := charWidth c = 0 && !joinBreakingRanges.contains c.toNat

/-- The character has a form below the line. -/
def isKhmerBelow (c : Char) : Bool := khmerBelowRanges.contains c.toNat

/-- The character may stand inside a ligature. -/
def isLigatureInside (c : Char) : Bool := ligatureInsideRanges.contains c.toNat

/-- The character is a Tifinagh consonant. -/
def isTifinaghConsonant (c : Char) : Bool :=
  (0x2D31 ≤ c.toNat && c.toNat ≤ 0x2D65) || c = '\u2D6F'

/-- The character is the first of two Lisu tones that are written as one. -/
def isLisuToneStart (c : Char) : Bool := 0xA4F8 ≤ c.toNat && c.toNat ≤ 0xA4FB

/-- The character is the second of two Lisu tones that are written as one. -/
def isLisuToneEnd (c : Char) : Bool := c = '\uA4FC' || c = '\uA4FD'

end StackMachine.Text
