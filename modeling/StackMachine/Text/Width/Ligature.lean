import StackMachine.Text.Width.Script

/-!
# Text — Width — Ligature

Letters that are drawn as one, read from the end of the text.  The last letter of a ligature is met
first and remembered; a letter before it that completes the ligature gives its own columns up.  Some
ligatures need a zero-width joiner between their letters, and all but the Arabic one let variation
selectors and joiners stand inside.
-/

namespace StackMachine.Text

/-- The end of a ligature, as the characters before it see it.  It is `joined` once a joiner stands
before it. -/
inductive Ligature
  | alef
  | lamed (joined : Bool)
  | ya (joined : Bool)
  /-- The vowel sign and the letter ya that it is written onto. -/
  | yaVowel
  | tifinagh (joined : Bool)
  /-- A Tifinagh consonant and the sign that joins it to another. -/
  | tifinaghJoined
  | lisuTone
  | orkhonI (joined : Bool)
  | khmer
  deriving DecidableEq, Repr

namespace Ligature

/-- The ligature that a character ends. -/
def ofChar? (c : Char) : Option Ligature :=
  if isAlef c then some .alef
  else if c = '\u05dc' then some (.lamed false)
  else if c = '\u1a10' then some (.ya false)
  else if isTifinaghConsonant c then some (.tifinagh false)
  else if isLisuToneEnd c then some .lisuTone
  else if c.toNat = 0x10C03 then some (.orkhonI false)
  else if isKhmerBelow c then some .khmer
  else none

/-- The ligature after a zero-width joiner. -/
def join : Ligature → Ligature
  | .lamed _    => .lamed true
  | .ya _       => .ya true
  | .tifinagh _ => .tifinagh true
  | .orkhonI _  => .orkhonI true
  | l           => l

/-- The columns that a letter adds before the end of a ligature that it belongs to, and the end of
the ligature from there on, unless the letter begins it. -/
def letter? (c : Char) : Ligature → Option (Int × Option Ligature)
  | .alef            =>
    if isLam c then some (0, none) else if joinsAcross c then some (0, some .alef) else none
  | .lamed joined    => if joined && c = '\u05d0' then some (0, none) else none
  | .ya joined       => if joined && c = '\u1a17' then some (0, some .yaVowel) else none
  | .yaVowel         => if c = '\u1a15' then some (0, none) else none
  | .tifinagh joined =>
    if c = '\u2d7f' then some (1, some .tifinaghJoined)
    else if joined && isTifinaghConsonant c then some (0, none)
    else none
  | .tifinaghJoined  => if isTifinaghConsonant c then some (-1, none) else none
  | .lisuTone        => if isLisuToneStart c then some (0, none) else none
  | .orkhonI joined  => if joined && c.toNat = 0x10C32 then some (0, none) else none
  | .khmer           => if c = '\u17d2' then some (-1, none) else none

/-- The columns that a character adds before the end of a ligature, and the end of the ligature from
there on; nothing if the character takes no part in it. -/
def before? (c : Char) (l : Ligature) : Option (Int × Option Ligature) :=
  if l = .alef then l.letter? c
  else if c = zeroWidthJoiner then some (0, some l.join)
  else if isLigatureInside c then some (0, some l)
  else l.letter? c

end Ligature

end StackMachine.Text
