/-!
# Text — ControlSequence

What a text shows once its control sequences are left out.  A sequence begins with an escape
character, and the character after it decides how far the sequence goes; one that is cut short goes
to the end of the text.  Of the single controls the tab, the line ends and the form feed are kept,
and the others are left out.

A sequence that carries a text for the terminal hides whatever stands in it.  Any other is paused by
a control that is kept: characters show again, until one that is left out resumes the sequence where
it stood, or one beyond ASCII ends it.
-/

namespace StackMachine.Text

/-- How far a sequence has come that can be paused. -/
inductive Escape
  /-- After the escape character. -/
  | start
  /-- After intermediate characters. -/
  | intermediate
  /-- In a command with parameters, which a letter ends. -/
  | command
  deriving DecidableEq, Repr

/-- Where a reader of a text stands with respect to control sequences. -/
inductive ControlState
  /-- Outside. -/
  | ground
  | inside (e : Escape)
  /-- In the midst of a sequence that is paused. -/
  | paused (e : Escape)
  /-- In a text for the terminal's window, which a bell ends. -/
  | window
  /-- Before the parameters of a text for a device. -/
  | deviceStart
  /-- Among the parameters. -/
  | deviceParameters
  /-- Among the intermediate characters after the parameters. -/
  | deviceIntermediate
  /-- In a text that a string terminator ends. -/
  | string
  deriving DecidableEq, Repr

/-- The character is a control that lays a text out. -/
def isLayout (c : Char) : Bool := c = '\t' || c = '\n' || c = '\x0c' || c = '\r'

/-- The character is kept where it belongs to no sequence: it is no control of ASCII, or one that
lays the text out. -/
def isKept (c : Char) : Bool := isLayout c || (' ' ≤ c && c ≠ '\x7f')

/-- The string terminator, a single byte, is one of the bytes that encode the character. -/
def encodesTerminator (c : Char) : Bool := (String.utf8EncodeChar c).contains 0x9C

/-- The character is one of those from `lo` to `hi`. -/
def within (lo hi c : Char) : Bool := lo ≤ c && c ≤ hi

/-- Where the reader stands after one more character of a sequence that is not paused by it. -/
def Escape.next (c : Char) : Escape → ControlState
  | .start        =>
    if c = 'P' then .deviceStart
    else if c = '[' then .inside .command
    else if c = ']' then .window
    else if c = 'X' || c = '^' || c = '_' then .string
    else if within ' ' '/' c then .inside .intermediate
    else if within '0' '~' c then .ground
    else .inside .start
  | .intermediate => if within '0' '~' c then .ground else .inside .intermediate
  | .command      => if within '@' '~' c then .ground else .inside .command

namespace ControlState

/-- Where the reader stands after a character.  Two controls cancel any sequence, and an escape
character begins another. -/
def next (c : Char) (q : ControlState) : ControlState :=
  if c = '\x18' || c = '\x1a' then .ground
  else if c = '\x1b' then .inside .start
  else match q with
    | .ground             => .ground
    | .inside e           => if isLayout c then .paused e else e.next c
    | .paused e           => if '\x80' ≤ c then .ground else if isKept c then q else .inside e
    | .window             => if c = '\x07' then .ground else q
    | .deviceStart        =>
      if within ' ' '/' c then .deviceIntermediate
      else if within '0' '?' c then .deviceParameters
      else if within '@' '~' c then .string
      else q
    | .deviceParameters   =>
      if within ' ' '/' c then .deviceIntermediate else if within '<' '~' c then .string else q
    | .deviceIntermediate => if within '0' '~' c then .string else q
    | .string             => if encodesTerminator c then .ground else q

/-- The character shows. -/
def shows (c : Char) : ControlState → Bool
  | .ground | .paused _ => isKept c
  | .inside _           => isLayout c
  | _                   => false

/-- The characters of a text that show. -/
def shown : ControlState → List Char → List Char
  | _, []      => []
  | q, c :: cs => if q.shows c then c :: (q.next c).shown cs else (q.next c).shown cs

end ControlState

/-- The text without its control sequences. -/
def withoutControls (s : String) : String := String.ofList (ControlState.ground.shown s.toList)

end StackMachine.Text
