import StackMachine.Text.Width.Cluster
import StackMachine.Text.Width.Ligature

/-!
# Text — Width

The number of columns that a text takes in a terminal.  The text is read from its end, because what
a character adds depends on what follows it: a variation selector chooses between its text style
and its emoji style, a ligature or an emoji made of several characters takes it in, and otherwise it
has the columns it takes by itself.  A control counts one column.

A colour sequence shows nothing, so the columns of its characters do not count: they are those from
a bracket after an escape character up to the letter m.  What a sequence hides is counted character
by character, without regard to ligatures, so that one made of pairs of Lisu tone letters hides more
columns than the text has.  The library that draws the tables assumes that there is no such text
among their cells, and so do the tables here: its width is none, which stands for no table that is
ever drawn.
-/

namespace StackMachine.Text

/-! ### What follows -/

/-- The start of a text, as the character before it sees it. -/
inductive Follow
  | plain
  | ligature (l : Ligature)
  | cluster (k : Cluster)
  deriving DecidableEq, Repr

namespace Follow

/-- A text that starts with a character by itself. -/
def ofChar (c : Char) : Follow :=
  match Cluster.ofChar? c, Ligature.ofChar? c with
  | some k, _    => .cluster k
  | none, some l => .ligature l
  | none, none   => .plain

/-- The columns that a character adds, and what the text starts with then. -/
def before (c : Char) (f : Follow) : Int × Follow :=
  let alone : Int × Follow := (charWidth c, .ofChar c)
  match f with
  | .plain      => alone
  | .ligature l =>
    match l.before? c with
    | some (n, some l) => (n, .ligature l)
    | some (n, none)   => (n, .plain)
    | none             => alone
  | .cluster k  =>
    match k.before? c with
    | some (n, k) => (n, .cluster k)
    | none        => alone

/-- The text starts with a part of an emoji that belongs to the character before it, be there a
variation selector between them or not. -/
def isTied : Follow → Bool
  | .cluster k => k.isTied
  | _          => false

/-- What a selector of the text style leaves of what follows it: ligatures alone. -/
def ligatureOnly : Follow → Follow
  | .ligature l => .ligature l
  | _           => .plain

/-- What a selector of the emoji style leaves of what follows it: ligatures, and what a joiner ties
to the character before the selector. -/
def ligatureOrTied (f : Follow) : Follow := if f.isTied then f else f.ligatureOnly

end Follow

/-! ### Columns of a text -/

/-- The style that a variation selector asks for. -/
inductive Style
  | text
  | emoji
  deriving DecidableEq, Repr

/-- The columns of a text and its start as the character before it sees it, with the style asked for
if a variation selector stands first. -/
structure Measure where
  columns : Int
  follow  : Follow
  style   : Option Style
  deriving DecidableEq, Repr

namespace Measure

/-- The measure of the empty text. -/
def empty : Measure := ⟨0, .plain, none⟩

/-- The measure with a character written before the text. -/
def cons (c : Char) (m : Measure) : Measure :=
  if m.style = some .emoji && hasTwoStyles c then
    ⟨m.columns + (if m.follow.isTied then 0 else 2), .cluster .emoji, none⟩
  else
    let follow := if m.style = some .emoji then m.follow.ligatureOnly else m.follow
    if c ≤ '\u00a0' then ⟨m.columns + 1, .plain, none⟩
    else if c = '\ufe0f' then ⟨m.columns, follow.ligatureOrTied, some .emoji⟩
    else if c = '\ufe0e' then ⟨m.columns, follow.ligatureOnly, some .text⟩
    else if m.style = some .text && isNarrowAsText c then ⟨m.columns + 1, .plain, none⟩
    else
      let (n, follow) := follow.before c
      ⟨m.columns + n, follow, none⟩

/-- The measure of a text. -/
def ofText (s : String) : Measure := s.toList.foldr cons empty

/-- A character up to the no-break space adds one column, and hides what follows from the characters
before it. -/
theorem cons_of_le {c : Char} (hc : c ≤ '\u00a0') {m : Measure} (hm : m.style = none) :
    cons c m = ⟨m.columns + 1, .plain, none⟩ := by
  simp [cons, hm, hc]

/-- Among such characters every one counts. -/
theorem foldr_cons_of_le {cs : List Char} (h : ∀ c ∈ cs, c ≤ '\u00a0') :
    cs.foldr cons empty = ⟨cs.length, .plain, none⟩ := by
  induction cs with
  | nil => rfl
  | cons c cs ih =>
    rw [List.foldr_cons, ih fun d hd => h d (List.mem_cons_of_mem c hd),
      cons_of_le (h c List.mem_cons_self) rfl, List.length_cons, Int.natCast_succ]

end Measure

/-! ### Colour sequences -/

/-- How far a colour sequence has come. -/
inductive ColourState
  | outside
  /-- An escape character came last. -/
  | escape
  | inside
  deriving DecidableEq, Repr

namespace ColourState

/-- How far the sequence has come after a character. -/
def next (c : Char) : ColourState → ColourState
  | .outside => if c = '\x1b' then .escape else .outside
  | .escape  => if c = '[' then .inside else .outside
  | .inside  => if c = 'm' then .outside else .inside

/-- The character belongs to a sequence. -/
def hides (c : Char) : ColourState → Bool
  | .outside => false
  | .escape  => c = '['
  | .inside  => true

/-- The number of characters with a column of their own that colour sequences hide. -/
def hidden : ColourState → List Char → Nat
  | _, []      => 0
  | q, c :: cs =>
    (q.next c).hidden cs + if q.hides c && !isControl c && 0 < charWidth c then 1 else 0

/-- Without an escape character nothing is hidden. -/
theorem hidden_outside_of_notMem {cs : List Char} (h : '\x1b' ∉ cs) : outside.hidden cs = 0 := by
  induction cs with
  | nil => rfl
  | cons c cs ih =>
    have hc : c ≠ '\x1b' := fun e => h (e ▸ List.mem_cons_self)
    simp [hidden, next, hides, hc, ih fun hm => h (List.mem_cons_of_mem c hm)]

end ColourState

/-- The columns that a text takes; none if colour sequences hide more than there are. -/
def displayWidth (s : String) : Nat :=
  (Measure.ofText s).columns.toNat - ColourState.outside.hidden s.toList

/-- A text of characters up to the no-break space takes a column for each. -/
theorem displayWidth_of_le {s : String} (h : ∀ c ∈ s.toList, c ≤ '\u00a0')
    (he : '\x1b' ∉ s.toList) : displayWidth s = s.length := by
  rw [displayWidth, Measure.ofText, Measure.foldr_cons_of_le h,
    ColourState.hidden_outside_of_notMem he, Int.toNat_natCast, Nat.sub_zero, String.length_toList]

end StackMachine.Text
