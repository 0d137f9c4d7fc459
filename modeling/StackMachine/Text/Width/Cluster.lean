import StackMachine.Text.Width.Emoji
import StackMachine.Text.Width.Single

/-!
# Text — Width — Cluster

Characters that are drawn as one emoji, read from the end of the text.  An emoji that a zero-width
joiner, a skin tone or tags tie to the characters before it takes two columns once, however many
characters it is made of; regional indicators pair up from the left, so that while they are read a
column may have to be given back.
-/

namespace StackMachine.Text

/-- The start of an emoji, as the characters before it see it. -/
inductive Cluster
  | emoji
  | skinTone
  /-- One regional indicator. -/
  | regional
  /-- Several regional indicators. -/
  | regionals
  /-- A joiner before an emoji. -/
  | joined
  /-- A keycap that a joiner follows. -/
  | joinedKeycap
  /-- One regional indicator that a joiner follows. -/
  | joinedRegional
  /-- An even number of regional indicators that a joiner follows. -/
  | joinedEven
  /-- An odd number of them, three at least. -/
  | joinedOdd
  /-- Tags of so many letters and the end of the tags, which a joiner follows. -/
  | tagLetters (n : Nat)
  /-- Tags of so many digits, before tags of letters and the end of the tags. -/
  | tagDigits (n : Nat)
  deriving DecidableEq, Repr

namespace Cluster

/-- The cluster that a character ends. -/
def ofChar? (c : Char) : Option Cluster :=
  if isRegional c then some .regional
  else if isSkinTone c then some .skinTone
  else if isEmoji c then some .emoji
  else none

/-- A joiner before the cluster ties it to what is written before. -/
def isJoinable : Cluster → Bool
  | .emoji | .skinTone | .regionals | .joinedEven => true
  | _                                             => false

/-- The cluster stays tied to an emoji before it across a variation selector. -/
def isTied : Cluster → Bool
  | .joined | .joinedKeycap => true
  | _                       => false

/-- The columns that a character adds before a cluster that it belongs to, and the cluster from
there on. -/
def part? (c : Char) : Cluster → Option (Int × Cluster)
  | .emoji          => none
  | .skinTone       => if takesSkinTone c then some (0, .emoji) else none
  | .regional       => if isRegional c then some (1, .regionals) else none
  | .regionals      => if isRegional c then some (1, .regionals) else none
  | .joined         =>
    if c = '\u20e3' then some (0, .joinedKeycap)
    else if isRegional c then some (1, .joinedRegional)
    else if isSkinTone c then some (0, .skinTone)
    else if c.toNat = 0xE007F then some (0, .tagLetters 0)
    else if isEmoji c then some (0, .emoji)
    else none
  | .joinedKeycap   => none
  | .joinedRegional => if isRegional c then some (-1, .joinedEven) else none
  | .joinedEven     => if isRegional c then some (3, .joinedOdd) else none
  | .joinedOdd      => if isRegional c then some (-1, .joinedEven) else none
  | .tagLetters n   =>
    if isTagLetter c && n < 6 then some (0, .tagLetters (n + 1))
    else if isTagDigit c && n < 5 then some (0, .tagDigits 1)
    else if isTaggedFlag c && 3 ≤ n then some (0, .emoji)
    else none
  | .tagDigits n    =>
    if isTagDigit c && n < 3 then some (0, .tagDigits (n + 1))
    else if isTaggedFlag c && n = 3 then some (0, .emoji)
    else none

/-- The columns that a character adds before a cluster, and the cluster from there on; nothing if
the character takes no part in it. -/
def before? (c : Char) (k : Cluster) : Option (Int × Cluster) :=
  if c = zeroWidthJoiner && k.isJoinable then some (0, .joined) else k.part? c

end Cluster

end StackMachine.Text
