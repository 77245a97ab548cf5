import ClientGen.Host.CharTable
import ClientGen.Text.Letter

/-!
# Characters of host names

What a character contributes to the rules for names.

* `isAllowed`: may a name have the character at all?
* `Direction`, `directionOf`: which way the character is written.
* `isSpacingMark`, `startsName`: can the character stand first?
* `joinsAfter`, `joinsBefore`, `isTransparent`: does a letter join with its neighbours?
* `isGreek`, `isHebrew`, `isEastAsian`: the scripts that some signs need beside them.
-/

namespace ClientGen.Host

open Text (inRanges)

/-- May a name have the character at all? Capitals are not allowed, nor is what only varies the form
of another character. -/
def isAllowed (c : Char) : Bool :=
  let n := c.toNat
  if n < 128 then Text.isAsciiLower c || Text.isAsciiDigit c || c == '-'
  else inRanges allowedRanges n
    || alternateRanges.any fun r => r.1 ≤ n && n ≤ r.2 && (n - r.1) % 2 == 0

/-- Which way a character is written. -/
inductive Direction where
  /-- From left to right. -/
  | left
  /-- From right to left. -/
  | right
  /-- As a digit of numbers that go with letters from either side. -/
  | number
  /-- As a digit of numbers that go with letters from right to left. -/
  | arabicNumber
  /-- As the character it stands on. -/
  | attached
  /-- As its neighbours are. -/
  | neutral
deriving DecidableEq, Repr

/-- The digits of Arabic and of Hanifi Rohingya. -/
def arabicNumberRanges : List (Nat × Nat) := [(0x660, 0x669), (0x10d30, 0x10d39)]

/-- The digits of Persian and Urdu. -/
def persianDigits : Nat × Nat := (0x6f0, 0x6f9)

/-- Which way an allowed character is written. -/
def directionOf (c : Char) : Direction :=
  let n := c.toNat
  if n < 128 then if Text.isAsciiDigit c then .number else if c = '-' then .neutral else .left
  else if inRanges rightRanges n then .right
  else if inRanges attachedRanges n then .attached
  else if inRanges arabicNumberRanges n then .arabicNumber
  else if inRanges [persianDigits] n then .number
  else if inRanges neutralRanges n then .neutral
  else .left

/-- Can an allowed character stand first? Marks cannot. -/
def startsName (c : Char) : Bool :=
  directionOf c ≠ .attached && !inRanges spacingMarkRanges c.toNat

/-- Letters that join only with what stands on their left. -/
def leftJoining : List Nat := [0xa872, 0x10acd, 0x10ad7, 0x10d00]

/-- Does a letter join with the one after it? -/
def joinsAfter (c : Char) : Bool :=
  inRanges dualJoiningRanges c.toNat || leftJoining.contains c.toNat

/-- Does a letter join with the one before it? -/
def joinsBefore (c : Char) : Bool :=
  inRanges dualJoiningRanges c.toNat || inRanges rightJoiningRanges c.toNat

/-- Marks with room of their own that nevertheless do not part the letters beside them. -/
def transparentSpacing : List Nat := [0xcbf, 0xcc6, 0x11a07, 0x11a08, 0x11c3f, 0x1e94b]

/-- Do letters join across the character? They do across marks; the medial ra of Ahom parts them. -/
def isTransparent (c : Char) : Bool :=
  (directionOf c = .attached && c.toNat ≠ 0x1171e) || transparentSpacing.contains c.toNat

/-- Is an allowed character Greek? -/
def isGreek (c : Char) : Bool :=
  inRanges [(881, 993), (1011, 1020), (7462, 7466), (7936, 8182), (43877, 43877)] c.toNat

/-- Is an allowed character Hebrew? -/
def isHebrew (c : Char) : Bool := inRanges [(1425, 1524), (64286, 64286)] c.toNat

/-- Is an allowed character Chinese or of a syllabary of Japanese? -/
def isEastAsian (c : Char) : Bool :=
  inRanges [(12293, 12293), (12295, 12295), (12353, 12438), (12445, 12446), (12449, 12538),
    (12541, 12542), (12784, 12799), (13312, 40959), (64014, 64041), (94179, 94179),
    (94192, 94193), (110576, 110592), (110593, 110879), (110880, 110882), (110928, 110930),
    (110948, 110951), (131072, 201546)] c.toNat

end ClientGen.Host
