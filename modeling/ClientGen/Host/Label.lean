import ClientGen.Host.Character
import ClientGen.Host.Composition
import ClientGen.Host.Punycode

/-!
# Labels of host names

The parts between the dots of a host name. In ASCII a label with other characters is coded: a mark,
then Punycode.

* `Label.fits`: are the characters, their order and their directions those of a label?
* `Label.isCoded`: is a label of ASCII one, and if it is coded, does it stand for one?
* `Label.length?`: the number of characters that a label has in ASCII.
-/

namespace ClientGen.Host.Label

/-- Do the letters around a place without joining need it? One before it and one after it must
join. The text before is given from its end on. -/
def partsJoined (before after : List Char) : Bool :=
  (before.dropWhile isTransparent).head?.any joinsAfter
    && (after.dropWhile isTransparent).head?.any joinsBefore

/-- The class of the marks that take the vowel from a letter. -/
def vowelKiller : Nat := 9

/-- May a sign that the label `whole` needs a reason for stand between two texts, of which the first
one is given from its end on? Other characters need no reason. -/
def hasReason (whole before after : List Char) (c : Char) : Bool :=
  match c with
  | '\u200c' =>
    before.head?.any (combiningClass · = vowelKiller) || partsJoined before after
  | '\u200d' => before.head?.any (combiningClass · = vowelKiller)
  | '·' => before.head? = some 'l' && after.head? = some 'l'
  | '\u0375' => after.head?.any isGreek
  | '\u05f3' | '\u05f4' => before.head?.any isHebrew
  | '・' => whole.any isEastAsian
  | c =>
    if Text.inRanges [(0x660, 0x669)] c.toNat then
      !whole.any fun c => Text.inRanges [persianDigits] c.toNat
    else if Text.inRanges [persianDigits] c.toNat then
      !whole.any fun c => Text.inRanges [(0x660, 0x669)] c.toNat
    else true

/-- Are all characters of a label allowed where they stand? `before` is what has been looked at,
from its end on. -/
def charsFit (whole before : List Char) : List Char → Bool
  | [] => true
  | c :: after =>
    isAllowed c && hasReason whole before after c && charsFit whole (c :: before) after

/-- Do the directions of the characters go together? Where some are written from right to left, the
first one is such a letter, none is written from left to right, the last one is a letter or digit,
and all digits are of one kind. -/
def directionsFit (cs : List Char) : Bool :=
  let ds := cs.map directionOf
  let last := (ds.reverse.dropWhile (· = .attached)).head?
  if ds.contains .right || ds.contains .arabicNumber then
    ds.head? = some .right && !ds.contains .left
      && [some .right, some .number, some .arabicNumber].contains last
      && !(ds.contains .number && ds.contains .arabicNumber)
  else true

/-- Do the hyphens stand where they may? None stands at an end, and none third and fourth. -/
def hyphensFit (cs : List Char) : Bool :=
  cs.head? ≠ some '-' && cs.getLast? ≠ some '-' && (cs.drop 2).take 2 ≠ ['-', '-']

/-- Is a text a label? -/
def fits (cs : List Char) : Bool :=
  hyphensFit cs && cs.head?.any startsName && charsFit cs [] cs && directionsFit cs && isComposed cs

/-- The mark before Punycode. -/
def codeMark : List Char := "xn--".toList

/-- Is a text of ASCII in lower case a label? One with a mark has to stand for a label. -/
def isCoded (cs : List Char) : Bool :=
  if codeMark.isPrefixOf cs then
    let code := cs.drop codeMark.length
    !code.isEmpty && code.getLast? ≠ some '-' && (Punycode.decode? code).any fits
  else fits cs

/-- The number of characters that a label has in ASCII; none if the text is no label. -/
def length? (cs : List Char) : Option Nat :=
  if cs.all Punycode.isBasic then if isCoded cs then some cs.length else none
  else if fits cs then some (codeMark.length + (Punycode.encode cs).length) else none

end ClientGen.Host.Label
