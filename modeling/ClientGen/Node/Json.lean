import ClientGen.Limit
import ClientGen.Node.Basic
import ClientGen.Number.Hexadecimal
import ClientGen.Text.Letter
import ClientGen.Text.Lines

/-!
# Reading JSON

A strict reader with three liberties: `NaN`, `Infinity` and `-Infinity` are numbers, a repeated
key is allowed, and half of a surrogate pair may be escaped on its own. A text has no character for
such a half, so every half is read as the replacement character U+FFFD: texts that differ in nothing
but such halves are read as one text, and if they are keys of an object, as one key.

* `Json.Complaint`: what can be wrong, each with its wording.
* `Json.SyntaxError`: a complaint and the place in the text.
* `Json.Refusal`: why a text is not read.
* `Json.parse`: the node that a text denotes.

Every step returns the text that is left, and a fault carries the text from the fault on, so that
its place is the difference of two lengths.
-/

namespace ClientGen.Json

/-- What is wrong with a text. -/
inductive Complaint where
  /-- No value starts here. -/
  | value
  /-- An object member has to start with a text key. -/
  | propertyName
  /-- The key of a member is not followed by a colon. -/
  | colon
  /-- The items of a list or object are not separated by a comma. -/
  | comma
  /-- Something follows the document. -/
  | extraData
  /-- The text that starts here does not end. -/
  | unterminated
  /-- A control character inside a text. -/
  | controlCharacter
  /-- An unknown escape. -/
  | escape
  /-- An escape by code point without four hexadecimal digits. -/
  | unicodeEscape
  /-- The document starts with a byte order mark. -/
  | byteOrderMark
deriving DecidableEq, Repr

/-- The wording of a complaint. -/
def Complaint.message : Complaint → String
  | .value => "Expecting value"
  | .propertyName => "Expecting property name enclosed in double quotes"
  | .colon => "Expecting ':' delimiter"
  | .comma => "Expecting ',' delimiter"
  | .extraData => "Extra data"
  | .unterminated => "Unterminated string starting at"
  | .controlCharacter => "Invalid control character at"
  | .escape => "Invalid \\escape"
  | .unicodeEscape => "Invalid \\uXXXX escape"
  | .byteOrderMark => "Unexpected UTF-8 BOM (decode using utf-8-sig)"

/-- A complaint and its place. -/
structure SyntaxError where
  /-- What is wrong. -/
  complaint : Complaint
  /-- The line, counted from 1. Lines end at `\n`. -/
  line : Nat
  /-- The column, counted from 1. -/
  column : Nat
  /-- The number of characters before the place. -/
  offset : Nat
deriving DecidableEq, Repr

/-- A syntax error in words. -/
def SyntaxError.message (e : SyntaxError) : String :=
  e.complaint.message ++ ": line " ++ toString e.line ++ " column " ++ toString e.column
    ++ " (char " ++ toString e.offset ++ ")"

/-- Why a text is not read. -/
inductive Refusal where
  /-- It is not JSON. -/
  | malformed (error : SyntaxError)
  /-- It goes beyond a limit. -/
  | beyond (excess : Excess)
deriving DecidableEq, Repr

/-- What ends the reading of a text. -/
inductive Fault where
  /-- A complaint about the text from `rest` to the end. -/
  | malformed (complaint : Complaint) (rest : List Char)
  /-- A limit. -/
  | beyond (excess : Excess)

/-- The place in the whole text where the text `rest` begins, with a complaint about it. -/
def SyntaxError.locate (complaint : Complaint) (rest whole : List Char) : SyntaxError :=
  let read := whole.take (whole.length - rest.length)
  { complaint
    line := (read.filter (· = '\n')).length + 1
    column := (read.reverse.takeWhile (· ≠ '\n')).length + 1
    offset := read.length }

/-- A fault placed in the whole text. -/
def Fault.locate (whole : List Char) : Fault → Refusal
  | .malformed complaint rest => .malformed (.locate complaint rest whole)
  | .beyond excess => .beyond excess

/-- The blanks between the parts of a document. -/
def isJsonBlank (c : Char) : Bool := c = ' ' || c = '\t' || c = '\n' || c = '\r'

/-- The text after the blanks in front. -/
def skipBlanks (cs : List Char) : List Char := cs.dropWhile isJsonBlank

/-- Four hexadecimal digits that are followed by at least one more character. -/
def fourDigits? (cs : List Char) : Option (Nat × List Char) :=
  match cs.drop 4 with
  | [] => none
  | rest => (Hexadecimal.number? (cs.take 4)).map (·, rest)

/-- The character of a code point, and the replacement character for half of a surrogate pair: all
halves fall together. -/
def charOf (n : Nat) : Char :=
  if Surrogate.isHigh n || Surrogate.isLow n then '\ufffd' else Char.ofNat n

/-- The character that an escape by code point stands for and the number of characters it takes,
for the text from the letter `u` on. A pair of escapes may stand for one character. -/
def unicodeEscape (fromU : List Char) : Except Fault (Char × Nat) :=
  match fourDigits? (fromU.drop 1) with
  | none => .error (.malformed .unicodeEscape fromU)
  | some (high, rest) =>
    match Surrogate.isHigh high && !(rest.drop 6).isEmpty, rest with
    | true, '\\' :: 'u' :: digits =>
      match Hexadecimal.number? (digits.take 4) with
      | none => .error (.malformed .unicodeEscape (rest.drop 1))
      | some low =>
        if Surrogate.isLow low then .ok (Surrogate.pair high low, 11)
        else .ok (charOf high, 5)
    | _, _ => .ok (charOf high, 5)

/-- The character of a one-letter escape. -/
def simpleEscape? : Char → Option Char
  | '"' => some '"'
  | '\\' => some '\\'
  | '/' => some '/'
  | 'b' => some '\x08'
  | 'f' => some '\x0c'
  | 'n' => some '\n'
  | 'r' => some '\r'
  | 't' => some '\t'
  | _ => none

/-- The character that an escape stands for and the number of characters after its backslash. -/
def escape (opening rest : List Char) : Except Fault (Char × Nat) :=
  match rest with
  | [] => .error (.malformed .unterminated opening)
  | c :: cs =>
    if c = 'u' then unicodeEscape (c :: cs)
    else match simpleEscape? c with
      | some d => .ok (d, 1)
      | none => .error (.malformed .escape ('\\' :: c :: cs))

/-- The characters of a text up to its closing quote, and what follows. The number counts the
characters that still belong to the escape read last. -/
def textBody (opening : List Char) : Nat → List Char → Except Fault (List Char × List Char)
  | _, [] => .error (.malformed .unterminated opening)
  | skip + 1, _ :: cs => textBody opening skip cs
  | 0, c :: cs =>
    if c = '"' then .ok ([], cs)
    else if c = '\\' then do
      let (d, taken) ← escape opening cs
      let (body, rest) ← textBody opening taken cs
      return (d :: body, rest)
    else if c.toNat < 0x20 then .error (.malformed .controlCharacter (c :: cs))
    else do
      let (body, rest) ← textBody opening 0 cs
      return (c :: body, rest)

/-- The number that some decimal digits stand for. -/
def decimalNumber (digits : List Char) : Nat :=
  digits.foldl (fun n c => n * 10 + (c.toNat - '0'.toNat)) 0

/-- The digits of a whole number: a zero on its own, or digits that do not start with zero. -/
def wholeDigits (cs : List Char) : List Char :=
  match cs with
  | '0' :: _ => ['0']
  | _ => cs.takeWhile Text.isAsciiDigit

/-- The digits after a point, if a point and a digit come next. -/
def fractionDigits (cs : List Char) : List Char :=
  match cs with
  | '.' :: cs => cs.takeWhile Text.isAsciiDigit
  | _ => []

/-- The exponent that comes next and the number of its characters, if there is a complete one. -/
def exponent? (cs : List Char) : Option (Int × Nat) :=
  match cs with
  | e :: cs =>
    if e = 'e' ∨ e = 'E' then
      let (negative, signs, cs) := match cs with
        | '-' :: cs => (true, 1, cs)
        | '+' :: cs => (false, 1, cs)
        | _ => (false, 0, cs)
      let digits := cs.takeWhile Text.isAsciiDigit
      if digits.isEmpty then none
      else
        let n : Int := decimalNumber digits
        some (if negative then -n else n, 1 + signs + digits.length)
    else none
  | [] => none

/-- The number at the start of a text without its sign, and what follows. -/
def unsignedNumber? (negative : Bool) (cs : List Char) : Option (Node × List Char) :=
  let whole := wholeDigits cs
  if whole.isEmpty then none
  else
    let rest := cs.drop whole.length
    let fraction := fractionDigits rest
    let rest := if fraction.isEmpty then rest else rest.drop (fraction.length + 1)
    match fraction, exponent? rest with
    | [], none =>
      let n : Int := decimalNumber whole
      some (.int (if negative then -n else n), rest)
    | _, e? =>
      let (e, taken) := e?.getD (0, 0)
      some (.real (.ofDecimal negative (decimalNumber (whole ++ fraction)) (e - fraction.length)),
        rest.drop taken)

/-- The words that stand for a value, with the values. -/
def wordValues : List (String × Node) :=
  [("null", .null), ("true", .bool true), ("false", .bool false), ("NaN", .real .nan),
    ("Infinity", .real (.infinite false)), ("-Infinity", .real (.infinite true))]

/-- The word or number at the start of a text, and what follows. -/
def scalar? (cs : List Char) : Option (Node × List Char) :=
  match wordValues.find? fun w => w.1.toList.isPrefixOf cs with
  | some (word, value) => some (value, cs.drop word.length)
  | none => match cs with
    | '-' :: cs => unsignedNumber? true cs
    | cs => unsignedNumber? false cs

mutual

/-- The value at the start of a text, and what follows. The first argument bounds the number of
steps; twice the length of the text suffices, since of two steps in a row one takes a character. The
second one says how many lists and objects may still be opened inside each other. -/
def value : Nat → Nat → List Char → Except Fault (Node × List Char)
  | 0, _, cs => .error (.malformed .value cs)
  | _ + 1, _, '"' :: cs => do
    let (body, rest) ← textBody ('"' :: cs) 0 cs
    return (.text (String.ofList body), rest)
  | _ + 1, 0, '{' :: _ | _ + 1, 0, '[' :: _ => .error (.beyond .depth)
  | fuel + 1, room + 1, '{' :: cs => do
    let (fields, rest) ← match skipBlanks cs with
      | '}' :: rest => pure ([], rest)
      | rest => members fuel room rest
    return (.object (Fields.ofList fields), rest)
  | fuel + 1, room + 1, '[' :: cs => do
    let (items, rest) ← match skipBlanks cs with
      | ']' :: rest => pure ([], rest)
      | rest => elements fuel room rest
    return (.list items, rest)
  | _ + 1, _, cs => match scalar? cs with
    | some (.int n, rest) =>
      if Limit.isTooLong n then .error (.beyond .digits) else .ok (.int n, rest)
    | some r => .ok r
    | none => .error (.malformed .value cs)

/-- The members of an object from a key on, and what follows the closing brace. -/
def members : Nat → Nat → List Char → Except Fault (List (Key × Node) × List Char)
  | 0, _, cs => .error (.malformed .propertyName cs)
  | fuel + 1, room, cs => match cs with
    | '"' :: body => do
      let (key, rest) ← textBody cs 0 body
      match skipBlanks rest with
      | ':' :: rest => do
        let (v, rest) ← value fuel room (skipBlanks rest)
        let member := (Key.text (String.ofList key), v)
        match skipBlanks rest with
        | '}' :: rest => return ([member], rest)
        | ',' :: rest => do
          let (more, rest) ← members fuel room (skipBlanks rest)
          return (member :: more, rest)
        | rest => .error (.malformed .comma rest)
      | rest => .error (.malformed .colon rest)
    | cs => .error (.malformed .propertyName cs)

/-- The items of a list from a value on, and what follows the closing bracket. -/
def elements : Nat → Nat → List Char → Except Fault (List Node × List Char)
  | 0, _, cs => .error (.malformed .value cs)
  | fuel + 1, room, cs => do
    let (v, rest) ← value fuel room cs
    match skipBlanks rest with
    | ']' :: rest => return ([v], rest)
    | ',' :: rest => do
      let (more, rest) ← elements fuel room (skipBlanks rest)
      return (v :: more, rest)
    | rest => .error (.malformed .comma rest)

end

/-- The node that a text denotes. -/
def parse (text : String) : Except Refusal Node :=
  let whole := text.toList
  let outcome : Except Fault Node :=
    match whole with
    | '\ufeff' :: _ => .error (.malformed .byteOrderMark whole)
    | _ => do
      let (node, rest) ← value (2 * whole.length + 2) Limit.jsonDepth (skipBlanks whole)
      match skipBlanks rest with
      | [] => return node
      | rest => .error (.malformed .extraData rest)
  outcome.mapError (Fault.locate whole)

end ClientGen.Json
