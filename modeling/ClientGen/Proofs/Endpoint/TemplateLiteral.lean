import ClientGen.Naming.Names
import ClientGen.Number.Hexadecimal
import ClientGen.Proofs.Text.Lines

/-!
# Template literals

The value of a template literal of generated code, for the identifiers that are inserted. Texts of
running code are sequences of units of 16 bits.

* `Units.ofText`: the units of a text.
* `TemplateLiteral.escape?`: what an escape stands for.
* `TemplateLiteral.evaluate`: the value of the body of a template literal.
-/

namespace ClientGen

namespace Units

/-- The units of a character: one, or two halves beyond the first plane. -/
def ofChar (c : Char) : List Nat :=
  if c.toNat < 0x10000 then [c.toNat]
  else [(Surrogate.halves c).1, (Surrogate.halves c).2]

/-- The units of a text. -/
def ofText (cs : List Char) : List Nat := cs.flatMap ofChar

/-- The units of a code point, which may be half of a pair by itself. -/
def ofCode (n : Nat) : List Nat := if n < 0x10000 then [n] else ofChar (Char.ofNat n)

theorem ofText_cons (c : Char) (cs : List Char) : ofText (c :: cs) = ofChar c ++ ofText cs := rfl

/-- A character has at least one unit. -/
theorem ofChar_ne_nil (c : Char) : ofChar c ≠ [] := by
  unfold ofChar
  split <;> exact List.cons_ne_nil _ _

end Units

namespace TemplateLiteral

/-- Words that cannot name an argument in a module. -/
def reservedWords : List String :=
  ["arguments", "await", "break", "case", "catch", "class", "const", "continue", "debugger",
    "default", "delete", "do", "else", "enum", "eval", "export", "extends", "false", "finally",
    "for", "function", "if", "implements", "import", "in", "instanceof", "interface", "let", "new",
    "null", "package", "private", "protected", "public", "return", "static", "super", "switch",
    "this", "throw", "true", "try", "typeof", "var", "void", "while", "with", "yield"]

/-- Can an argument have the name? -/
def isArgument (name : String) : Bool :=
  Naming.isIdentifierText name.toList && !reservedWords.contains name

/-- Escapes of one letter and what they stand for. -/
def letterEscapes : List (Char × Nat) :=
  [('b', 8), ('t', 9), ('n', 10), ('v', 11), ('f', 12), ('r', 13)]

/-- Characters that end a line of code. -/
def lineEnds : List Char := ['\n', '\r', '\u2028', '\u2029']

/-- What an escape by code stands for and the characters it takes from its letter on, if its digits
are as many as they have to be. -/
def codeEscape? (digits : List Char) (count length : Nat) : Option (List Nat × Nat) :=
  if digits.length = count then (Hexadecimal.number? digits).map fun n => ([n], length) else none

/-- What an escape by a code point in braces stands for and the characters it takes from its letter
on, for the text behind the opening brace. -/
def braceEscape? (cs : List Char) : Option (List Nat × Nat) :=
  let digits := Text.before '}' cs
  if digits.isEmpty || digits.length = cs.length then none
  else ((Hexadecimal.number? digits).filter (· ≤ 0x10ffff)).map fun n =>
    (Units.ofCode n, digits.length + 3)

/-- What an escape stands for and how many characters it takes, for the text behind its
backslash. -/
def escape? : List Char → Option (List Nat × Nat)
  | [] => none
  | c :: cs =>
    if c = 'x' then codeEscape? (cs.take 2) 2 3
    else if c = 'u' then
      if cs.head? = some '{' then braceEscape? cs.tail else codeEscape? (cs.take 4) 4 5
    else if c = '\r' && cs.head? = some '\n' then some ([], 2)
    else if c = '0' && !cs.head?.any Text.isAsciiDigit then some ([0], 1)
    else if Text.isAsciiDigit c then none
    else if c ∈ lineEnds then some ([], 1)
    else match letterEscapes.lookup c with
      | some n => some ([n], 1)
      | none => some (Units.ofChar c, 1)

/-- The value of the rest of a body, if it is one. The first argument counts the characters that
still belong to what was read last. Of expressions, names are read that have a value. -/
def evaluateFrom (value? : String → Option (List Nat)) : Nat → List Char → Option (List Nat)
  | _, [] => some []
  | skip + 1, _ :: cs => evaluateFrom value? skip cs
  | 0, c :: cs =>
    if c = '`' then none
    else if c = '\\' then
      (escape? cs).bind fun (units, length) => (evaluateFrom value? length cs).map (units ++ ·)
    else if c = '$' && cs.head? = some '{' then
      let name := Text.before '}' cs.tail
      let inserted := if name.length + 1 < cs.length then value? (String.ofList name) else none
      inserted.bind fun units => (evaluateFrom value? (name.length + 2) cs).map (units ++ ·)
    else
      -- Line ends of one kind are read, whichever the code has.
      let units := if c = '\r' then (if cs.head? = some '\n' then [] else [10]) else Units.ofChar c
      (evaluateFrom value? 0 cs).map (units ++ ·)

/-- The value of the body of a template literal, if it is one. -/
def evaluate (value? : String → Option (List Nat)) (body : List Char) : Option (List Nat) :=
  evaluateFrom value? 0 body

/-- The value of an expression that is inserted, for the values of some arguments. Only the name of
an argument has one. -/
def argumentValue? (args : List String) (values : String → String) (name : String) :
    Option (List Nat) :=
  if isArgument name && args.contains name then some (Units.ofText (values name).toList)
  else none

/-- A name has a value exactly if it can be an argument and is one, and then the value is that of
the argument. -/
theorem argumentValue?_eq_some_iff {args : List String} {values : String → String} {name : String}
    {units : List Nat} : argumentValue? args values name = some units
      ↔ (isArgument name && args.contains name) = true
        ∧ Units.ofText (values name).toList = units := by
  rw [argumentValue?]
  split <;> simp_all

section Evaluation

variable {value? : String → Option (List Nat)} {c : Char} {rest : List Char}

/-- Evaluating may start anywhere behind a number of characters. -/
theorem evaluateFrom_eq_drop (skip : Nat) (cs : List Char) :
    evaluateFrom value? skip cs = evaluate value? (cs.drop skip) := by
  induction cs generalizing skip with
  | nil => cases skip <;> rfl
  | cons c cs ih =>
    cases skip with
    | zero => rfl
    | succ skip => exact ih skip

/-- A character that means nothing stands for itself. -/
theorem evaluate_cons (hmark : c ∉ ['`', '\\', '\r']) (hinsert : c = '$' → rest.head? ≠ some '{') :
    evaluate value? (c :: rest) = (evaluate value? rest).map (Units.ofChar c ++ ·) := by
  simp only [List.mem_cons, List.not_mem_nil, or_false, not_or] at hmark
  have hopen : ¬ (decide (c = '$') && decide (rest.head? = some '{')) = true := by
    simpa using hinsert
  rw [evaluate, evaluateFrom, if_neg hmark.1, if_neg hmark.2.1, if_neg hopen]
  simp only [if_neg hmark.2.2]
  rfl

/-- An escaped backtick comes to a backtick. -/
theorem evaluate_backtick :
    evaluate value? ('\\' :: '`' :: rest) = (evaluate value? rest).map (Units.ofChar '`' ++ ·) := by
  have hescape : escape? ('`' :: rest) = some (Units.ofChar '`', 1) := rfl
  rw [evaluate, evaluateFrom, if_neg (by decide), if_pos rfl, hescape]
  rfl

/-- A carriage return is read as a line feed. -/
theorem evaluate_return :
    evaluate value? ('\r' :: rest)
      = (evaluate value? rest).map ((if rest.head? = some '\n' then [] else [10]) ++ ·) := by
  rw [evaluate, evaluateFrom, if_neg (by decide), if_neg (by decide), if_neg (by simp)]
  rfl

/-- Whatever comes behind it, a character that stands for itself comes first in the value. -/
theorem exists_of_evaluate_cons {out : List Nat} (hmark : c ∉ ['`', '\\', '\r'])
    (hinsert : c = '$' → rest.head? ≠ some '{') (h : evaluate value? (c :: rest) = some out) :
    ∃ more, evaluate value? rest = some more ∧ out = Units.ofChar c ++ more := by
  rw [evaluate_cons hmark hinsert, Option.map_eq_some_iff] at h
  obtain ⟨more, hmore, rfl⟩ := h
  exact ⟨more, hmore, rfl⟩

/-- An insertion has the value of its name. -/
theorem evaluate_insertion {name : List Char} (h : '}' ∉ name) :
    evaluate value? ('$' :: '{' :: (name ++ '}' :: rest))
      = (value? (String.ofList name)).bind fun units =>
        (evaluate value? rest).map (units ++ ·) := by
  have hbefore : Text.before '}' (name ++ '}' :: rest) = name := Text.takeWhile_ne_append h rest
  have hclosed : name.length + 1 < ('{' :: (name ++ '}' :: rest)).length := by simp
  have hdrop : ('{' :: (name ++ '}' :: rest)).drop (name.length + 2) = rest := by simp
  rw [evaluate, evaluateFrom, if_neg (by decide), if_neg (by decide), if_pos (by simp),
    List.tail_cons, hbefore]
  simp only [if_pos hclosed, evaluateFrom_eq_drop, hdrop]

/-- Whatever is inserted, its value comes first. -/
theorem exists_of_evaluate_insertion {out : List Nat}
    (h : evaluate value? ('$' :: '{' :: rest) = some out) :
    ∃ units more, value? (String.ofList (Text.before '}' rest)) = some units ∧
      out = units ++ more := by
  rw [evaluate, evaluateFrom, if_neg (by decide), if_neg (by decide), if_pos (by simp)] at h
  dsimp only at h
  split at h
  · obtain ⟨units, hunits, hmore⟩ := Option.bind_eq_some_iff.mp h
    obtain ⟨more, -, rfl⟩ := Option.map_eq_some_iff.mp hmore
    exact ⟨units, more, hunits, rfl⟩
  · cases h

end Evaluation

end TemplateLiteral

end ClientGen
