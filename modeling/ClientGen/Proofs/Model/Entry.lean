import ClientGen.Proofs.Model.ImportLine

/-!
# Declarations in a module text

A declaration fills a block of lines. One of them has the declared name; nothing is declared or
imported on the others.

* `ModuleText.Entry`: a declaration, as the lines around its name.
* `Entry.declaredNames_block`: its block declares its name and nothing else.
* `Entry.not_isImportBlock`: its block is no block of imports.
-/

namespace ClientGen.ModuleText

open Text

/-- A declaration: the line with the declared name, and the lines around it. -/
structure Entry where
  /-- The declared name. -/
  name : List Char
  /-- The comment above. -/
  comment : List (List Char)
  /-- The word in front of the name. -/
  keyword : String
  /-- What comes behind the name on its line. -/
  tail : List Char
  /-- The lines below. -/
  below : List (List Char)
  /-- The name is a name. -/
  isName : IsName name
  /-- Comments start with a slash. -/
  isComment : ∀ l ∈ comment, IsLine l ∧ l.head? = some '/'
  /-- Interfaces and aliases are declared. -/
  isKeyword : keyword = "interface" ∨ keyword = "type"
  /-- A blank ends the name. -/
  spaced : tail.head? = some ' '
  /-- The name stands on one line. -/
  oneLine : '\n' ∉ tail
  /-- The lines below declare and import nothing. -/
  isInert : ∀ l ∈ below, Inert l

namespace Entry

variable (e : Entry)

/-- The line with the name. -/
def heading : List Char :=
  "export".toList ++ (' ' :: (e.keyword.toList ++ (' ' :: (e.name ++ e.tail))))

/-- The lines of the declaration. -/
def lines : List (List Char) := e.comment ++ e.heading :: e.below

/-- The text of the declaration. -/
def block : List Char := joined ['\n'] e.lines

theorem heading_eq : e.heading
    = "export".toList ++ (' ' :: (e.keyword.toList ++ (' ' :: (e.name ++ e.tail)))) := rfl

/-- The line with the name begins with the word for an export. -/
theorem head?_heading : e.heading.head? = some 'e' := by
  simp [heading_eq]

/-- The line with the name is one line. -/
theorem isLine_heading : IsLine e.heading where
  oneLine := by
    have hname : '\n' ∉ e.name := e.isName.not_mem (by decide)
    have hkeyword : '\n' ∉ e.keyword.toList := by
      rcases e.isKeyword with h | h <;> rw [h] <;> decide
    have hexport : '\n' ∉ "export".toList := by decide
    rw [heading_eq]
    simp only [List.mem_append, List.mem_cons, hname, hkeyword, hexport, e.oneLine, or_false,
      false_or]
    decide
  visible := ⟨'e', List.mem_of_head? e.head?_heading, by decide⟩

/-- Every text among the lines of a declaration is one line. -/
theorem isLine_of_mem {l : List Char} (hl : l ∈ e.lines) : IsLine l := by
  rcases List.mem_append.mp hl with hl | hl
  · exact (e.isComment l hl).1
  · rcases List.mem_cons.mp hl with rfl | hl
    · exact e.isLine_heading
    · exact (e.isInert l hl).toIsLine

/-- A declaration has lines. -/
theorem lines_ne_nil : e.lines ≠ [] := by simp [lines]

/-- The name is recognised, whatever stands behind its line. -/
theorem declaration?_heading (rest : List Char) :
    declaration? (e.heading ++ rest) = some (e.name, e.tail ++ rest) := by
  obtain ⟨cs, hname, halpha⟩ := e.isName
  obtain ⟨tail, htail⟩ : ∃ tail, e.tail = ' ' :: tail := by
    cases ht : e.tail with
    | nil => simpa [ht] using e.spaced
    | cons c tail => exact ⟨tail, by simpa [ht] using e.spaced⟩
  -- The name ends at the blank behind it.
  have hpart : ∀ c ∈ cs, isNamePart c = true := fun c hc => by
    simp [isNamePart, isWordChar_of_alphanumeric (Bool.or_eq_true_iff.mpr (.inl (halpha c hc)))]
  have hstop : isNamePart ' ' = false := by decide
  have htake : (cs ++ ' ' :: (tail ++ rest)).takeWhile isNamePart = cs := by
    rw [List.takeWhile_append_of_pos hpart, List.takeWhile_cons, hstop]
    exact List.append_nil cs
  have hdrop : (cs ++ ' ' :: (tail ++ rest)).dropWhile isNamePart = ' ' :: (tail ++ rest) := by
    rw [List.dropWhile_append_of_pos hpart, List.dropWhile_cons, hstop]
    rfl
  have hnameAfter : ∀ word : String,
      nameAfter? word (word.toList ++ (' ' :: 'I' :: (cs ++ ' ' :: (tail ++ rest))))
        = some ('I' :: cs, ' ' :: (tail ++ rest)) := by
    intro word
    have hblank : ∀ cs, skipSome? isBlank (' ' :: 'I' :: cs) = some ('I' :: cs) := fun _ => rfl
    have hstart : Naming.isIdentifierStart 'I' = true := by decide
    rw [nameAfter?]
    simp only [Option.bind_eq_bind, Option.bind_some, skipWord?_append, hblank, hstart, htake,
      hdrop]
    rfl
  have htext : e.heading ++ rest = "export".toList ++ (' ' :: (e.keyword.toList ++
      (' ' :: 'I' :: (cs ++ ' ' :: (tail ++ rest))))) := by
    simp [heading_eq, hname, htail]
  rw [htext, hname, htail, declaration?]
  simp only [Option.bind_eq_bind, Option.bind_some, skipWord?_append]
  -- A recogniser for interfaces is tried first, and fails on the other keyword.
  rcases e.isKeyword with h | h
  · have hblank : ∀ cs, skipSome? isBlank (' ' :: ("interface".toList ++ cs))
        = some ("interface".toList ++ cs) := fun _ => rfl
    simp only [h, hblank, Option.bind_some, hnameAfter]
    rfl
  · have hblank : ∀ cs, skipSome? isBlank (' ' :: ("type".toList ++ cs))
        = some ("type".toList ++ cs) := fun _ => rfl
    have hother : ∀ cs, nameAfter? "interface" ("type".toList ++ cs) = none := fun _ => rfl
    simp only [h, hblank, Option.bind_some, hother, hnameAfter]
    rfl

/-- From the line with the name, just that name is read. -/
theorem reads_heading : Reads declaration? e.heading [e.name] :=
  reads_of_some e.isLine_heading.trimmed.ne_nil e.isLine_heading.oneLine fun rest _ =>
    e.declaration?_heading rest

/-- Of the lines of a declaration one declares, and it declares the name. -/
theorem readAlone_declaration? : (∀ l ∈ e.lines, ReadAlone declaration? l) ∧
    e.lines.flatMap (found declaration?) = [e.name] := by
  -- Neither the comment nor the body declares anything, so the heading is the only find.
  have hcomment : ∀ l ∈ e.comment, Reads declaration? l [] := by
    intro l hl
    obtain ⟨hline, hhead⟩ := e.isComment l hl
    exact hline.declares_nothing (by simp [hhead])
  have hbelow : ∀ l ∈ e.below, Reads declaration? l [] := fun l hl =>
    (e.isInert l hl).declares_nothing (e.isInert l hl).head_ne_e
  refine ⟨fun l hl => ?_, ?_⟩
  · rcases List.mem_append.mp hl with hl | hl
    · exact (hcomment l hl).toReadAlone
    · rcases List.mem_cons.mp hl with rfl | hl
      · exact e.reads_heading.toReadAlone
      · exact (hbelow l hl).toReadAlone
  · have habove : e.comment.flatMap (found declaration?) = [] :=
      List.flatMap_eq_nil_iff.mpr fun l hl => (hcomment l hl).finds
    have hrest : e.below.flatMap (found declaration?) = [] :=
      List.flatMap_eq_nil_iff.mpr fun l hl => (hbelow l hl).finds
    rw [lines, List.flatMap_append, List.flatMap_cons, habove, hrest, e.reads_heading.finds]
    rfl

/-- No line of a declaration imports. -/
theorem imports_nothing_of_mem {l : List Char} (hl : l ∈ e.lines) : Reads typeImport? l [] := by
  refine (e.isLine_of_mem hl).imports_nothing ?_
  rcases List.mem_append.mp hl with hl | hl
  · simp [(e.isComment l hl).2]
  · rcases List.mem_cons.mp hl with rfl | hl
    · simp [e.head?_heading]
    · exact (e.isInert l hl).head_ne_i

/-- From the text of a declaration, just its name is read. -/
theorem declaredNames_block : declaredNames e.block = [e.name] := by
  rw [declaredNames, block, lineMatches_joined e.readAlone_declaration?.1,
    e.readAlone_declaration?.2]

/-- A declaration starts with its comment or with the word that exports it. -/
theorem exists_block_cons : ∃ c cs, e.block = c :: cs ∧ (c = '/' ∨ c = 'e') := by
  -- The first line is a comment or the one with the name.
  obtain ⟨l, ls, hlines, hl⟩ : ∃ l ls, e.lines = l :: ls ∧
      (l.head? = some '/' ∨ l.head? = some 'e') := by
    cases hcomment : e.comment with
    | nil => exact ⟨e.heading, e.below, by simp [lines, hcomment], .inr e.head?_heading⟩
    | cons l comment =>
      have hl := (e.isComment l (by simp [hcomment])).2
      exact ⟨l, comment ++ e.heading :: e.below, by simp [lines, hcomment], .inl hl⟩
  cases l with
  | nil => simp at hl
  | cons c cs =>
    have hc : c = '/' ∨ c = 'e' := by simpa using hl
    rcases ls with _ | ⟨l', ls⟩
    · exact ⟨c, cs, by simp [block, hlines], hc⟩
    · exact ⟨c, cs ++ '\n' :: joined ['\n'] (l' :: ls), by simp [block, hlines], hc⟩

/-- The text of a declaration is no block of imports. -/
theorem not_isImportBlock : isImportBlock e.block = false := by
  obtain ⟨c, cs, hblock, hc⟩ := e.exists_block_cons
  rw [hblock]
  rcases hc with rfl | rfl <;> exact not_isImportBlock_cons (by decide) (by decide) cs

/-- A text that starts with a declaration does not start with a block of imports. -/
theorem not_isImportBlock_firstBlock (rest : List Char) :
    isImportBlock (firstBlock (e.block ++ rest)).1 = false := by
  obtain ⟨c, cs, hblock, hc⟩ := e.exists_block_cons
  have hfeed : c ≠ '\n' := by rcases hc with rfl | rfl <;> decide
  obtain ⟨first, hfirst⟩ := exists_firstBlock_cons hfeed (cs ++ rest)
  rw [hblock, List.cons_append, hfirst]
  rcases hc with rfl | rfl <;> exact not_isImportBlock_cons (by decide) (by decide) first

end Entry

end ClientGen.ModuleText
