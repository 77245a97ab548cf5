import ClientGen.Proofs.Model.Blocks
import ClientGen.Proofs.Text.Ascii

/-!
# Import lines

The lines that import types, and what is read in the lines of a module text.

* `ModuleText.IsName`: the names that are declared and imported.
* `IsLine.declares_nothing`, `IsLine.imports_nothing`: lines on which nothing is found.
* `ModuleText.ImportLine`: an import line, with its names and its module.
* `ImportLine.typeImport?_text`, `ImportLine.listedNames_listing`: how an import line is read.
* `ImportLine.isImportBlock_block`: import lines make a block of imports.
-/

namespace ClientGen.ModuleText

open Text

variable {l cs rest : List Char}

/-! ## Characters and names -/

/-- The printable characters of ASCII. -/
def isPlain (c : Char) : Bool := 0x20 ≤ c.toNat && c.toNat < 0x7f

/-- A plain character ends no line. -/
theorem not_isLineEnd_of_isPlain {c : Char} (h : isPlain c) : isLineEnd c = false := by
  simp only [isPlain, Bool.and_eq_true, decide_eq_true_eq] at h
  simp only [isLineEnd, Bool.or_eq_false_iff, Bool.and_eq_false_iff, decide_eq_false_iff_not,
    beq_eq_false_iff_ne]
  omega

/-- Letters and digits are plain. -/
theorem isPlain_of_isAsciiAlphanumeric {c : Char} (h : isAsciiAlphanumeric c) : isPlain c := by
  have hall : ∀ n < 128, isAsciiAlphanumeric (Char.ofNat n) → isPlain (Char.ofNat n) := by
    decide +kernel
  exact of_ascii (p := fun c => isAsciiAlphanumeric c → isPlain c) hall
    (toNat_lt_of_isAsciiAlphanumeric h) h

/-- A text of printable ASCII. -/
def Plain (cs : List Char) : Prop := ∀ c ∈ cs, isPlain c

instance (cs : List Char) : Decidable (Plain cs) :=
  List.decidableBAll _ cs

/-- Plain texts are plain together. -/
theorem Plain.append (h : Plain cs) (h' : Plain rest) : Plain (cs ++ rest) :=
  fun c hc => (List.mem_append.mp hc).elim (h c) (h' c)

/-- Plain texts joined by a plain separator are plain. -/
theorem Plain.joined {sep : List Char} {ws : List (List Char)} (hsep : Plain sep)
    (h : ∀ w ∈ ws, Plain w) : Plain (joined sep ws) := by
  intro c hc
  rcases mem_joined hc with hc | ⟨w, hw, hc⟩
  · exact hsep c hc
  · exact h w hw c hc

/-- A plain text has no line feed. -/
theorem Plain.not_mem_lineFeed (h : Plain cs) : '\n' ∉ cs := fun hmem =>
  absurd (h _ hmem) (by decide)

/-- A name as it is declared: a capital I and letters and digits of ASCII. -/
def IsName (name : List Char) : Prop :=
  ∃ cs, name = 'I' :: cs ∧ ∀ c ∈ cs, isAsciiAlphanumeric c

variable {name : List Char}

/-- A name has letters and digits only. -/
theorem IsName.alphanumeric (h : IsName name) {c : Char} (hc : c ∈ name) :
    isAsciiAlphanumeric c := by
  obtain ⟨cs, rfl, hcs⟩ := h
  rcases List.mem_cons.mp hc with rfl | hc
  · rfl
  · exact hcs c hc

/-- A name is plain. -/
theorem IsName.plain (h : IsName name) : Plain name := fun _ hc =>
  isPlain_of_isAsciiAlphanumeric (h.alphanumeric hc)

/-- A character that is no letter or digit of ASCII does not occur in a name. -/
theorem IsName.not_mem (h : IsName name) {c : Char} (hc : isAsciiAlphanumeric c = false) :
    c ∉ name := fun hmem => by
  rw [h.alphanumeric hmem] at hc
  exact absurd hc (by decide)

/-- Names with commas and blanks between them are found again. -/
theorem map_trim_splitOn {names : List (List Char)} (hne : names ≠ [])
    (h : ∀ n ∈ names, IsName n) :
    (splitOn ',' (' ' :: (joined [',', ' '] names ++ [' ']))).map trim = names := by
  rw [map_trim_splitOn_cons (by decide) (by decide)]
  refine map_trim_splitOn_joined (by decide) hne (fun n hn => ⟨(h n hn).not_mem (by decide), ?_⟩) 1
  exact fun c hc => not_isBlank_of_isAsciiAlphanumeric ((h n hn).alphanumeric hc)

/-! ## Lines -/

/-- A declaration starts with an `e`. -/
theorem declaration?_of_head (h : cs.head? ≠ some 'e') : declaration? cs = none := by
  unfold declaration?
  cases cs with
  | nil => rfl
  | cons c cs =>
    have hc : 'e' ≠ c := by
      rintro rfl
      exact h rfl
    simp [skipWord?, hc]

/-- An import starts with an `i`. -/
theorem typeImport?_of_head (h : cs.head? ≠ some 'i') : typeImport? cs = none := by
  unfold typeImport?
  cases cs with
  | nil => rfl
  | cons c cs =>
    have hc : 'i' ≠ c := by
      rintro rfl
      exact h rfl
    simp [skipWord?, hc]

/-- A line that starts with another character than an `e` declares nothing. -/
theorem IsLine.declares_nothing (hl : IsLine l) (h : l.head? ≠ some 'e') :
    Reads declaration? l [] :=
  reads_of_none hl.trimmed.ne_nil hl.oneLine fun rest =>
    declaration?_of_head (by rwa [List.head?_append_of_ne_nil l hl.trimmed.ne_nil])

/-- A line that starts with another character than an `i` imports nothing. -/
theorem IsLine.imports_nothing (hl : IsLine l) (h : l.head? ≠ some 'i') :
    Reads typeImport? l [] :=
  reads_of_none hl.trimmed.ne_nil hl.oneLine fun rest =>
    typeImport?_of_head (by rwa [List.head?_append_of_ne_nil l hl.trimmed.ne_nil])

/-- A line that is not blank, declares nothing and imports nothing. -/
structure Inert (l : List Char) : Prop extends IsLine l where
  /-- It starts like no declaration. -/
  head_ne_e : l.head? ≠ some 'e'
  /-- It starts like no import. -/
  head_ne_i : l.head? ≠ some 'i'

/-! ## Import lines -/

/-- The text of an import line, cut where the names and the source begin and end. -/
theorem importLine_eq (names : List (List Char)) (source : List Char) : importLine names source
    = "import type \x7b".toList ++ ((' ' :: (joined [',', ' '] names ++ [' ']))
      ++ ("\x7d from '".toList ++ (source ++ "';".toList))) := by
  have hjoin : (", ".intercalate (names.map String.ofList)).toList = joined [',', ' '] names := by
    rw [toList_intercalate, List.map_map]
    simp [Function.comp_def]
  have hline : importLine names source
      = ("import type \x7b " ++ ", ".intercalate (names.map String.ofList)
        ++ " \x7d from '" ++ String.ofList source ++ "';").toList := rfl
  rw [hline]
  simp [hjoin]

/-- A line of this form is recognised as an import, up to its end. -/
theorem typeImport?_append {listing source : List Char} (hbrace : '}' ∉ listing)
    (hquote : '\'' ∉ source) (hne : source ≠ []) (hrest : AtLineEnd rest) :
    typeImport? ("import type \x7b".toList ++ (listing ++ ("\x7d from '".toList
      ++ (source ++ "';".toList))) ++ rest) = some ((listing, source), rest) := by
  have hend : skipAll isLineBlank rest = rest := by
    cases rest with
    | nil => rfl
    | cons c rest =>
      obtain rfl : c = '\n' := hrest c rfl
      rfl
  have hdone : (rest.isEmpty || rest.head? = some '\n') = true := by
    cases rest with
    | nil => rfl
    | cons c rest => simp [hrest c rfl]
  have hsource : source.isEmpty = false := by simpa using hne
  have htext : "import type \x7b".toList ++ (listing ++ ("\x7d from '".toList
      ++ (source ++ "';".toList))) ++ rest = "import".toList ++ (' ' :: ("type".toList ++ (' ' ::
      '\x7b' :: (listing ++ '}' :: (' ' :: ("from".toList ++ (' ' :: '\'' ::
        (source ++ '\'' :: (';' :: rest))))))))) := by
    simp
  -- The blanks between the words of the line.
  have hword : ∀ cs, skipSome? isBlank (' ' :: ("type".toList ++ cs))
      = some ("type".toList ++ cs) := fun _ => rfl
  have hopen : ∀ cs, skipAll isBlank (' ' :: '\x7b' :: cs) = '\x7b' :: cs := fun _ => rfl
  have hfrom : ∀ cs, skipAll isBlank (' ' :: ("from".toList ++ cs)) = "from".toList ++ cs :=
    fun _ => rfl
  have hpath : ∀ cs, skipAll isBlank (' ' :: '\'' :: cs) = '\'' :: cs := fun _ => rfl
  have hchar : ∀ (c : Char) cs, skipWord? [c] (c :: cs) = some cs :=
    fun c cs => skipWord?_append [c] cs
  rw [htext, typeImport?]
  simp only [Option.bind_eq_bind, Option.bind_some, skipWord?_append, hword, hopen, hfrom, hpath,
    hchar, takeWhile_ne_append hbrace, dropWhile_ne_append hbrace, takeWhile_ne_append hquote,
    dropWhile_ne_append hquote, Option.getD_some, hend, hdone, hsource]
  rfl

/-- The characters of the modules that types are imported from. -/
def isSourceChar (c : Char) : Bool := isAsciiAlphanumeric c || c == '.' || c == '/'

/-- A line that imports types. -/
structure ImportLine where
  /-- The imported names. -/
  names : List (List Char)
  /-- The module that they come from. -/
  source : List Char
  /-- There is a name. -/
  names_ne_nil : names ≠ []
  /-- The names are names. -/
  isName : ∀ n ∈ names, IsName n
  /-- The module is not empty. -/
  source_ne_nil : source ≠ []
  /-- The module is a path of names. -/
  isSource : ∀ c ∈ source, isSourceChar c

namespace ImportLine

variable (i : ImportLine)

/-- The text between the braces. -/
def listing : List Char := ' ' :: (joined [',', ' '] i.names ++ [' '])

/-- The line. -/
def text : List Char := importLine i.names i.source

/-- The text of an import line, cut where the listing and the source begin and end. -/
theorem text_eq : i.text
    = "import type \x7b".toList ++ (i.listing ++ ("\x7d from '".toList
      ++ (i.source ++ "';".toList))) := importLine_eq i.names i.source

/-- The source of an import line is plain. -/
theorem plain_source : Plain i.source := by
  intro c hc
  have h := i.isSource c hc
  simp only [isSourceChar, Bool.or_eq_true, beq_iff_eq] at h
  rcases h with (h | rfl) | rfl
  · exact isPlain_of_isAsciiAlphanumeric h
  · decide
  · decide

/-- The names of an import line are plain, and so are the separators between them. -/
theorem plain_listing : Plain i.listing := by
  have hspace : Plain [' '] := by decide
  have hsep : Plain [',', ' '] := by decide
  have hnames : Plain (joined [',', ' '] i.names) :=
    Plain.joined hsep fun n hn => (i.isName n hn).plain
  exact hspace.append (hnames.append hspace)

/-- The text of an import line is plain. -/
theorem plain_text : Plain i.text := by
  have hfixed : Plain "import type \x7b".toList ∧ Plain "\x7d from '".toList ∧
      Plain "';".toList := by decide
  rw [text_eq]
  exact hfixed.1.append (i.plain_listing.append
    (hfixed.2.1.append (i.plain_source.append hfixed.2.2)))

/-- A character that belongs neither to names nor to what separates them is not between the
braces. -/
theorem not_mem_listing {c : Char} (hc : isAsciiAlphanumeric c = false) (hspace : c ≠ ' ')
    (hcomma : c ≠ ',') : c ∉ i.listing := by
  have hnames : c ∉ joined [',', ' '] i.names := by
    intro hmem
    rcases mem_joined hmem with hmem | ⟨n, hn, hmem⟩
    · simp [hspace, hcomma] at hmem
    · exact (i.isName n hn).not_mem hc hmem
  simp [listing, hnames, hspace]

/-- The names are found between the braces. -/
theorem listedNames_listing : listedNames i.listing = i.names := by
  rw [listedNames, listing, map_trim_splitOn i.names_ne_nil i.isName]
  refine List.filter_eq_self.mpr fun n hn => ?_
  obtain ⟨cs, rfl, -⟩ := i.isName n hn
  rfl

/-- The line is recognised as an import, up to its end. -/
theorem typeImport?_text (hrest : AtLineEnd rest) :
    typeImport? (i.text ++ rest) = some ((i.listing, i.source), rest) :=
  i.text_eq ▸ typeImport?_append (i.not_mem_listing (by decide) (by decide) (by decide))
    (fun hmem => absurd (i.isSource _ hmem) (by decide)) i.source_ne_nil hrest

/-- An import line is one line. -/
theorem isLine_text : IsLine i.text where
  oneLine := i.plain_text.not_mem_lineFeed
  visible := ⟨'i', by simp [text_eq], by decide⟩

/-- An import line begins with the word for an import. -/
theorem head?_text : i.text.head? = some 'i' := by
  rw [text_eq]
  rfl

/-- The line is an import when it is read with others. -/
theorem reads_text : Reads typeImport? i.text [(i.listing, i.source)] :=
  reads_of_some (t := []) i.isLine_text.trimmed.ne_nil i.isLine_text.oneLine fun _ hrest =>
    i.typeImport?_text hrest

/-- No declaration is read from an import line. -/
theorem declares_nothing_text : Reads declaration? i.text [] :=
  i.isLine_text.declares_nothing (by simp [i.head?_text])

/-- What some import lines import. -/
theorem flatMap_found (is : List ImportLine) :
    (is.map text).flatMap (found typeImport?) = is.map fun i => (i.listing, i.source) := by
  induction is with
  | nil => rfl
  | cons i is ih =>
    rw [List.map_cons, List.flatMap_cons, ih, i.reads_text.finds]
    rfl

/-- The text of some import lines. -/
def block (is : List ImportLine) : List Char := joined ['\n'] (is.map text)

variable {is : List ImportLine}

/-- Two blocks of import lines are one block with a line feed between them. -/
theorem block_append (h : is ≠ []) {more : List ImportLine} (h' : more ≠ []) :
    block (is ++ more) = block is ++ ['\n'] ++ block more := by
  rw [block, List.map_append, joined_append _ (by simpa using h) (by simpa using h'), block, block]

/-- A block of import lines has no blank line inside. -/
theorem solid_block (is : List ImportLine) : Solid (block is) :=
  solid_joined (List.forall_mem_map.mpr fun i _ => i.isLine_text)

/-- A block of import lines has no blanks around it. -/
theorem trimmed_block (h : is ≠ []) : Trimmed (block is) :=
  trimmed_joined (by simpa using h) (List.forall_mem_map.mpr fun i _ => i.isLine_text.trimmed)

/-- Import lines make a block of imports. -/
theorem isImportBlock_block (h : is ≠ []) : isImportBlock (block is) = true := by
  refine isImportBlock_joined (by simpa using h) fun l hl => ?_
  obtain ⟨i, -, rfl⟩ := List.mem_map.mp hl
  have himport := i.typeImport?_text atLineEnd_nil
  rw [List.append_nil] at himport
  refine ⟨fun c hc => not_isLineEnd_of_isPlain (i.plain_text c hc), ?_, by simp [himport]⟩
  obtain ⟨cs, htext⟩ := List.head?_eq_some_iff.mp i.head?_text
  rw [htext]
  exact trim_cons_ne_nil (by decide) cs

/-- The imports that are read from a block are those of its lines, in their order. -/
theorem typeImports_block (is : List ImportLine) :
    typeImports (block is) = is.map fun i => (i.listing, i.source) := by
  rw [typeImports, block, lineMatches_joined, flatMap_found]
  exact List.forall_mem_map.mpr fun i _ => i.reads_text.toReadAlone

/-- No declaration is read from a block of import lines. -/
theorem declaredNames_block (is : List ImportLine) : declaredNames (block is) = [] := by
  rw [declaredNames, block, lineMatches_joined]
  · refine List.flatMap_eq_nil_iff.mpr ?_
    exact List.forall_mem_map.mpr fun i _ => i.declares_nothing_text.finds
  · exact List.forall_mem_map.mpr fun i _ => i.declares_nothing_text.toReadAlone

end ImportLine

end ClientGen.ModuleText
