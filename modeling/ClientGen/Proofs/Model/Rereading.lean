import ClientGen.Proofs.Model.MergedTexts
import ClientGen.Proofs.Text.Newlines

/-!
# Model texts read back

The text of a module may hold carriage returns, in the names and values of a document. Read back, it
has line feeds in their place, and so perhaps more lines that look like declarations. It still
declares and imports what the module declares and imports, so that nothing is added when the text is
merged into it.

* `ModuleText.isStop`: a character at which no declaration goes on.
* `ModuleText.Sealed`: a text behind which declarations are found, also after it was read back.
* `Declaration.exists_sealed`: the text of a declaration, up to its name and as a whole.
* `Generation.Rendered.merge_reread`: merging the text of a module into what is read back of it.
-/

namespace ClientGen

open Text

namespace ModuleText

variable {a b p cs t w : List Char} {c : Char}

/-! ## What a declaration takes up -/

/-- A character that can stand in the text by which a declaration is recognised. -/
def isDeclarationChar (c : Char) : Bool := isBlank c || isNamePart c

/-- A character at which no declaration goes on. -/
def isStop (c : Char) : Bool := !isDeclarationChar c

/-- The second text is what is left of the first one behind characters of declarations. -/
def Consumed (cs t : List Char) : Prop := ∃ u, cs = u ++ t ∧ ∀ c ∈ u, isDeclarationChar c

/-- What is left after reading twice is left of the first text. -/
theorem Consumed.trans (h : Consumed cs t) {t' : List Char} (h' : Consumed t t') :
    Consumed cs t' := by
  obtain ⟨u, rfl, hu⟩ := h
  obtain ⟨u', rfl, hu'⟩ := h'
  exact ⟨u ++ u', (List.append_assoc _ _ _).symm, List.forall_mem_append.mpr ⟨hu, hu'⟩⟩

/-- Skipping a word of declarations leaves the rest behind characters of declarations. -/
theorem consumed_of_skipWord? (hw : ∀ c ∈ w, isDeclarationChar c) (h : skipWord? w cs = some t) :
    Consumed cs t := ⟨w, eq_append_of_skipWord? h, hw⟩

/-- Dropping characters of declarations leaves the rest behind them. -/
theorem consumed_dropWhile {q : Char → Bool} (hq : ∀ c, q c → isDeclarationChar c)
    (cs : List Char) : Consumed cs (cs.dropWhile q) :=
  ⟨cs.takeWhile q, List.takeWhile_append_dropWhile.symm, fun c hc =>
    hq c (List.mem_takeWhile_imp hc)⟩

/-- Skipping blanks leaves the rest behind characters of declarations. -/
theorem consumed_of_skipSome? (h : skipSome? isBlank cs = some t) : Consumed cs t := by
  obtain ⟨u, hu, hall⟩ := exists_of_skipSome? h
  exact ⟨u, hu, fun c hc => by simp [isDeclarationChar, hall c hc]⟩

/-- The characters of the words in front of a declared name. -/
theorem isDeclarationChar_keyword :
    (∀ c ∈ "export".toList, isDeclarationChar c) ∧
      (∀ c ∈ "interface".toList, isDeclarationChar c) ∧
      ∀ c ∈ "type".toList, isDeclarationChar c :=
  ⟨List.all_eq_true.mp (by decide), List.all_eq_true.mp (by decide),
    List.all_eq_true.mp (by decide)⟩

/-- The characters of names are characters of declarations. -/
theorem isDeclarationChar_of_isNamePart (h : isNamePart c) : isDeclarationChar c := by
  simp [isDeclarationChar, h]

/-- The first character of a name can stand in a name. -/
theorem isNamePart_of_isIdentifierStart (h : Naming.isIdentifierStart c) : isNamePart c := by
  simp only [Naming.isIdentifierStart, Bool.or_eq_true] at h
  rcases h with ((h | h) | h) | h
  · simp [isNamePart, isWordChar_of_alphanumeric, isAsciiAlphanumeric, h]
  · simp [isNamePart, isWordChar_of_alphanumeric, isAsciiAlphanumeric, h]
  · simp only [isNamePart, Bool.or_eq_true]
    exact .inl (isWordChar_of_alphanumeric (by simp [h]))
  · simp only [isNamePart, Bool.or_eq_true]
    exact .inr h

/-- Reading a name behind a keyword leaves the rest behind characters of declarations. -/
theorem consumed_of_nameAfter? {keyword : String} {n : List Char}
    (hkeyword : ∀ c ∈ keyword.toList, isDeclarationChar c)
    (h : nameAfter? keyword cs = some (n, t)) : Consumed cs t := by
  simp only [nameAfter?, Option.bind_eq_bind, Option.bind_eq_some_iff] at h
  obtain ⟨cs₁, hword, cs₂, hblank, hname⟩ := h
  refine (consumed_of_skipWord? hkeyword hword).trans ((consumed_of_skipSome? hblank).trans ?_)
  rcases cs₂ with _ | ⟨c, cs₂⟩
  · cases hname
  · simp only at hname
    split at hname
    · rename_i hc
      obtain ⟨-, rfl⟩ := Prod.mk.inj (Option.some.inj hname)
      have hfirst := isDeclarationChar_of_isNamePart (isNamePart_of_isIdentifierStart hc)
      obtain ⟨u, hu, hall⟩ := consumed_dropWhile (fun c => isDeclarationChar_of_isNamePart) cs₂
      exact ⟨c :: u, by rw [List.cons_append, ← hu], List.forall_mem_cons.mpr ⟨hfirst, hall⟩⟩
    · cases hname

/-- A declaration is recognised by characters of declarations. -/
theorem consumed_of_declaration? {n : List Char} (h : declaration? cs = some (n, t)) :
    Consumed cs t := by
  obtain ⟨hexport, hinterface, htype⟩ := isDeclarationChar_keyword
  simp only [declaration?, Option.bind_eq_bind, Option.bind_eq_some_iff] at h
  obtain ⟨cs₁, hword, cs₂, hblank, hname⟩ := h
  refine (consumed_of_skipWord? hexport hword).trans ((consumed_of_skipSome? hblank).trans ?_)
  cases hcase : nameAfter? "interface" cs₂ with
  | some found =>
    rw [hcase] at hname
    exact consumed_of_nameAfter? hinterface (hcase.trans hname)
  | none =>
    rw [hcase] at hname
    exact consumed_of_nameAfter? htype hname

/-! ## Texts behind which declarations are found -/

/-- No declaration goes on from a text over a character that stops it. -/
theorem le_length_of_declaration? {n rest : List Char} (hc : isStop c)
    (h : declaration? (a ++ c :: rest) = some (n, t)) : (c :: rest).length ≤ t.length := by
  obtain ⟨u, hu, hall⟩ := consumed_of_declaration? h
  by_contra hlt
  rw [not_le] at hlt
  -- Otherwise the character is one of those that were consumed.
  obtain ⟨v, hv⟩ : ∃ v, u = a ++ c :: v := by
    rcases List.append_eq_append_iff.mp hu with ⟨v, hv, hrest⟩ | ⟨v, hv, hrest⟩
    · rcases v with _ | ⟨d, v⟩
      · rw [List.nil_append] at hrest
        rw [hrest] at hlt
        exact absurd hlt (lt_irrefl _)
      · obtain ⟨rfl, -⟩ := List.cons.inj hrest
        exact ⟨v, hv⟩
    · rw [hrest, List.length_append] at hlt
      exact absurd hlt (by omega)
  have hconsumed := hall c (by simp [hv])
  rw [isStop, hconsumed] at hc
  exact absurd hc (by decide)

/-- Behind a character that stops declarations and a line feed, declarations are found, whatever
was found before. -/
theorem lineMatches_subset_behind_stop (hc : isStop c) (rest : List Char) {k : Nat}
    (hk : k ≤ a.length) (atStart : Bool) :
    declaredNames rest ⊆ lineMatchesFrom declaration? k atStart (a ++ c :: '\n' :: rest) := by
  have hfeed : c ≠ '\n' := by
    rintro rfl
    exact absurd hc (by decide)
  induction a generalizing k atStart with
  | nil =>
    obtain rfl : k = 0 := Nat.le_zero.mp hk
    have hhead : declaration? (c :: '\n' :: rest) = none := by
      refine declaration?_of_head ?_
      rw [List.head?_cons, ne_eq, Option.some.injEq]
      rintro rfl
      exact absurd hc (by decide)
    have hend : decide (c = '\n') = false := decide_eq_false hfeed
    cases atStart with
    | false =>
      rw [List.nil_append, lineMatchesFrom, hend]
      exact List.Subset.refl _
    | true =>
      rw [List.nil_append, lineMatchesFrom, hhead, hend]
      exact List.Subset.refl _
  | cons d a ih =>
    rw [List.cons_append]
    cases k with
    | succ k => exact ih (Nat.le_of_succ_le_succ hk) _
    | zero =>
      cases atStart with
      | false => exact ih (Nat.zero_le _) _
      | true =>
        rw [lineMatchesFrom]
        cases hfound : declaration? (d :: (a ++ c :: '\n' :: rest)) with
        | none => exact ih (Nat.zero_le _) _
        | some found =>
          -- The match ends in front of the character, so that scanning goes on there.
          have hlength := le_length_of_declaration? (a := d :: a) hc hfound
          refine List.subset_cons_of_subset _ (ih ?_ _)
          rw [List.length_append]
          omega

/-- A text that is read back apart from what stands behind it, and behind which declarations are
found. -/
structure Sealed (p : List Char) : Prop where
  /-- It is read back apart from what stands behind it. -/
  apart : ∀ rest, unifyNewlines (p ++ rest) = unifyNewlines p ++ unifyNewlines rest
  /-- What is declared behind it is found. -/
  shows : ∀ rest, declaredNames rest ⊆ declaredNames (unifyNewlines p ++ rest)

/-- The empty text is sealed. -/
theorem sealed_nil : Sealed [] where
  apart _ := by rw [List.nil_append, unifyNewlines_nil, List.nil_append]
  shows _ := by
    rw [unifyNewlines_nil, List.nil_append]
    exact List.Subset.refl _

/-- A line feed is sealed. -/
theorem sealed_lineFeed : Sealed ['\n'] where
  apart rest := unifyNewlines_append (.inl (by decide))
  shows rest := by
    have hread : unifyNewlines ['\n'] = ['\n'] := unifyNewlines_of_not_mem (by decide)
    have hskip : declaredNames (['\n'] ++ rest) = declaredNames rest :=
      lineMatches_lineFeed (fun _ => declaration?_of_head (by simp)) rest
    rw [hread, hskip]
    exact List.Subset.refl _

/-- A line whose last character stops declarations. -/
theorem sealed_stop (hc : isStop c) (a : List Char) : Sealed (a ++ [c, '\n']) where
  apart rest := unifyNewlines_append (.inl (by simp))
  shows rest := by
    have hfeed : c ≠ '\n' := by
      rintro rfl
      exact absurd hc (by decide)
    have hreturn : '\r' ∉ [c, '\n'] := by
      simp only [List.mem_cons, List.not_mem_nil, or_false, not_or]
      refine ⟨?_, by decide⟩
      rintro rfl
      exact absurd hc (by decide)
    rw [unifyNewlines_append (.inr (by simpa using hfeed)), unifyNewlines_of_not_mem hreturn,
      List.append_assoc]
    exact lineMatches_subset_behind_stop hc rest (Nat.zero_le _) true

/-- Sealed texts are sealed together. -/
theorem Sealed.append (ha : Sealed a) (hb : Sealed b) : Sealed (a ++ b) where
  apart rest := by
    rw [List.append_assoc, ha.apart, hb.apart, ha.apart, List.append_assoc]
  shows rest := by
    rw [ha.apart, List.append_assoc]
    exact List.Subset.trans (hb.shows rest) (ha.shows _)

/-- A declared name is found in what is read back, behind a text that is sealed. -/
theorem Sealed.mem_declaredNames (hp : Sealed p) {keyword : String}
    (hkeyword : keyword = "interface" ∨ keyword = "type") {n : List Char} (hn : IsName n)
    (rest : List Char) :
    n ∈ declaredNames (unifyNewlines (p ++ ("export".toList ++ (' ' :: (keyword.toList ++
      (' ' :: (n ++ ' ' :: rest))))))) := by
  -- Up to the blank behind the name, the text is the heading of an entry.
  let e : Entry := {
    name := n, comment := [], keyword, tail := [' '], below := [], isName := hn
    isComment := by simp, isKeyword := hkeyword, spaced := rfl, oneLine := by decide
    isInert := by simp }
  have htext : "export".toList ++ (' ' :: (keyword.toList ++ (' ' :: (n ++ ' ' :: rest))))
      = e.heading ++ rest := by
    simp [Entry.heading_eq, e]
  -- No carriage return stands in a heading, so unifying the line ends leaves it alone.
  have hreturn : '\r' ∉ e.heading := by
    have hname : '\r' ∉ n := hn.not_mem (by decide)
    have hexport : '\r' ∉ "export".toList := by decide
    have hword : '\r' ∉ keyword.toList := by rcases hkeyword with rfl | rfl <;> decide
    simp [Entry.heading_eq, e, hname, hword]
  obtain ⟨cs, hcs⟩ := List.head?_eq_some_iff.mp e.head?_heading
  have hfound := e.declaration?_heading (unifyNewlines rest)
  rw [htext, hp.apart, unifyNewlines_append (.inl ?_), unifyNewlines_of_not_mem hreturn]
  · refine hp.shows _ ?_
    rw [hcs, List.cons_append] at hfound ⊢
    rw [declaredNames, lineMatches, lineMatchesFrom, hfound]
    exact List.mem_cons_self
  · exact fun hlast => hreturn (List.mem_of_getLast? hlast)

/-! ## Imports -/

/-- Import lines in front of a text are found, also after it was read back. -/
theorem ImportLine.subset_importedNames {is : List ImportLine} (hne : is ≠ []) (rest : List Char) :
    is.flatMap ImportLine.names
      ⊆ importedNames (unifyNewlines (ImportLine.block is ++ '\n' :: rest)) := by
  -- No carriage return stands in the import lines, which are read as they were written.
  have hreturn : '\r' ∉ ImportLine.block is ++ ['\n'] := by
    intro hmem
    rcases List.mem_append.mp hmem with hmem | hmem
    · rcases mem_joined hmem with hmem | ⟨l, hl, hmem⟩
      · exact absurd hmem (by decide)
      · obtain ⟨i, -, rfl⟩ := List.mem_map.mp hl
        exact absurd (i.plain_text _ hmem) (by decide)
    · exact absurd hmem (by decide)
  have hread : unifyNewlines (ImportLine.block is ++ '\n' :: rest)
      = ImportLine.block is ++ '\n' :: unifyNewlines rest := by
    rw [List.append_cons, unifyNewlines_append (.inl (by simp)),
      unifyNewlines_of_not_mem hreturn, ← List.append_cons]
  have hlines : ∀ l ∈ is.map ImportLine.text, ReadAlone typeImport? l :=
    List.forall_mem_map.mpr fun i _ => i.reads_text.toReadAlone
  rw [hread, importedNames, typeImports, ImportLine.block,
    lineMatches_joined_append (by simpa using hne) hlines, ImportLine.flatMap_found,
    List.flatMap_append, List.flatMap_map]
  simp only [ImportLine.listedNames_listing]
  exact List.subset_append_left _ _

/-- The text of import lines is sealed. -/
theorem ImportLine.sealed_block {is : List ImportLine} (hne : is ≠ []) :
    Sealed (ImportLine.block is ++ ['\n', '\n']) := by
  have htext : ∀ i : ImportLine, ∃ a, i.text = a ++ [';'] := fun i =>
    ⟨"import type \x7b".toList ++ (i.listing ++ ("\x7d from '".toList ++ (i.source ++ ['\'']))),
      by simp [ImportLine.text_eq]⟩
  -- The last line ends in a semicolon.
  obtain ⟨a, ha⟩ : ∃ a, ImportLine.block is = a ++ [';'] := by
    rcases List.eq_nil_or_concat is with rfl | ⟨front, last, rfl⟩
    · exact absurd rfl hne
    · obtain ⟨a, ha⟩ := htext last
      rw [List.concat_eq_append]
      rcases front with _ | ⟨first, front⟩
      · exact ⟨a, ha⟩
      · have hlast : ImportLine.block [last] = a ++ [';'] := ha
        rw [ImportLine.block_append (List.cons_ne_nil _ _) (List.cons_ne_nil _ _), hlast]
        exact ⟨_, (List.append_assoc _ a [';']).symm⟩
  have hsplit : a ++ [';'] ++ ['\n', '\n'] = (a ++ [';', '\n']) ++ ['\n'] := by simp
  rw [ha, hsplit]
  exact (sealed_stop (by decide) a).append sealed_lineFeed

/-- The text of a sheet that covers what another text knows adds nothing to it. -/
theorem Sheet.merge_text_of_subset {r : Sheet} (hr : r.Distinct) {old : List Char}
    (hdeclared : r.declared ⊆ declaredNames old)
    (himported : r.imported ⊆ importedNames old ++ declaredNames old) :
    ModuleText.merge old r.text = old := by
  rw [ModuleText.merge, r.additions_text hr, newEntries_of_subset hdeclared,
    ImportLine.without_of_subset himported]
  rfl

end ModuleText

open ModuleText

/-! ## Declarations -/

/-- The comment above a declaration is sealed. -/
theorem DocComment.sealed_text (d : DocComment) : Sealed (d.text "").toList := by
  rcases d.text_cases "" with h | ⟨body, -, h⟩
  · rw [h]
    exact sealed_nil
  · have hend : (d.text "").toList
        = ("/** ".toList ++ (body.toList ++ " *".toList)) ++ ['/', '\n'] := by
      simp [h]
    rw [hend]
    exact sealed_stop (by decide) _

namespace Declaration

variable (d : Declaration)

/-- The text of a declaration ends in a brace or a semicolon, and so it is sealed. -/
theorem sealed_content : Sealed d.content.toList := by
  obtain ⟨a, c, hc, hend⟩ : ∃ a c, isStop c ∧ d.content.toList = a ++ [c, '\n'] := by
    unfold content
    cases d.body with
    | properties ps =>
      exact ⟨(d.comment.text "" ++ ("export interface " ++ d.name ++ " \x7b\n"
        ++ String.join (ps.map Property.text))).toList, '\x7d', by decide, by simp⟩
    | anything =>
      exact ⟨(d.comment.text "" ++ ("export interface " ++ d.name
        ++ " \x7b\n  [key: string]: any;\n")).toList, '\x7d', by decide, by simp⟩
    | «alias» type =>
      exact ⟨(d.comment.text "" ++ ("export type " ++ d.name ++ " = " ++ type.text)).toList, ';',
        by decide, by simp⟩
  exact hend ▸ sealed_stop hc a

/-- In the text of a declaration, what stands in front of the words that declare its name is
sealed. -/
theorem exists_sealed : ∃ above keyword rest, Sealed above ∧
    (keyword = "interface" ∨ keyword = "type") ∧ d.content.toList = above ++ ("export".toList ++
      (' ' :: (keyword.toList ++ (' ' :: (d.name.toList ++ ' ' :: rest))))) := by
  refine ⟨(d.comment.text "").toList, ?_⟩
  unfold content
  cases d.body with
  | properties ps =>
    exact ⟨"interface", "\x7b\n".toList ++ ((String.join (ps.map Property.text)).toList
      ++ "\x7d\n".toList), d.comment.sealed_text, .inl rfl, by simp⟩
  | anything =>
    exact ⟨"interface", "\x7b\n  [key: string]: any;\n\x7d\n".toList, d.comment.sealed_text,
      .inl rfl, by simp⟩
  | «alias» type =>
    exact ⟨"type", "= ".toList ++ (type.text.toList ++ ";\n".toList), d.comment.sealed_text,
      .inr rfl, by simp⟩

variable {d}

/-- What stands in front of a declaration in a module is sealed. -/
theorem exists_front {ds : List Declaration} (hd : d ∈ ds) : ∃ front tail, Sealed front ∧
    joined ['\n'] (ds.map fun d => d.content.toList) = front ++ (d.content.toList ++ tail) := by
  induction ds with
  | nil => exact absurd hd List.not_mem_nil
  | cons first ds ih =>
    rcases List.mem_cons.mp hd with rfl | hd
    · -- Nothing stands behind the last declaration, behind any other a line feed.
      rcases ds with _ | ⟨second, ds⟩
      · exact ⟨[], [], sealed_nil, by simp⟩
      · exact ⟨[], '\n' :: joined ['\n'] ((second :: ds).map fun d => d.content.toList), sealed_nil,
          by simp⟩
    · obtain ⟨front, tail, hfront, heq⟩ := ih hd
      have hne : ds.map (fun d => d.content.toList) ≠ [] := by
        simpa using List.ne_nil_of_mem hd
      refine ⟨first.content.toList ++ ['\n'] ++ front, tail,
        (first.sealed_content.append sealed_lineFeed).append hfront, ?_⟩
      rw [List.map_cons, joined_cons _ _ hne, heq, List.append_assoc _ front]

/-- The names of some declarations are found in what is read back of their text. -/
theorem mem_declaredNames_reread {ds : List Declaration} {p : List Char} (hp : Sealed p)
    (hd : d ∈ ds) (hname : IsName d.name.toList) :
    d.name.toList ∈ declaredNames
      (unifyNewlines (p ++ joined ['\n'] (ds.map fun d => d.content.toList))) := by
  obtain ⟨front, tail, hfront, heq⟩ := exists_front hd
  obtain ⟨above, keyword, rest, habove, hkeyword, hcontent⟩ := d.exists_sealed
  have hfound :=
    (hp.append (hfront.append habove)).mem_declaredNames hkeyword hname (rest ++ tail)
  simpa [heq, hcontent] using hfound

end Declaration

/-! ## Modules -/

/-- A text as it is read back. -/
def reread (text : String) : String := String.ofList (unifyNewlines text.toList)

/-- Reading a text back turns its line ends into line feeds. -/
@[simp]
theorem toList_reread (text : String) : (reread text).toList = unifyNewlines text.toList :=
  String.toList_ofList

namespace Generation

/-- Merging the text of a module into what is read back of it adds nothing. -/
theorem Rendered.merge_reread {text : String} (h : Rendered text) :
    mergeTexts (reread text) text = reread text := by
  obtain ⟨e, catalog, s, t, models, module, hrun, hmodule, rfl⟩ := h
  obtain ⟨sheet, hdistinct, htext, hentries, -, hlines⟩ := Generation.exists_sheet hrun hmodule
  obtain ⟨haccounted, -⟩ := accounted_models hrun
  have hname : ∀ d ∈ models.declarationsOf module, IsName d.name.toList := fun d hd =>
    (haccounted.formed _ (haccounted.consistent.mem_placed_iff.mpr hd)).name.exists_toList
  have hrender := models.toList_render module hlines
  rw [← String.toList_inj, toList_mergeTexts, toList_reread, ← htext]
  refine Sheet.merge_text_of_subset hdistinct (fun n hn => ?_) fun n hn => ?_
  · -- The name is that of a declaration of the module.
    have hnames : sheet.declared = (models.declarationsOf module).map fun d => d.name.toList := by
      simpa [Sheet.declared, Function.comp_def] using congrArg (List.map Prod.fst) hentries
    rw [hnames] at hn
    obtain ⟨d, hd, rfl⟩ := List.mem_map.mp hn
    rw [htext, hrender]
    refine Declaration.mem_declaredNames_reread ?_ hd (hname d hd)
    split
    · exact sealed_nil
    · rename_i hne
      exact ImportLine.sealed_block hne
  · have hne : sheet.imports ≠ [] := by
      intro hnil
      rw [Sheet.imported, hnil] at hn
      exact absurd hn List.not_mem_nil
    rw [htext, hrender, if_neg hne, List.append_assoc]
    exact List.mem_append_left _ (ImportLine.subset_importedNames hne _ hn)

end Generation

end ClientGen
