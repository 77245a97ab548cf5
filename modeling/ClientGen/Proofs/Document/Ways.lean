import ClientGen.Document.Pointer
import ClientGen.Proofs.Number.Decimal
import ClientGen.Proofs.Text.Replacement

/-!
# Ways through a document

Every node of a document has a pointer: the way down to it, written with a slash in front of each
step. A key is escaped, so that whatever is in it means nothing to the reader of the pointer.

* `Pointer.Step`, `Pointer.Way`: a way from a node down to another one.
* `Pointer.ofSteps`: the pointer for a way.
* `Pointer.unescape_escape`: an escaped key is read back.
* `Pointer.resolve_ofSteps`: the pointer for a way names the node at its end.
-/

namespace ClientGen.Pointer

open Text

/-- A step down from a node. -/
inductive Step where
  /-- To a member of an object. -/
  | key (name : String)
  /-- To an item of a list. -/
  | index (position : Nat)
deriving DecidableEq, Repr

/-- The steps lead from a node down to another one. No step goes by an empty key. -/
inductive Way : Node → List Step → Node → Prop
  /-- No step. -/
  | here {node : Node} : Way node [] node
  /-- A step to a member, and steps from there. -/
  | key {fields : Fields} {name : String} {child target : Node} {steps : List Step} :
    name ≠ "" → Fields.get? fields name = some child → Way child steps target →
    Way (.object fields) (.key name :: steps) target
  /-- A step to an item, and steps from there. -/
  | index {items : List Node} {position : Nat} {child target : Node} {steps : List Step} :
    items[position]? = some child → Way child steps target →
    Way (.list items) (.index position :: steps) target

/-! ## Escaping -/

/-- A character of a key as it is written in a pointer. -/
def escapeChar (c : Char) : List Char :=
  if c = '~' then ['~', '0'] else if c = '/' then ['~', '1'] else [c]

/-- A key as it is written in a pointer. -/
def escape (name : List Char) : List Char := mapChars escapeChar name

/-- A character of a key after the escape of the slash is undone. -/
def tildeChar (c : Char) : List Char := if c = '~' then ['~', '0'] else [c]

/-- Undoing the escape of the slash brings the slashes back and leaves the tildes escaped. -/
theorem replace_slash (name : List Char) :
    replace ['~', '1'] ['/'] (escape name) = mapChars tildeChar name := by
  unfold escape mapChars
  induction name with
  | nil => rfl
  | cons c name ih =>
    rw [List.flatMap_cons, List.flatMap_cons, ← ih, escapeChar, tildeChar]
    split_ifs with htilde hslash
    · -- Behind the tilde of an escaped tilde there is no 1.
      rw [List.cons_append, List.cons_append, List.nil_append, replace_cons rfl,
        replace_cons (startsWith_cons_of_ne (by decide) _ _)]
      rfl
    · subst hslash
      exact replace_append '~' ['1'] ['/'] _
    · rw [List.singleton_append, replace_cons (startsWith_cons_of_ne (Ne.symm htilde) _ _)]
      rfl

/-- Undoing the escape of the tilde brings the tildes back. -/
theorem replace_tilde (name : List Char) :
    replace ['~', '0'] ['~'] (mapChars tildeChar name) = name := by
  unfold mapChars
  induction name with
  | nil => rfl
  | cons c name ih =>
    rw [List.flatMap_cons, tildeChar]
    split_ifs with htilde
    · subst htilde
      rw [replace_append '~' ['0'] ['~'], ih]
      rfl
    · rw [List.singleton_append, replace_cons (startsWith_cons_of_ne (Ne.symm htilde) _ _), ih]

/-- An escaped key is read back, also one that looks like an escape. -/
theorem unescape_escape (name : List Char) : unescape (escape name) = name := by
  rw [unescape, replace_slash, replace_tilde]

/-- What has no tilde stands for itself. -/
theorem unescape_of_not_mem {step : List Char} (h : '~' ∉ step) : unescape step = step := by
  have hself : ∀ digit new, replace ['~', digit] new step = step := by
    intro digit new
    induction step with
    | nil => rfl
    | cons c step ih =>
      rw [List.mem_cons, not_or] at h
      rw [replace_cons (startsWith_cons_of_ne h.1 _ _), ih h.2]
  rw [unescape, hself, hself]

/-- No slash is left in an escaped key. -/
theorem slash_not_mem_escape (name : List Char) : '/' ∉ escape name := by
  intro hmem
  obtain ⟨c, -, hc⟩ := List.mem_flatMap.mp hmem
  rw [escapeChar] at hc
  split_ifs at hc with htilde hslash
  · exact absurd hc (by decide)
  · exact absurd hc (by decide)
  · exact hslash (List.mem_singleton.mp hc).symm

/-- Nothing is left only of the empty key. -/
theorem escape_ne_nil {name : List Char} (h : name ≠ []) : escape name ≠ [] := by
  obtain ⟨c, name, rfl⟩ := List.exists_cons_of_ne_nil h
  rw [escape, mapChars, List.flatMap_cons, escapeChar]
  split_ifs <;> exact List.cons_ne_nil _ _

/-! ## Pointers of ways -/

/-- A step as it is written in a pointer: a key is escaped, a position is in decimal notation. -/
def Step.text : Step → List Char
  | .key name => escape name.toList
  | .index position => Nat.toDigits 10 position

/-- The pointer for a way: a hash sign, and each step behind a slash. -/
def ofSteps (steps : List Step) : String :=
  String.ofList ('#' :: steps.flatMap fun step => '/' :: step.text)

theorem isDigit_of_mem_text {position : Nat} {c : Char} (h : c ∈ (Step.index position).text) :
    c.isDigit :=
  Nat.isDigit_of_mem_toDigits (by decide) (by decide) h

/-- The text of a step has no slash. -/
theorem Step.slash_not_mem_text (step : Step) : '/' ∉ step.text := by
  cases step with
  | key name => exact slash_not_mem_escape _
  | index position => exact fun h => absurd (isDigit_of_mem_text h) (by decide)

/-- The texts of the steps of a way are not empty. -/
theorem Way.text_ne_nil {document target : Node} {steps : List Step}
    (h : Way document steps target) : ∀ step ∈ steps, step.text ≠ [] := by
  induction h with
  | here => simp
  | key hname _ _ ih =>
    refine List.forall_mem_cons.mpr ⟨escape_ne_nil ?_, ih⟩
    exact fun hnil => hname (String.toList_eq_nil_iff.mp hnil)
  | index _ _ ih => exact List.forall_mem_cons.mpr ⟨Nat.toDigits_ne_nil, ih⟩

/-- The pointer for a way has just its steps. -/
theorem steps_flatMap {ways : List Step} (h : ∀ step ∈ ways, step.text ≠ []) :
    steps (ways.flatMap fun step => '/' :: step.text) = ways.map Step.text := by
  -- What is cut at a slash behind the first one starts with an empty piece, which does not count.
  have hsplit : ∀ front : List Char, '/' ∉ front →
      splitOn '/' (front ++ ways.flatMap fun step => '/' :: step.text)
        = front :: ways.map Step.text := by
    clear h
    induction ways with
    | nil =>
      intro front hfront
      rw [List.flatMap_nil, List.append_nil, splitOn_of_not_mem hfront, List.map_nil]
    | cons step ways ih =>
      intro front hfront
      rw [List.flatMap_cons, List.cons_append, splitOn_append hfront,
        ih step.text step.slash_not_mem_text, List.map_cons]
  have hnil := hsplit [] List.not_mem_nil
  rw [List.nil_append] at hnil
  rw [steps, hnil, List.filter_cons_of_neg (by simp)]
  refine List.filter_eq_self.mpr fun text htext => ?_
  obtain ⟨step, hstep, rfl⟩ := List.mem_map.mp htext
  simpa using h step hstep

/-- A step by a key leads to the member of that name. -/
theorem down_key {fields : Fields} {name : String} {child : Node}
    (h : Fields.get? fields name = some child) :
    down (.object fields) (Step.key name).text = some child := by
  simp only [down, Step.text, unescape_escape, String.ofList_toList, h]

/-- A step by an index leads to the item there, if the index is short enough to be read. -/
theorem down_index {items : List Node} {position : Nat} {child : Node}
    (hshort : position < 10 ^ Limit.digits) (h : items[position]? = some child) :
    down (.list items) (Step.index position).text = some child := by
  have htilde : '~' ∉ (Step.index position).text := fun hmem =>
    absurd (isDigit_of_mem_text hmem) (by decide)
  simp only [down]
  rw [unescape_of_not_mem htilde, Step.text, readInteger_toDigits hshort, Option.bind_some,
    itemAt?, if_pos (Int.natCast_nonneg position), Int.toNat_natCast, h]

/-- The pointer for a way names the node at its end. A position is read as long as it has no more
digits than numbers may have, which allows for more items than any list has. -/
theorem resolve_ofSteps {document target : Node} {steps : List Step}
    (h : Way document steps target)
    (hshort : ∀ position, .index position ∈ steps → position < 10 ^ Limit.digits) :
    resolve document (ofSteps steps) = some target := by
  have hfold : (steps.map Step.text).foldlM down document = some target := by
    induction h with
    | here => rfl
    | key _ hchild _ ih =>
      rw [List.map_cons, List.foldlM_cons, down_key hchild]
      exact ih fun position hmem => hshort position (List.mem_cons_of_mem _ hmem)
    | index hchild _ ih =>
      rw [List.map_cons, List.foldlM_cons, down_index (hshort _ List.mem_cons_self) hchild]
      exact ih fun position hmem => hshort position (List.mem_cons_of_mem _ hmem)
  rw [resolve, ofSteps, String.toList_ofList]
  change (Pointer.steps (steps.flatMap fun step => '/' :: step.text)).foldlM down document
    = some target
  rw [steps_flatMap h.text_ne_nil, hfold]

/-- A document with keys that are full of slashes and tildes. -/
def slashedDocument : Node :=
  .object [(.text "/pets/~01", .list [.null, .object [(.text "~1", .text "found")]])]

/-- The way to the text in it. -/
def slashedSteps : List Step := [.key "/pets/~01", .index 1, .key "~1"]

/-- A key that looks like an escape is found. -/
theorem resolve_ofSteps_slashed :
    Way slashedDocument slashedSteps (.text "found") ∧
      (∀ position, .index position ∈ slashedSteps → position < 10 ^ Limit.digits) ∧
      ofSteps slashedSteps = "#/~1pets~1~001/1/~01" ∧
      resolve slashedDocument (ofSteps slashedSteps) = some (.text "found") := by
  have hway : Way slashedDocument slashedSteps (.text "found") :=
    .key (by decide) rfl (.index rfl (.key (by decide) rfl .here))
  have hshort : ∀ position, .index position ∈ slashedSteps → position < 10 ^ Limit.digits := by
    intro position hmem
    obtain rfl : position = 1 := by simpa [slashedSteps] using hmem
    exact Nat.one_lt_pow (by decide) (by decide)
  exact ⟨hway, hshort, by decide, resolve_ofSteps hway hshort⟩

end ClientGen.Pointer
