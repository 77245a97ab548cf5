import ClientGen.Proofs.Model.Imports
import ClientGen.Proofs.Model.Merging
import ClientGen.Proofs.Schema.Printing

/-!
# Rendered modules are sheets

Whatever names and descriptions a document holds, the text of a module is the text of a sheet. It
has one import line for each module that it needs types of, and one declaration after another.

* `Property.exists_lines`: a property fills lines that declare and import nothing.
* `Declaration.Formed.exists_entry`: the text of a declaration.
* `Generation.exists_sheet`, `Generation.blockOf?_render`: the text of a module after a pass.
-/

namespace ClientGen

open Text ModuleText

/-- Texts with a line feed behind each. -/
def ended (ls : List (List Char)) : List Char := ls.flatMap (· ++ ['\n'])

/-- No lines are no text. -/
@[simp]
theorem ended_nil : ended [] = [] := by
  rw [ended, List.flatMap_nil]

/-- The first line comes first, with a line feed behind it. -/
@[simp]
theorem ended_cons (l : List Char) (ls : List (List Char)) :
    ended (l :: ls) = l ++ '\n' :: ended ls := by
  simp [ended]

/-- Lines in two runs are those of the first one and then those of the second. -/
@[simp]
theorem ended_append (ls ls' : List (List Char)) : ended (ls ++ ls') = ended ls ++ ended ls' :=
  List.flatMap_append

/-! ## Properties -/

variable {l : List Char}

/-- A line that starts with a character that no declaration and no import starts with. -/
theorem inert_of_head {c d : Char} (hfeed : '\n' ∉ l) (hhead : l.head? = some c) (he : c ≠ 'e')
    (hi : c ≠ 'i') (hd : d ∈ l) (hvisible : isLineBlank d = false) : Inert l where
  oneLine := hfeed
  visible := ⟨d, hd, by simp [hvisible]⟩
  head_ne_e := by simpa [hhead] using he
  head_ne_i := by simpa [hhead] using hi

/-- A comment fills a line, if there is one. -/
theorem DocComment.exists_lines (d : DocComment) (indent : String) :
    ∃ ls : List (List Char), (d.text indent).toList = ended ls ∧
      ∀ l ∈ ls, ∃ body, '\n' ∉ body ∧ l = indent.toList ++ '/' :: body := by
  rcases d.text_cases indent with h | ⟨body, hbody, h⟩
  · exact ⟨[], by simp [h], by simp⟩
  · have hline : (d.text indent).toList = ended
        [indent.toList ++ '/' :: ("** ".toList ++ (body.toList ++ " */".toList))] := by simp [h]
    refine ⟨_, hline, fun l hl => ⟨_, ?_, List.mem_singleton.mp hl⟩⟩
    have hmarks : '\n' ∉ "** ".toList ∧ '\n' ∉ " */".toList := by decide
    simp only [List.mem_append, not_or]
    exact ⟨hmarks.1, hbody, hmarks.2⟩

/-- A property fills lines that declare and import nothing. -/
theorem Property.exists_lines {p : Property} (hp : p.type.Formed) :
    ∃ ls : List (List Char), p.text.toList = ended ls ∧ ∀ l ∈ ls, Inert l := by
  obtain ⟨above, habove, hcomment⟩ := p.comment.exists_lines "  "
  have hinert : ∀ l ∈ above, Inert l := by
    intro l hl
    obtain ⟨body, hbody, rfl⟩ := hcomment l hl
    refine inert_of_head (c := ' ') (d := '/') ?_ (by simp) (by decide) (by decide) (by simp)
      (by decide)
    simpa using hbody
  -- What stands behind the key, from its mark on.
  obtain ⟨mark, tail, htail, hmark, hfeed⟩ : ∃ mark tail,
      ((if p.optional then "?" else "") ++ ": " ++ p.type.text ++ ";").toList = mark :: tail ∧
        (mark = '?' ∨ mark = ':') ∧ '\n' ∉ mark :: tail := by
    have htype : '\n' ∉ p.type.text.toList := hp.unbroken
    cases p.optional with
    | true =>
      exact ⟨'?', ':' :: ' ' :: (p.type.text.toList ++ [';']), by simp, .inl rfl, by simp [htype]⟩
    | false =>
      exact ⟨':', ' ' :: (p.type.text.toList ++ [';']), by simp, .inr rfl, by simp [htype]⟩
  have htext : p.text.toList = ended above ++
      (' ' :: ' ' :: ((propertyKey p.name).toList ++ (mark :: tail ++ ['\n']))) := by
    rw [← htail, ← habove]
    simp [Property.text]
  have hvisible : isLineBlank mark = false := by rcases hmark with rfl | rfl <;> decide
  rcases propertyKey_cases p.name with hkey | ⟨c, rest, hkey, hstart, hrest⟩
  · -- The property is on one line.
    refine ⟨above ++ [' ' :: ' ' :: ((propertyKey p.name).toList ++ mark :: tail)],
      by simp [htext], List.forall_mem_append.mpr ⟨hinert, ?_⟩⟩
    rw [List.forall_mem_singleton]
    have hkey : '\n' ∉ (propertyKey p.name).toList := hkey
    refine inert_of_head (c := ' ') (d := mark) ?_ rfl (by decide) (by decide) (by simp) hvisible
    simp only [List.mem_cons, List.mem_append, not_or] at hfeed ⊢
    exact ⟨by decide, by decide, hkey, hfeed⟩
  · -- The key ends its line.
    refine ⟨above ++ [' ' :: ' ' :: c :: rest, mark :: tail], by simp [htext, hkey],
      List.forall_mem_append.mpr ⟨hinert, ?_⟩⟩
    rw [List.forall_mem_cons, List.forall_mem_singleton]
    have hc : isLineBlank c = false := by
      by_contra h
      rw [Bool.not_eq_false, isLineBlank, Bool.or_eq_true, decide_eq_true_eq,
        decide_eq_true_eq] at h
      rcases h with rfl | rfl <;> exact absurd hstart (by decide)
    constructor
    · refine inert_of_head (c := ' ') (d := c) ?_ rfl (by decide) (by decide) (by simp) hc
      simpa using hrest
    · refine inert_of_head (c := mark) (d := mark) hfeed rfl ?_ ?_ (by simp) hvisible
      · rcases hmark with rfl | rfl <;> decide
      · rcases hmark with rfl | rfl <;> decide

/-- Properties fill lines that declare and import nothing. -/
theorem exists_lines_of_properties {ps : List Property} (h : ∀ p ∈ ps, p.type.Formed) :
    ∃ ls : List (List Char), (String.join (ps.map Property.text)).toList = ended ls ∧
      ∀ l ∈ ls, Inert l := by
  induction ps with
  | nil => exact ⟨[], rfl, by simp⟩
  | cons p ps ih =>
    obtain ⟨ls, hls, hinert⟩ := Property.exists_lines (h p List.mem_cons_self)
    obtain ⟨ls', hls', hinert'⟩ := ih fun q hq => h q (List.mem_cons_of_mem _ hq)
    rw [String.toList_join] at hls' ⊢
    refine ⟨ls ++ ls', ?_, List.forall_mem_append.mpr ⟨hinert, hinert'⟩⟩
    rw [List.map_cons, List.flatMap_cons, hls, hls', ended_append]

/-! ## Declarations -/

/-- The text of a declaration is that of an entry. -/
theorem Declaration.Formed.exists_entry {d : Declaration} (h : d.Formed) :
    ∃ e : Entry, e.name = d.name.toList ∧ d.content.toList = ended e.lines := by
  obtain ⟨above, habove, hcomment⟩ := d.comment.exists_lines ""
  have hcomment : ∀ l ∈ above, IsLine l ∧ l.head? = some '/' := by
    intro l hl
    obtain ⟨body, hbody, rfl⟩ := hcomment l hl
    have hline : "".toList ++ '/' :: body = '/' :: body := rfl
    rw [hline]
    exact ⟨⟨by simpa using hbody, '/', by simp, by decide⟩, rfl⟩
  have hname : IsName d.name.toList := h.name.exists_toList
  -- The brace that closes an interface.
  have hclosing : Inert ['\x7d'] :=
    inert_of_head (c := '\x7d') (d := '\x7d') (by decide) rfl (by decide) (by decide) (by decide)
      (by decide)
  have htypes := h.types
  unfold Declaration.types at htypes
  unfold Declaration.content
  cases hbody : d.body with
  | properties ps =>
    rw [hbody] at htypes
    obtain ⟨ls, hls, hinert⟩ :=
      exists_lines_of_properties fun p hp => htypes _ (List.mem_map_of_mem hp)
    refine ⟨{
      name := d.name.toList, comment := above, keyword := "interface", tail := [' ', '\x7b']
      below := ls ++ [['\x7d']], isName := hname, isComment := hcomment, isKeyword := .inl rfl
      spaced := rfl, oneLine := by decide
      isInert := List.forall_mem_append.mpr ⟨hinert, by simpa using hclosing⟩ }, rfl, ?_⟩
    simp [Entry.lines, Entry.heading_eq, habove, hls]
  | anything =>
    have hopen : Inert "  [key: string]: any;".toList :=
      inert_of_head (c := ' ') (d := '[') (by decide) rfl (by decide) (by decide) (by decide)
        (by decide)
    refine ⟨{
      name := d.name.toList, comment := above, keyword := "interface", tail := [' ', '\x7b']
      below := ["  [key: string]: any;".toList, ['\x7d']], isName := hname
      isComment := hcomment, isKeyword := .inl rfl, spaced := rfl, oneLine := by decide
      isInert := by simpa using ⟨hopen, hclosing⟩ }, rfl, ?_⟩
    simp [Entry.lines, Entry.heading_eq, habove]
  | «alias» type =>
    rw [hbody] at htypes
    have htype : '\n' ∉ type.text.toList := (htypes type List.mem_cons_self).unbroken
    refine ⟨{
      name := d.name.toList, comment := above, keyword := "type"
      tail := ' ' :: '=' :: ' ' :: (type.text.toList ++ [';']), below := [], isName := hname
      isComment := hcomment, isKeyword := .inr rfl, spaced := rfl, oneLine := by simpa using htype
      isInert := by simp }, rfl, ?_⟩
    simp [Entry.lines, Entry.heading_eq, habove]

/-- The texts of declarations are those of entries. -/
theorem exists_entries {ds : List Declaration} (h : ∀ d ∈ ds, d.Formed) :
    ∃ es : List Entry, es.map (fun e => (e.name, e.block ++ ['\n']))
      = ds.map fun d => (d.name.toList, d.content.toList) := by
  induction ds with
  | nil => exact ⟨[], rfl⟩
  | cons d ds ih =>
    obtain ⟨e, hname, hcontent⟩ := (h d List.mem_cons_self).exists_entry
    obtain ⟨es, hes⟩ := ih fun d' hd' => h d' (List.mem_cons_of_mem _ hd')
    have hblock : e.block ++ ['\n'] = d.content.toList := by
      rw [hcontent, Entry.block, joined_lineFeed e.lines_ne_nil]
      rfl
    exact ⟨e :: es, by rw [List.map_cons, List.map_cons, hname, hblock, hes]⟩

/-! ## Imports -/

/-- Groups of names make import lines. -/
theorem exists_importLines {groups : List (String × List String)} (hne : ∀ g ∈ groups, g.2 ≠ [])
    (hname : ∀ g ∈ groups, ∀ n ∈ g.2, Naming.IsInterfaceName n)
    (howner : ∀ g ∈ groups, ∃ resource, g.1 = Naming.camelCase resource) :
    ∃ is : List ImportLine,
      is.map ImportLine.names = groups.map (fun g => g.2.map String.toList) ∧
      is.map ImportLine.text
        = groups.map fun g => (ModelSet.importLine g.2 ("./" ++ g.1)).toList := by
  induction groups with
  | nil => exact ⟨[], rfl, rfl⟩
  | cons g groups ih =>
    obtain ⟨is, hnames, htexts⟩ := ih (fun g' hg' => hne g' (List.mem_cons_of_mem _ hg'))
      (fun g' hg' => hname g' (List.mem_cons_of_mem _ hg'))
      fun g' hg' => howner g' (List.mem_cons_of_mem _ hg')
    obtain ⟨resource, hresource⟩ := howner g List.mem_cons_self
    -- A module is a camel case name, so its specifier has no quote in it.
    have hsource : ∀ c ∈ ("./" ++ g.1).toList, isSourceChar c := by
      intro c hc
      rw [String.toList_append, List.mem_append] at hc
      rcases hc with hc | hc
      · have hall : "./".toList.all isSourceChar := by decide
        exact List.all_eq_true.mp hall c hc
      · rw [hresource] at hc
        simp [isSourceChar, Naming.alphanumeric_camelCase resource hc]
    let i : ImportLine := {
      names := g.2.map String.toList, source := ("./" ++ g.1).toList
      names_ne_nil := by simpa using hne g List.mem_cons_self
      isName := List.forall_mem_map.mpr fun n hn => (hname g List.mem_cons_self n hn).exists_toList
      source_ne_nil := by simp, isSource := hsource }
    have htext : i.text = (ModelSet.importLine g.2 ("./" ++ g.1)).toList := by
      rw [ImportLine.text, importLine, String.ofList_toList, List.map_map]
      simp [Function.comp_def]
    refine ⟨i :: is, ?_, ?_⟩
    · rw [List.map_cons, List.map_cons, hnames]
    · rw [List.map_cons, List.map_cons, htext, htexts]

/-! ## Modules -/

/-- The text of a module is that of its declarations, behind its import lines if there are any. -/
theorem ModelSet.toList_render (models : ModelSet) (module : String) {is : List ImportLine}
    (hlines : is.map ImportLine.text = (models.imports module).map
      fun g => (ModelSet.importLine g.2 ("./" ++ g.1)).toList) :
    (models.render module).toList
      = (if is = [] then [] else ImportLine.block is ++ ['\n', '\n'])
        ++ joined ['\n'] ((models.declarationsOf module).map fun d => d.content.toList) := by
  have hbody : ("\n".intercalate ((models.declarationsOf module).map Declaration.content)).toList
      = joined ['\n'] ((models.declarationsOf module).map fun d => d.content.toList) := by
    rw [toList_intercalate, List.map_map]
    rfl
  unfold ModelSet.render
  -- Without imports the text is the declarations alone.
  split
  · rename_i hnone
    have hnil : is = [] := by simpa [hnone] using hlines
    rw [if_pos hnil, hbody, List.nil_append]
  · rename_i hsome
    have hne : is ≠ [] := by
      rintro rfl
      exact hsome (by simpa using hlines.symm)
    have himports : ("\n".intercalate ((models.imports module).map
        fun g => ModelSet.importLine g.2 ("./" ++ g.1))).toList = ImportLine.block is := by
      rw [toList_intercalate, List.map_map]
      exact congrArg (joined ['\n']) hlines.symm
    rw [if_neg hne, String.toList_append, String.toList_append, himports, hbody]
    rfl

namespace Generation

variable {e : Expander} {catalog : Catalog} {models : ModelSet} {s t : Session} {module : String}

/-- What a module imports after a pass makes import lines. -/
theorem exists_importLines_of_run
    (h : (Generation.models e catalog).run s = (.ok models, t)) (module : String) :
    ∃ is : List ImportLine,
      is.map ImportLine.names = (models.imports module).map (fun g => g.2.map String.toList) ∧
      is.map ImportLine.text = (models.imports module).map
        fun g => (ModelSet.importLine g.2 ("./" ++ g.1)).toList := by
  obtain ⟨haccounted, -⟩ := accounted_models h
  have hconsistent := haccounted.consistent
  obtain ⟨hgrouped, -⟩ := grouped_spec (models.importOwner? module)
    ((models.declarationsOf module).flatMap fun d => interfaceNames d.content)
  rw [← ModelSet.imports_eq_grouped] at hgrouped
  -- A listed name is the name of a declaration of its owner.
  have hdeclared : ∀ g ∈ models.imports module, ∀ n ∈ g.2,
      ∃ d ∈ models.declarationsOf g.1, d.name = n := by
    intro g hg n hn
    have howner := hgrouped.owned ⟨g.2, hg, hn⟩
    rw [hconsistent.importOwner?_eq_some_iff] at howner
    exact hconsistent.lookup_owners_iff.mp howner.1
  refine exists_importLines hgrouped.nonempty (fun g hg n hn => ?_) fun g hg => ?_
  · obtain ⟨d, hd, rfl⟩ := hdeclared g hg n hn
    exact (haccounted.formed _ (hconsistent.mem_placed_iff.mpr hd)).name
  · obtain ⟨n, hn⟩ := List.exists_mem_of_ne_nil _ (hgrouped.nonempty g hg)
    obtain ⟨d, hd, -⟩ := hdeclared g hg n hn
    exact haccounted.modules g.1 (ModelSet.mem_modules_of_mem hd)

/-- After a pass, the text of a module is that of a sheet. It declares the names of the
declarations of the module, each in a block of its own, and imports the names that the module
needs, with a line for each other module. -/
theorem exists_sheet (h : (Generation.models e catalog).run s = (.ok models, t))
    (hmodule : module ∈ models.modules) :
    ∃ sheet : Sheet, sheet.Distinct ∧ sheet.text = (models.render module).toList ∧
      sheet.entries.map (fun e => (e.name, e.block ++ ['\n']))
        = (models.declarationsOf module).map (fun d => (d.name.toList, d.content.toList)) ∧
      sheet.imported = (models.imports module).flatMap (fun g => g.2.map String.toList) ∧
      sheet.imports.map ImportLine.text = (models.imports module).map
        fun g => (ModelSet.importLine g.2 ("./" ++ g.1)).toList := by
  obtain ⟨haccounted, -⟩ := accounted_models h
  have hconsistent := haccounted.consistent
  have hformed : ∀ d ∈ models.declarationsOf module, d.Formed := fun d hd =>
    haccounted.formed _ (hconsistent.mem_placed_iff.mpr hd)
  obtain ⟨es, hentries⟩ := exists_entries hformed
  have hnames : es.map Entry.name = (models.declarationsOf module).map (·.name.toList) := by
    simpa [Function.comp_def] using congrArg (List.map Prod.fst) hentries
  have hcontents : es.map (fun e => e.block ++ ['\n'])
      = (models.declarationsOf module).map (·.content.toList) := by
    simpa [Function.comp_def] using congrArg (List.map Prod.snd) hentries
  obtain ⟨is, himported, hlines⟩ := exists_importLines_of_run h module
  have hes : es ≠ [] := by
    rintro rfl
    have hnone : models.declarationsOf module = [] := by simpa using hnames.symm
    exact hconsistent.declarationsOf_ne_nil hmodule hnone
  have hflat : is.flatMap ImportLine.names
      = (models.imports module).flatMap fun g => g.2.map String.toList := by
    rw [List.flatMap_def, himported, List.flatMap_def]
  -- Every declaration ends in a line feed, so joining them by line feeds leaves blank lines.
  have hbody : joined ['\n'] ((models.declarationsOf module).map fun d => d.content.toList)
      = joined ['\n', '\n'] (es.map Entry.block) ++ ['\n'] := by
    rw [← joined_blankLine (by simpa using hes), List.map_map]
    exact congrArg (joined ['\n']) hcontents.symm
  refine ⟨⟨is, es, hes⟩, ⟨?_, ?_⟩, ?_, hentries, hflat, hlines⟩
  · -- Over all import lines no name comes twice.
    obtain ⟨hgrouped, -⟩ := grouped_spec (models.importOwner? module)
      ((models.declarationsOf module).flatMap fun d => interfaceNames d.content)
    have hnodup := hgrouped.nodup_all.map (f := String.toList) fun _ _ => String.toList_inj.mp
    rw [← ModelSet.imports_eq_grouped, List.map_flatMap] at hnodup
    rw [Sheet.imported, hflat]
    exact hnodup
  · have hnodup := (hconsistent.nodup_declarationsOf module).map (f := String.toList)
      fun _ _ => String.toList_inj.mp
    rw [List.map_map] at hnodup
    rw [Sheet.declared, hnames]
    exact hnodup
  · rw [Sheet.text, models.toList_render module hlines, hbody]
    split
    · rename_i his
      rw [Sheet.blocks_of_nil his, List.nil_append]
    · rename_i his
      rw [Sheet.blocks_of_ne_nil his, joined_cons _ _ (by simpa using hes)]
      simp

/-- After a pass, each declaration of a module is the block of its name in the text of the
module. -/
theorem blockOf?_render (h : (Generation.models e catalog).run s = (.ok models, t))
    {d : Declaration} (hd : d ∈ models.declarationsOf module) :
    ∃ b, blockOf? d.name.toList (models.render module).toList = some b ∧
      d.content.toList = b ++ ['\n'] := by
  obtain ⟨sheet, hdistinct, htext, hentries, -⟩ :=
    exists_sheet h (ModelSet.mem_modules_of_mem hd)
  have hmem : (d.name.toList, d.content.toList) ∈
      sheet.entries.map fun e => (e.name, e.block ++ ['\n']) := by
    rw [hentries]
    exact List.mem_map_of_mem (f := fun d : Declaration => (d.name.toList, d.content.toList)) hd
  obtain ⟨entry, hentry, heq⟩ := List.mem_map.mp hmem
  obtain ⟨hname, hcontent⟩ := Prod.mk.inj heq
  refine ⟨entry.block, ?_, hcontent.symm⟩
  rw [← htext, ← hname, Sheet.blockOf?_text, hdistinct.declarationOf?_eq hentry, Option.map_some]

end Generation

end ClientGen
