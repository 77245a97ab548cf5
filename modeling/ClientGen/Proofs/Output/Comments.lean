import ClientGen.Proofs.Endpoint.Names
import ClientGen.Proofs.Text.ClosingMark

/-!
# Comments in generated files

The files of models, endpoints and hooks are put together from code and from comments. Descriptions
are defused before they go into a comment, and the names in comments have letters and digits only.
The path of an endpoint goes into its comment as it is, so a path with a closing mark ends the
comment early.

* `Piece`: a piece of a file, with `Piece.textOf` and `Piece.comments`.
* `ModelSet.pieces`, `EndpointFile.pieces`, `Hook.pieces`: the pieces of the files, and that their
  texts are those of the files.
* `Output.comments_close_at_end_iff`: when all comments end where their texts end.
-/

namespace ClientGen

/-! ## Pieces -/

/-- A piece of a file. -/
inductive Piece where
  /-- Code. -/
  | code (text : String)
  /-- A comment with its marks. -/
  | comment (text : String)

namespace Piece

/-- The text of a piece. -/
def text : Piece → String
  | code text => text
  | comment text => text

/-- The comment, if the piece is one. -/
def comment? : Piece → Option String
  | code _ => none
  | comment text => some text

/-- The text that some pieces make up. -/
def textOf (pieces : List Piece) : String := String.join (pieces.map text)

/-- The comments among some pieces. -/
def comments (pieces : List Piece) : List String := pieces.filterMap comment?

variable {ps qs : List Piece} {p : Piece} {s : String}

@[simp]
theorem textOf_nil : textOf [] = "" := rfl

/-- The text of some pieces is that of the first one, followed by that of the others. -/
@[simp]
theorem textOf_cons : textOf (p :: ps) = p.text ++ textOf ps := String.join_cons

/-- The text of two runs of pieces is their texts, one after the other. -/
@[simp]
theorem textOf_append : textOf (ps ++ qs) = textOf ps ++ textOf qs := by
  rw [textOf, List.map_append, String.join_append]
  rfl

/-- The text of pieces made for each of several things is their texts put together. -/
theorem textOf_flatMap {α : Type} (f : α → List Piece) (as : List α) :
    textOf (as.flatMap f) = String.join (as.map fun a => textOf (f a)) := by
  induction as with
  | nil => rfl
  | cons a as ih => rw [List.flatMap_cons, textOf_append, ih, List.map_cons, String.join_cons]

@[simp]
theorem comments_nil : comments [] = [] := rfl

/-- Code adds no comment. -/
@[simp]
theorem comments_code : comments (code s :: ps) = comments ps := rfl

/-- A comment is the first of the comments of itself and what follows. -/
@[simp]
theorem comments_comment : comments (comment s :: ps) = s :: comments ps := rfl

/-- The comments of two runs of pieces are those of the first, then those of the second. -/
@[simp]
theorem comments_append : comments (ps ++ qs) = comments ps ++ comments qs := List.filterMap_append

/-- The comments of pieces made for each of several things are their comments, in that order. -/
theorem comments_flatMap {α : Type} (f : α → List Piece) (as : List α) :
    comments (as.flatMap f) = as.flatMap fun a => comments (f a) := by
  induction as with
  | nil => rfl
  | cons a as ih => rw [List.flatMap_cons, comments_append, ih, List.flatMap_cons]

/-- All comments among some pieces end where their texts end. -/
def Closed (pieces : List Piece) : Prop := ∀ c ∈ comments pieces, ClosesAtEnd c

/-- Code alone has no comment that could end early. -/
theorem closed_code (s : String) : Closed [code s] := fun _ hc => absurd hc List.not_mem_nil

/-- All comments of two runs of pieces end where they should exactly if those of each run do. -/
theorem closed_append : Closed (ps ++ qs) ↔ Closed ps ∧ Closed qs := by
  rw [Closed, comments_append, List.forall_mem_append]
  rfl

/-- All comments of pieces made for several things end where they should exactly if those of each
do. -/
theorem closed_flatMap {α : Type} {f : α → List Piece} {as : List α} :
    Closed (as.flatMap f) ↔ ∀ a ∈ as, Closed (f a) := by
  simp only [Closed, comments_flatMap, List.mem_flatMap]
  exact ⟨fun h a ha c hc => h c ⟨a, ha, hc⟩, fun h c ⟨a, ha, hc⟩ => h a ha c hc⟩

end Piece

open Piece

/-- Lines that follow other lines are ended one by one as before. -/
theorem textOfLines_append (lines more : List String) :
    textOfLines (lines ++ more) = textOfLines lines ++ textOfLines more := by
  rw [textOfLines, List.map_append, String.join_append]
  rfl

/-- Lines made for each of several things are ended one by one. -/
theorem textOfLines_flatMap {α : Type} (f : α → List String) (as : List α) :
    textOfLines (as.flatMap f) = String.join (as.map fun a => textOfLines (f a)) := by
  induction as with
  | nil => rfl
  | cons a as ih =>
    rw [List.flatMap_cons, textOfLines_append, ih, List.map_cons, String.join_cons]

/-! ## Models -/

namespace DocComment

/-- The comment on a line of its own. -/
def pieces (d : DocComment) (indent : String) : List Piece :=
  match d.parts with
  | [] => []
  | parts => [code indent, comment ("/** " ++ " ".intercalate parts ++ " */"), code "\n"]

/-- The pieces of a comment on a line of its own make up its text. -/
theorem textOf_pieces (d : DocComment) (indent : String) :
    textOf (d.pieces indent) = d.text indent := by
  unfold pieces text
  cases d.parts with
  | nil => rfl
  | cons part parts =>
    have hend : " */\n" = " */" ++ "\n" := rfl
    simp only [textOf_cons, Piece.text, textOf_nil, String.append_empty, String.append_assoc, hend]

/-- The comment of a declaration or a property ends where its text ends. -/
theorem closed_pieces (d : DocComment) (indent : String) : Closed (d.pieces indent) := by
  -- A description has its marks taken apart, and the other two parts are fixed words.
  have hparts : ∀ part ∈ d.parts, ¬ closingMark <:+: part.toList := by
    intro part hpart
    simp only [parts, List.mem_append] at hpart
    rcases hpart with (hpart | hpart) | hpart
    · split at hpart
      · split at hpart
        · exact absurd hpart List.not_mem_nil
        · rw [List.mem_singleton.mp hpart]
          exact closingMark_not_infix_commentText _
      · exact absurd hpart List.not_mem_nil
    · rw [List.mem_singleton.mp (List.mem_ite_nil_right.mp hpart).2]
      exact closingMark_not_infix_of_not_mem (by decide)
    · rw [List.mem_singleton.mp (List.mem_ite_nil_right.mp hpart).2]
      exact closingMark_not_infix_of_not_mem (by decide)
  unfold pieces
  cases hd : d.parts with
  | nil => exact fun c hc => absurd hc List.not_mem_nil
  | cons part parts =>
    rw [hd] at hparts
    have hinner : ¬ closingMark <:+: (" ".intercalate (part :: parts)).toList := by
      rw [Text.toList_intercalate]
      apply closingMark_not_infix_joined
      intro w hw
      obtain ⟨part, hpart, rfl⟩ := List.mem_map.mp hw
      exact hparts part hpart
    intro c hc
    rw [List.mem_singleton.mp hc]
    exact closesAtEnd_around_iff.mpr hinner

end DocComment

namespace Property

/-- The pieces of a property. -/
def pieces (p : Property) : List Piece :=
  p.comment.pieces "  " ++ [code ("  " ++ propertyKey p.name ++ (if p.optional then "?" else "")
    ++ ": " ++ p.type.text ++ ";\n")]

/-- The pieces of a property make up its text. -/
theorem textOf_pieces (p : Property) : textOf p.pieces = p.text := by
  rw [pieces, text, textOf_append, DocComment.textOf_pieces]
  simp only [textOf_cons, textOf_nil, Piece.text, String.append_empty, String.append_assoc]

/-- The comment of a property ends where its text ends. -/
theorem closed_pieces (p : Property) : Closed p.pieces :=
  closed_append.mpr ⟨p.comment.closed_pieces _, closed_code _⟩

end Property

namespace Declaration

/-- The pieces of what a name is declared as. -/
def bodyPieces (d : Declaration) : List Piece :=
  match d.body with
  | .properties ps =>
    [code ("export interface " ++ d.name ++ " \x7b\n")] ++ ps.flatMap Property.pieces
      ++ [code "\x7d\n"]
  | .anything => [code ("export interface " ++ d.name ++ " \x7b\n  [key: string]: any;\n\x7d\n")]
  | .alias type => [code ("export type " ++ d.name ++ " = " ++ type.text ++ ";\n")]

/-- The pieces of a declaration. -/
def pieces (d : Declaration) : List Piece := d.comment.pieces "" ++ d.bodyPieces

/-- The pieces of a declaration make up its text. -/
theorem textOf_pieces (d : Declaration) : textOf d.pieces = d.content := by
  rw [pieces, content, textOf_append, DocComment.textOf_pieces, bodyPieces]
  cases d.body with
  | properties ps =>
    have hps : (fun p => textOf (Property.pieces p)) = Property.text :=
      funext Property.textOf_pieces
    simp only [textOf_append, textOf_flatMap, textOf_cons, textOf_nil, Piece.text,
      String.append_empty, hps]
  | anything => simp only [textOf_cons, textOf_nil, Piece.text, String.append_empty]
  | «alias» type => simp only [textOf_cons, textOf_nil, Piece.text, String.append_empty]

/-- All comments of a declaration end where their texts end. -/
theorem closed_pieces (d : Declaration) : Closed d.pieces := by
  refine closed_append.mpr ⟨d.comment.closed_pieces _, ?_⟩
  rw [bodyPieces]
  split
  · rename_i ps
    exact closed_append.mpr ⟨closed_append.mpr
      ⟨closed_code _, closed_flatMap.mpr fun p _ => p.closed_pieces⟩, closed_code _⟩
  · exact closed_code _
  · exact closed_code _

end Declaration

/-- Some lists of pieces with a line feed between neighbours. -/
def Piece.separated : List (List Piece) → List Piece
  | [] => []
  | [ps] => ps
  | ps :: qs :: more => ps ++ code "\n" :: separated (qs :: more)

/-- Pieces with a blank line between them make up their texts with a line feed between them. -/
theorem Piece.textOf_separated (pss : List (List Piece)) :
    textOf (separated pss) = "\n".intercalate (pss.map textOf) := by
  induction pss with
  | nil => rfl
  | cons ps pss ih =>
    rcases pss with _ | ⟨qs, more⟩
    · rw [separated, List.map_cons, List.map_nil, String.intercalate_singleton]
    · rw [separated, textOf_append, textOf_cons, ih, List.map_cons, List.map_cons, List.map_cons,
        String.intercalate_cons_cons, String.append_assoc]
      rfl

/-- Pieces put between others bring no comment, so all comments still end where they should. -/
theorem Piece.closed_separated {pss : List (List Piece)} (h : ∀ ps ∈ pss, Closed ps) :
    Closed (separated pss) := by
  induction pss with
  | nil => exact fun c hc => absurd hc List.not_mem_nil
  | cons ps pss ih =>
    rw [List.forall_mem_cons] at h
    rcases pss with _ | ⟨qs, more⟩
    · exact h.1
    · exact closed_append.mpr ⟨h.1, ih h.2⟩

namespace ModelSet

/-- The pieces of a module. -/
def pieces (models : ModelSet) (module : String) : List Piece :=
  let body := separated ((models.declarationsOf module).map Declaration.pieces)
  match models.imports module with
  | [] => body
  | imports =>
    code ("\n".intercalate (imports.map fun i => importLine i.2 ("./" ++ i.1)) ++ "\n\n") :: body

/-- The pieces of a module make up its text. -/
theorem textOf_pieces (models : ModelSet) (module : String) :
    textOf (models.pieces module) = models.render module := by
  have hbody : textOf (separated ((models.declarationsOf module).map Declaration.pieces))
      = "\n".intercalate ((models.declarationsOf module).map Declaration.content) := by
    rw [textOf_separated, List.map_map]
    exact congrArg _ (List.map_congr_left fun d _ => d.textOf_pieces)
  unfold pieces render
  cases models.imports module with
  | nil => exact hbody
  | cons i imports =>
    simp only [textOf_cons, Piece.text, hbody]

/-- All comments of a module of declarations end where their texts end. -/
theorem closed_pieces (models : ModelSet) (module : String) : Closed (models.pieces module) := by
  have hbody : Closed (separated ((models.declarationsOf module).map Declaration.pieces)) := by
    apply closed_separated
    intro ps hps
    obtain ⟨d, -, rfl⟩ := List.mem_map.mp hps
    exact d.closed_pieces
  unfold pieces
  cases models.imports module with
  | nil => exact hbody
  | cons i imports => exact hbody

end ModelSet

/-! ## Endpoints -/

/-- Lines with line feeds between them, and one more behind. -/
theorem textOfLines_eq_intercalate {lines : List String} (h : lines ≠ []) :
    textOfLines lines = "\n".intercalate lines ++ "\n" := by
  induction lines with
  | nil => exact absurd rfl h
  | cons line lines ih =>
    rcases lines with _ | ⟨next, lines⟩
    · rw [String.intercalate_singleton, textOfLines, List.map_singleton, String.join_cons,
        String.join_nil, String.append_empty]
    · have hnext := ih (List.cons_ne_nil _ _)
      rw [String.intercalate_cons_cons, String.append_assoc, ← hnext]
      exact String.join_cons

namespace EndpointFile

/-- The comment at the head of a file. -/
def header (g : EndpointGroup) : String :=
  "\n".intercalate ["/**", " * " ++ g.pascalTag ++ " Endpoints",
    " * Auto-generated from Swagger specification", " */"]

/-- The pieces of the file for one tag. -/
def pieces (g : EndpointGroup) : List Piece :=
  [.comment (header g),
      .code ("\n" ++ textOfLines ["", "export const " ++ g.constant ++ " = \x7b"])]
    ++ (g.endpoints.flatMap fun e =>
      [.code "  ", .comment (comment e), .code ("\n" ++ textOfLines ["  " ++ member e])])
    ++ [.code (textOfLines ["\x7d as const;", "",
      "export type " ++ g.pascalTag ++ "EndpointKeys = keyof typeof " ++ g.constant ++ ";"])]

/-- The pieces of a file of endpoints make up its text. -/
theorem textOf_pieces (g : EndpointGroup) : textOf (pieces g) = text g := by
  have hheader : textOfLines ["/**", " * " ++ g.pascalTag ++ " Endpoints",
      " * Auto-generated from Swagger specification", " */"] = header g ++ "\n" :=
    textOfLines_eq_intercalate (List.cons_ne_nil _ _)
  have hmember : ∀ e : Endpoint, textOfLines ["  " ++ comment e, "  " ++ member e]
      = "  " ++ (comment e ++ ("\n" ++ textOfLines ["  " ++ member e])) := by
    intro e
    simp only [textOfLines, List.map_cons, List.map_nil, String.join_cons, String.append_assoc]
  -- The header is four of the lines, each endpoint two, and the rest stands between them.
  have hsplit : text g = textOfLines (["/**", " * " ++ g.pascalTag ++ " Endpoints",
        " * Auto-generated from Swagger specification", " */"]
      ++ ["", "export const " ++ g.constant ++ " = \x7b"]
      ++ (g.endpoints.flatMap fun e => ["  " ++ comment e, "  " ++ member e])
      ++ ["\x7d as const;", "",
        "export type " ++ g.pascalTag ++ "EndpointKeys = keyof typeof " ++ g.constant ++ ";"]) :=
    rfl
  rw [hsplit, textOfLines_append, textOfLines_append, textOfLines_append, hheader,
    textOfLines_flatMap, pieces]
  simp only [textOf_append, textOf_flatMap, textOf_cons, textOf_nil, Piece.text, hmember,
    String.append_empty, String.append_assoc]

/-- The comment at the head of a file ends where its text ends. -/
theorem closesAtEnd_header (g : EndpointGroup) : ClosesAtEnd (header g) := by
  have hmark : " */" = " " ++ "*/" := rfl
  have hopening : "/**" = "/" ++ "**" := rfl
  have hsplit : header g = "/" ++ ("**" ++ "\n" ++ " * " ++ g.pascalTag ++ " Endpoints" ++ "\n"
      ++ " * Auto-generated from Swagger specification" ++ "\n" ++ " ") ++ "*/" := by
    simp only [header, String.intercalate_cons_cons, String.intercalate_singleton, hmark, hopening,
      String.append_assoc]
  -- Behind its first character the text has no slash.
  have htag : '/' ∉ g.pascalTag.toList := fun hslash =>
    absurd (Naming.alphanumeric_pascalCase _ hslash) (by decide)
  have hslash : '/' ∉ ("**" ++ "\n" ++ " * " ++ g.pascalTag ++ " Endpoints" ++ "\n"
      ++ " * Auto-generated from Swagger specification" ++ "\n" ++ " ").toList := by
    simp only [String.toList_append, List.mem_append, htag, or_false]
    decide
  rw [hsplit, closesAtEnd_append_iff, String.toList_append]
  rintro h
  rcases List.infix_cons_iff.mp h with h | h
  · exact closingMark_not_prefix_of_ne (by decide) h
  · exact hslash (h.subset (by decide))

/-- The comment of an endpoint ends where its text ends exactly if the path has no closing mark. -/
theorem closesAtEnd_comment_iff {e : Endpoint} (hmethod : '*' ∉ e.method.toList)
    (hdescription : ¬ closingMark <:+: e.description.toList) :
    ClosesAtEnd (comment e) ↔ ¬ closingMark <:+: e.path.toList := by
  have hsplit : comment e = "/** " ++ (e.method ++ " " ++ e.path
      ++ (if e.description.isEmpty then "" else ": " ++ e.description)) ++ " */" := by
    simp only [comment, String.append_assoc]
  -- A blank stands between method and path, and no mark reaches across it.
  have hmethod' := closingMark_not_infix_of_not_mem hmethod
  have hpath : closingMark <:+: (e.method ++ " " ++ e.path
      ++ (if e.description.isEmpty then "" else ": " ++ e.description)).toList ↔
      closingMark <:+: (e.path
        ++ (if e.description.isEmpty then "" else ": " ++ e.description)).toList := by
    have hlist : (e.method ++ " " ++ e.path
        ++ (if e.description.isEmpty then "" else ": " ++ e.description)).toList
        = e.method.toList ++ ' ' :: (e.path
          ++ (if e.description.isEmpty then "" else ": " ++ e.description)).toList := by
      simp only [String.toList_append, List.append_assoc]
      rfl
    rw [hlist, closingMark_infix_append_cons (by decide) (by decide), or_iff_right hmethod']
  rw [hsplit, closesAtEnd_around_iff, hpath, not_iff_not]
  split
  · rw [String.append_empty]
  · -- Nor does one reach across the colon and the blank behind the path.
    have hlist : (e.path ++ (": " ++ e.description)).toList
        = e.path.toList ++ ':' :: ([] ++ ' ' :: e.description.toList) := by
      rw [String.toList_append, String.toList_append]
      rfl
    have hempty : ¬ closingMark <:+: [] := by decide
    rw [hlist, closingMark_infix_append_cons (by decide) (by decide),
      closingMark_infix_append_cons (by decide) (by decide), or_iff_right hempty,
      or_iff_left hdescription]

/-- A file has a comment at its head and one for each endpoint. -/
theorem comments_pieces (g : EndpointGroup) :
    comments (pieces g) = header g :: g.endpoints.map comment := by
  rw [pieces, comments_append, comments_append, comments_flatMap]
  simp only [comments_comment, comments_code, comments_nil, List.append_nil, List.cons_append,
    List.nil_append]
  rw [← List.map_eq_flatMap]

/-- The comments of a file end where their texts end exactly if no path has a closing mark. -/
theorem closed_pieces_iff {g : EndpointGroup}
    (hendpoints : ∀ e ∈ g.endpoints, '*' ∉ e.method.toList ∧
      ¬ closingMark <:+: e.description.toList) :
    Closed (pieces g) ↔ ∀ e ∈ g.endpoints, ¬ closingMark <:+: e.path.toList := by
  rw [Closed, comments_pieces, List.forall_mem_cons, and_iff_right (closesAtEnd_header g),
    List.forall_mem_map]
  exact forall₂_congr fun e he =>
    closesAtEnd_comment_iff (hendpoints e he).1 (hendpoints e he).2

end EndpointFile

/-! ## Hooks -/

namespace Hook

variable {h : Hook} {s : Settings}

/-- The comment that describes an endpoint, on a line of its own. -/
def commentPieces (indent : String) (e : Endpoint) : List Piece :=
  if e.description.isEmpty then []
  else [.code indent, .comment ("/** " ++ e.description ++ " */"), .code "\n"]

/-- The pieces of a file with the hook of a single endpoint. -/
def singlePieces (h : Hook) (s : Settings) : List Piece :=
  [.code (textOfLines (h.headLines s))]
    ++ (h.parts.flatMap fun p => commentPieces "" p.endpoint)
    ++ [.code (textOfLines ([h.openingLine]
      ++ h.parts.flatMap stateLines
      ++ h.parts.flatMap (h.callLines s h.name)
      ++ ["  return \x7b " ++ ", ".intercalate (h.parts.flatMap fun p =>
          [p.names.data, p.names.loading, p.names.error, p.names.call]) ++ " \x7d;",
        "\x7d;"]))]

/-- The pieces of a file with a hook for several endpoints. -/
def combinedPieces (h : Hook) (s : Settings) : List Piece :=
  [.code (textOfLines (h.headLines s ++ [h.openingLine] ++ h.parts.flatMap stateLines))]
    ++ (h.parts.flatMap fun p => commentPieces "  " p.endpoint
      ++ [.code (textOfLines (h.callLines s p.names.call p))])
    ++ [.code (textOfLines (["  return \x7b"]
      ++ (h.parts.flatMap fun p =>
        [p.names.data, p.names.loading, p.names.error, p.names.call].map ("    " ++ · ++ ","))
      ++ ["  \x7d;", "\x7d;"]))]

/-- The pieces of the comment of a hook make up its lines. -/
theorem textOf_commentPieces (indent : String) (e : Endpoint) :
    textOf (commentPieces indent e) = textOfLines (commentLines indent e) := by
  rw [commentPieces, commentLines]
  split
  · rfl
  · simp only [textOfLines, List.map_cons, List.map_nil, String.join_cons, String.join_nil,
      textOf_cons, textOf_nil, Piece.text, String.append_assoc, String.append_empty]

/-- The pieces of a hook for one operation make up its text. -/
theorem textOf_singlePieces (h : Hook) (s : Settings) :
    textOf (h.singlePieces s) = h.singleText s := by
  simp only [singlePieces, singleText, textOf_append, textOf_flatMap, textOf_commentPieces,
    textOf_cons, textOf_nil, Piece.text, textOfLines_append, textOfLines_flatMap,
    String.append_empty, String.append_assoc]

/-- The pieces of a hook for all operations of a tag make up its text. -/
theorem textOf_combinedPieces (h : Hook) (s : Settings) :
    textOf (h.combinedPieces s) = h.combinedText s := by
  simp only [combinedPieces, combinedText, textOf_append, textOf_flatMap, textOf_commentPieces,
    textOf_cons, textOf_nil, Piece.text, textOfLines_append, textOfLines_flatMap,
    String.append_empty, String.append_assoc]

/-- The comments of a hook end where their texts end. -/
theorem closed_commentPieces (indent : String) {e : Endpoint}
    (hdescription : ¬ closingMark <:+: e.description.toList) :
    Closed (commentPieces indent e) := by
  rw [commentPieces]
  split
  · exact fun c hc => absurd hc List.not_mem_nil
  · exact List.forall_mem_singleton.mpr (closesAtEnd_around_iff.mpr hdescription)

/-- All comments of a hook for one operation end where they should if no description has a closing
mark. -/
theorem closed_singlePieces
    (hparts : ∀ p ∈ h.parts, ¬ closingMark <:+: p.endpoint.description.toList) :
    Closed (h.singlePieces s) := by
  exact closed_append.mpr ⟨closed_append.mpr ⟨closed_code _, closed_flatMap.mpr fun p hp =>
    closed_commentPieces _ (hparts p hp)⟩, closed_code _⟩

/-- All comments of a hook for several operations end where they should if no description has a
closing mark. -/
theorem closed_combinedPieces
    (hparts : ∀ p ∈ h.parts, ¬ closingMark <:+: p.endpoint.description.toList) :
    Closed (h.combinedPieces s) := by
  exact closed_append.mpr ⟨closed_append.mpr ⟨closed_code _, closed_flatMap.mpr fun p hp =>
    closed_append.mpr ⟨closed_commentPieces _ (hparts p hp), closed_code _⟩⟩, closed_code _⟩

end Hook

/-! ## All files -/

namespace Output

/-- The pieces of the files of models. -/
def modelPieces (models : ModelSet) : List (List Piece) := models.modules.map models.pieces

/-- The pieces of the files of endpoints. -/
def endpointPieces (groups : List EndpointGroup) : List (List Piece) :=
  groups.map EndpointFile.pieces

/-- The pieces of the files of hooks. -/
def hookPieces (s : Settings) (workingDirectory : List String) (models : ModelSet)
    (groups : List EndpointGroup) : List (List Piece) :=
  groups.flatMap fun g => match s.hooks.pattern with
    | .combined => [(Hook.combined g s workingDirectory models).combinedPieces s]
    | .separate =>
      g.endpoints.map fun e => (Hook.single g s workingDirectory models e).singlePieces s

/-- The pieces of the files of models make up the texts of these files, in the same order. -/
theorem map_textOf_modelPieces (s : Settings) (models : ModelSet) :
    (modelPieces models).map textOf = (modelFiles s models).map GeneratedFile.text := by
  rw [modelPieces, modelFiles, List.map_map, List.map_map]
  refine List.map_congr_left fun module _ => ?_
  simp only [Function.comp_apply, ModelSet.textOf_pieces]

/-- The pieces of the files of endpoints make up the texts of these files, in the same order. -/
theorem map_textOf_endpointPieces (s : Settings) (groups : List EndpointGroup) :
    (endpointPieces groups).map textOf = (endpointFiles s groups).map GeneratedFile.text := by
  rw [endpointPieces, endpointFiles, List.map_map, List.map_map]
  refine List.map_congr_left fun g _ => ?_
  simp only [Function.comp_apply, EndpointFile.textOf_pieces]

/-- The pieces of the files of hooks make up the texts of these files, in the same order. -/
theorem map_textOf_hookPieces (s : Settings) (workingDirectory : List String) (models : ModelSet)
    (groups : List EndpointGroup) :
    (hookPieces s workingDirectory models groups).map textOf
      = (hookFiles s workingDirectory models groups).map GeneratedFile.text := by
  rw [hookPieces, hookFiles, List.map_flatMap, List.map_flatMap]
  refine List.flatMap_congr fun g _ => ?_
  rw [hookTexts, List.map_map]
  cases s.hooks.pattern with
  | combined =>
    simp only [List.map_cons, List.map_nil, Function.comp_apply, Hook.textOf_combinedPieces]
  | separate =>
    simp only [List.map_map]
    refine List.map_congr_left fun e _ => ?_
    simp only [Function.comp_apply, Hook.textOf_singlePieces]

variable {document : Node} {basePaths : List String} {catalog : Catalog} {models : ModelSet}
  {groups : List EndpointGroup} {g : EndpointGroup}

/-- The methods and descriptions of endpoints cannot end a comment. -/
theorem shown_of_mem (hcatalog : Catalog.ofDocument document basePaths = .ok catalog)
    (hgroups : EndpointGroup.ofCatalog models catalog = .ok groups) (hg : g ∈ groups) :
    ∀ e ∈ g.endpoints, '*' ∉ e.method.toList ∧ ¬ closingMark <:+: e.description.toList := by
  obtain ⟨os, hentry, hendpoints⟩ := EndpointGroup.exists_of_mem hgroups hg
  intro e he
  have hshown := List.mem_map_of_mem (f := fun e : Endpoint => (e.method, e.path, e.description)) he
  rw [Endpoint.map_shown_of_ofOperations hendpoints] at hshown
  obtain ⟨o, ho, heq⟩ := List.mem_map.mp hshown
  obtain ⟨hmethod, -, hdescription⟩ : o.method = e.method ∧ o.path = e.path ∧
    Endpoint.describe o = e.description := by simpa using heq
  have hletters : ∀ m ∈ httpMethods.map Naming.upperCase, '*' ∉ m.toList := by decide +kernel
  rw [← hmethod, ← hdescription]
  exact ⟨hletters _ (Catalog.method_mem_of_mem_operations hcatalog
    (Catalog.mem_operations_of_mem hentry ho)), closingMark_not_infix_describe o⟩

/-- The paths of the endpoints are those of the operations. -/
theorem forall_path_iff (hgroups : EndpointGroup.ofCatalog models catalog = .ok groups)
    (P : String → Prop) : (∀ g ∈ groups, ∀ e ∈ g.endpoints, P e.path) ↔
      ∀ o ∈ catalog.operations, P o.path := by
  -- Within one group the endpoints have the paths of their operations, in the same order.
  have hgroup : ∀ {os : List Operation} {endpoints : List Endpoint},
      Endpoint.ofOperations models os = .ok endpoints →
      ((∀ e ∈ endpoints, P e.path) ↔ ∀ o ∈ os, P o.path) := by
    intro os endpoints hendpoints
    have hpaths := congrArg (List.map fun shown : String × String × String => shown.2.1)
      (Endpoint.map_shown_of_ofOperations hendpoints)
    rw [List.map_map, List.map_map] at hpaths
    have hall : (∀ path ∈ endpoints.map Endpoint.path, P path) ↔
        ∀ path ∈ os.map Operation.path, P path := by
      rw [show endpoints.map Endpoint.path = os.map Operation.path from hpaths]
    rwa [List.forall_mem_map, List.forall_mem_map] at hall
  constructor
  · intro h o ho
    obtain ⟨entry, hentry, ho⟩ := List.mem_flatMap.mp ho
    obtain ⟨g, hg, hendpoints⟩ := EndpointGroup.exists_of_mem_catalog hgroups hentry
    exact (hgroup hendpoints).mp (h g hg) o ho
  · intro h g hg
    obtain ⟨os, hentry, hendpoints⟩ := EndpointGroup.exists_of_mem hgroups hg
    exact (hgroup hendpoints).mpr fun o ho => h o (Catalog.mem_operations_of_mem hentry ho)

/-- The files of models, endpoints and hooks are put together from pieces. In those of models and
hooks all comments end where their texts end, whatever the document says. In those of endpoints they
do exactly if no path has a closing mark. -/
theorem comments_close_at_end_iff (hcatalog : Catalog.ofDocument document basePaths = .ok catalog)
    (hgroups : EndpointGroup.ofCatalog models catalog = .ok groups) (s : Settings)
    (workingDirectory : List String) :
    ((modelPieces models).map textOf = (modelFiles s models).map GeneratedFile.text ∧
      (endpointPieces groups).map textOf = (endpointFiles s groups).map GeneratedFile.text ∧
      (hookPieces s workingDirectory models groups).map textOf
        = (hookFiles s workingDirectory models groups).map GeneratedFile.text) ∧
    (∀ pieces ∈ modelPieces models ++ hookPieces s workingDirectory models groups,
      ∀ c ∈ comments pieces, ClosesAtEnd c) ∧
    ((∀ pieces ∈ endpointPieces groups, ∀ c ∈ comments pieces, ClosesAtEnd c) ↔
      ∀ o ∈ catalog.operations, ¬ closingMark <:+: o.path.toList) := by
  -- What is shown in the files comes from the operations of the catalog.
  have hshown := fun g hg => shown_of_mem hcatalog hgroups (g := g) hg
  refine ⟨⟨map_textOf_modelPieces s models, map_textOf_endpointPieces s groups,
    map_textOf_hookPieces s workingDirectory models groups⟩, ?_, ?_⟩
  · intro pieces hpieces
    rcases List.mem_append.mp hpieces with hpieces | hpieces
    · obtain ⟨module, -, rfl⟩ := List.mem_map.mp hpieces
      exact models.closed_pieces module
    · obtain ⟨g, hg, hpieces⟩ := List.mem_flatMap.mp hpieces
      split at hpieces
      · rw [List.mem_singleton.mp hpieces]
        exact Hook.closed_combinedPieces (List.forall_mem_map.mpr fun e he => (hshown g hg e he).2)
      · obtain ⟨e, he, rfl⟩ := List.mem_map.mp hpieces
        exact Hook.closed_singlePieces (List.forall_mem_singleton.mpr (hshown g hg e he).2)
  · -- Only the path is shown unchanged, in the comment of its endpoint.
    rw [← forall_path_iff hgroups fun path => ¬ closingMark <:+: path.toList]
    constructor
    · intro h g hg
      exact (EndpointFile.closed_pieces_iff (hshown g hg)).mp (h _ (List.mem_map_of_mem hg))
    · intro h pieces hpieces
      obtain ⟨g, hg, rfl⟩ := List.mem_map.mp hpieces
      exact (EndpointFile.closed_pieces_iff (hshown g hg)).mpr (h g hg)

/-! ## A path with a closing mark -/

/-- A document with one operation on a path. Its summary and the description of its answer have
closing marks. -/
def markedDocument (path : String) : Node :=
  Run.objectOf "paths" (Run.objectOf path (Run.objectOf "get" (.object [
    (.text "summary", .text "All /* files */"),
    (.text "responses", Run.objectOf "200" (Run.objectOf "schema" (.object [
      (.text "description", .text "**/ one *"), (.text "properties", .object [])])))])))

/-- The marks in the summary and in the description do no harm. -/
theorem comments_close_at_end_iff_plain : ∃ catalog models groups,
    Catalog.ofDocument (markedDocument "/files/raw") [] = .ok catalog ∧
    EndpointGroup.ofCatalog models catalog = .ok groups ∧ groups ≠ [] ∧
    ∀ pieces ∈ endpointPieces groups, ∀ c ∈ comments pieces, ClosesAtEnd c := by
  -- The document has one operation, and its path has no closing mark.
  have hread : (EndpointGroup.ofDocument? (markedDocument "/files/raw") []).map
      (fun found => (found.1.operations.map Operation.path, found.2.2.length))
      = some (["/files/raw"], 1) := by decide +kernel
  obtain ⟨⟨catalog, models, groups⟩, hfound, heq⟩ := Option.map_eq_some_iff.mp hread
  obtain ⟨hpaths, hlength⟩ := Prod.mk.inj heq
  obtain ⟨hcatalog, -, hgroups⟩ := EndpointGroup.of_ofDocument? hfound
  obtain ⟨-, -, hiff⟩ :=
    comments_close_at_end_iff hcatalog hgroups (Run.crowdedSettings false true) ["project"]
  refine ⟨catalog, models, groups, hcatalog, hgroups, ?_, hiff.mpr fun o ho => ?_⟩
  · exact List.ne_nil_of_length_pos (hlength ▸ Nat.one_pos)
  · have hpath : o.path ∈ catalog.operations.map Operation.path := List.mem_map_of_mem ho
    rw [hpaths] at hpath
    rw [List.mem_singleton.mp hpath]
    exact closingMark_not_infix_of_not_mem (by decide)

/-- A path can end the comment of its endpoint early. -/
theorem exists_comment_closed_early : ¬ ∀ (document : Node) (s : Settings) (catalog : Catalog)
    (models : ModelSet) (session : Session) (groups : List EndpointGroup),
    Catalog.ofDocument document s.basePaths.paths = .ok catalog →
    (Generation.models { document } catalog).run {} = (.ok models, session) →
    EndpointGroup.ofCatalog models catalog = .ok groups →
    ∀ pieces ∈ endpointPieces groups, ∀ c ∈ comments pieces, ClosesAtEnd c := by
  intro hall
  have hread : (EndpointGroup.ofDocument? (markedDocument "/files/*/raw") []).map
      (fun found => found.2.2.map fun g => g.endpoints.map EndpointFile.comment)
      = some [["/** GET /files/*/raw: All /* files *\\/ */"]] := by decide +kernel
  obtain ⟨⟨catalog, models, groups⟩, hfound, hcomments⟩ := Option.map_eq_some_iff.mp hread
  obtain ⟨hcatalog, ⟨session, hmodels⟩, hgroups⟩ := EndpointGroup.of_ofDocument? hfound
  obtain ⟨g, hg, hone⟩ : ∃ g ∈ groups, g.endpoints.map EndpointFile.comment
      = ["/** GET /files/*/raw: All /* files *\\/ */"] :=
    List.mem_map.mp (by rw [hcomments]; exact List.mem_singleton_self _)
  have hmem : "/** GET /files/*/raw: All /* files *\\/ */" ∈ comments (EndpointFile.pieces g) := by
    rw [EndpointFile.comments_pieces, hone]
    exact List.mem_cons_of_mem _ (List.mem_singleton_self _)
  have hclosed := hall _ (Run.crowdedSettings false true) _ _ _ _ hcatalog hmodels hgroups
    (EndpointFile.pieces g) (List.mem_map_of_mem hg) _ hmem
  -- The mark in the path has the rest of the comment behind it.
  have hrest := hclosed.only "/** GET /files/".toList
    "raw: All /* files *\\/ */".toList (by decide)
  exact absurd hrest (by decide)

end Output

end ClientGen
