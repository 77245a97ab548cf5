import ClientGen.Proofs.Endpoint.Names
import ClientGen.Proofs.Text.Replacement

/-!
# Placeholders of paths

The parameters of a path are rewritten one after another, each in the whole text. What becomes of a
placeholder depends on the text in front of its closing brace only, so it is followed by itself.

* `PathPiece`, `PathTemplate.pieces`: the characters and placeholders of a path.
* `PathTemplate.identifiers`, `PathTemplate.identifierOf`: the identifiers made for parameters.
* `PathTemplate.rewritten`, `PathTemplate.settled`: what one parameter and what all of them make of
  a placeholder.
* `PathTemplate.toList_text_ofPath`: the text of a template, piece by piece.
-/

namespace ClientGen

/-- A part of a path. -/
inductive PathPiece where
  /-- A character of its own. -/
  | char (c : Char)
  /-- A placeholder for a parameter. -/
  | hole (name : List Char)
deriving DecidableEq, Repr

namespace PathPiece

/-- The text of the part. -/
def source : PathPiece → List Char
  | char c => [c]
  | hole name => '{' :: (name ++ ['}'])

/-- The parameter of a placeholder. -/
def parameter? : PathPiece → Option String
  | char _ => none
  | hole name => some (String.ofList name)

end PathPiece

namespace PathTemplate

open BasePath Text

/-! ## Pieces -/

/-- The parts of a path. The first argument counts the characters that still belong to the
placeholder read last. -/
def piecesFrom : Nat → List Char → List PathPiece
  | _, [] => []
  | skip + 1, _ :: cs => piecesFrom skip cs
  | 0, c :: cs =>
    let name := before '}' cs
    if c = '{' && !name.isEmpty && name.length < cs.length then
      .hole name :: piecesFrom (name.length + 1) cs
    else .char c :: piecesFrom 0 cs

/-- The parts of a path. -/
def pieces (path : String) : List PathPiece := piecesFrom 0 path.toList

/-- No placeholder opens in front of the parts: they close at once or not at all. -/
def ClosesNone (ps : List PathPiece) : Prop :=
  ps.head? = some (.char '}') ∨ ∀ p ∈ ps, '}' ∉ p.source

/-- The parts of a path: a placeholder has a name, and other braces open none. -/
inductive Proper : List PathPiece → Prop
  | nil : Proper []
  | char {c : Char} {ps : List PathPiece} (h : c = '{' → ClosesNone ps) (hps : Proper ps) :
    Proper (.char c :: ps)
  | hole {name : List Char} {ps : List PathPiece} (hne : name ≠ []) (hclosed : '}' ∉ name)
    (hps : Proper ps) : Proper (.hole name :: ps)

/-- The parameters of a path are the names of its placeholders, in their order. -/
theorem parameters_eq_filterMap (path : String) :
    parameters path = (pieces path).filterMap PathPiece.parameter? := by
  -- The two scans skip the same characters, whatever number of them is left to skip.
  have hfrom : ∀ skip cs,
      parametersFrom skip cs = (piecesFrom skip cs).filterMap PathPiece.parameter? := by
    intro skip cs
    induction cs generalizing skip with
    | nil => cases skip <;> rfl
    | cons c cs ih =>
      cases skip with
      | succ skip => exact ih skip
      | zero =>
        rw [parametersFrom, piecesFrom]
        split
        · rw [ih]
          rfl
        · rw [ih]
          rfl
  exact hfrom 0 path.toList

/-- Where a brace closes, the text goes on with it behind what stands in front of it. -/
theorem exists_before_append {cs : List Char} (h : (before '}' cs).length < cs.length) :
    ∃ rest, cs = before '}' cs ++ '}' :: rest := by
  have hnot : '}' ∉ before '}' cs := fun hmem => absurd (List.mem_takeWhile_imp hmem) (by decide)
  rcases (before_eq_iff hnot).mp rfl with hall | ⟨rest, hrest⟩
  · exact absurd (congrArg List.length hall) h.ne'
  · exact ⟨rest, by rw [← List.singleton_append, ← List.append_assoc, hrest]⟩

/-- The pieces of a text put together are the text, less what is skipped at its start. -/
theorem flatMap_source_piecesFrom (skip : Nat) (cs : List Char) :
    (piecesFrom skip cs).flatMap PathPiece.source = cs.drop skip := by
  induction cs generalizing skip with
  | nil => cases skip <;> rfl
  | cons c cs ih =>
    cases skip with
    | succ skip => exact ih skip
    | zero =>
      rw [piecesFrom]
      split
      · -- An opened placeholder is its braces around the name, and the scan skips exactly these.
        rename_i hopen
        simp only [Bool.and_eq_true, decide_eq_true_eq] at hopen
        obtain ⟨⟨rfl, -⟩, hlength⟩ := hopen
        obtain ⟨rest, hcs⟩ := exists_before_append hlength
        rw [List.flatMap_cons, ih, PathPiece.source, List.drop_zero]
        generalize before '}' cs = name at hcs ⊢
        rw [hcs]
        simp
      · rw [List.flatMap_cons, ih]
        rfl

/-- The pieces of a path put together are the path. -/
theorem flatMap_source_pieces (path : String) :
    (pieces path).flatMap PathPiece.source = path.toList :=
  flatMap_source_piecesFrom 0 path.toList

/-- Every placeholder that is found has a name, and no brace in it. -/
theorem proper_piecesFrom (skip : Nat) (cs : List Char) : Proper (piecesFrom skip cs) := by
  induction cs generalizing skip with
  | nil => cases skip <;> exact .nil
  | cons c cs ih =>
    cases skip with
    | succ skip => exact ih skip
    | zero =>
      rw [piecesFrom]
      split
      · rename_i hopen
        simp only [Bool.and_eq_true, Bool.not_eq_true', List.isEmpty_eq_false_iff] at hopen
        refine .hole hopen.1.2 (fun hmem => ?_) (ih _)
        simpa using List.mem_takeWhile_imp hmem
      · rename_i hopen
        refine .char (fun hbrace => ?_) (ih 0)
        simp only [hbrace, decide_true, Bool.true_and, Bool.and_eq_true, Bool.not_eq_true',
          List.isEmpty_eq_false_iff, decide_eq_true_eq, not_and_or, not_not, not_lt] at hopen
        rcases hopen with hempty | hlength
        · -- The brace closes at once, or nothing comes behind it.
          cases cs with
          | nil => exact .inr (by simp [piecesFrom])
          | cons d cs =>
            have hclose : d = '}' := by
              by_contra hne
              simp [before, hne] at hempty
            subst hclose
            exact .inl (by simp [piecesFrom])
        · -- No brace closes at all.
          refine .inr fun p hp hclose => ?_
          have hmem : '}' ∈ cs := by
            have hsource := flatMap_source_piecesFrom 0 cs
            rw [List.drop_zero] at hsource
            rw [← hsource]
            exact List.mem_flatMap.mpr ⟨p, hp, hclose⟩
          have hall : before '}' cs = cs :=
            (List.takeWhile_prefix _).eq_of_length (le_antisymm (List.takeWhile_prefix _).length_le
              hlength)
          rw [← hall] at hmem
          simpa using List.mem_takeWhile_imp hmem

/-! ## Replacing in front of a brace -/

section Rewriting

variable {name arg u rest : List Char}

/-- The text in front of a closing brace, with an insertion in place of the name at its end. -/
def rewritten (name arg : List Char) : List Char → List Char
  | [] => []
  | c :: u => if c :: u = '{' :: name then '$' :: '{' :: arg else c :: rewritten name arg u

/-- Replacing a placeholder by its insertion brings no closing brace that was not there. -/
theorem not_mem_rewritten (hu : '}' ∉ u) (harg : '}' ∉ arg) : '}' ∉ rewritten name arg u := by
  induction u with
  | nil => exact hu
  | cons c u ih =>
    rw [List.mem_cons, not_or] at hu
    rw [rewritten]
    split
    · simp [harg]
    · rw [List.mem_cons, not_or]
      exact ⟨hu.1, ih hu.2⟩

/-- In front of a closing brace, a name in braces is found where it is all that is left. -/
theorem startsWith_braced_iff (hname : '}' ∉ name) (hu : '}' ∉ u) :
    startsWith ('{' :: (name ++ ['}'])) (u ++ '}' :: rest) = true ↔ u = '{' :: name := by
  rw [startsWith, List.isPrefixOf_iff_prefix, ← List.cons_append]
  constructor
  · rintro ⟨more, hmore⟩
    have hbraced : '}' ∉ '{' :: name := by simpa using hname
    have hfront := congrArg (List.takeWhile (· ≠ '}')) hmore
    rw [List.append_assoc, List.singleton_append, takeWhile_ne_append hbraced,
      takeWhile_ne_append hu] at hfront
    exact hfront.symm
  · rintro rfl
    exact ⟨rest, by simp⟩

/-- Replacing acts on the text in front of each closing brace by itself. -/
theorem replace_append_brace (hname : '}' ∉ name) (hu : '}' ∉ u) (rest : List Char) :
    replace ('{' :: (name ++ ['}'])) ('$' :: '{' :: (arg ++ ['}'])) (u ++ '}' :: rest)
      = rewritten name arg u ++ '}'
        :: replace ('{' :: (name ++ ['}'])) ('$' :: '{' :: (arg ++ ['}'])) rest := by
  -- The name has no closing brace, so it is found only where it ends at the one behind the text.
  induction u with
  | nil =>
    rw [List.nil_append, replace, replaceSkipping, if_neg (by simp [startsWith])]
    rfl
  | cons c u ih =>
    have hstart : startsWith ('{' :: (name ++ ['}'])) (c :: (u ++ '}' :: rest)) = true
        ↔ c :: u = '{' :: name := startsWith_braced_iff hname hu
    rw [List.cons_append]
    rw [replace, replaceSkipping, rewritten]
    by_cases hfound : c :: u = '{' :: name
    · obtain ⟨rfl, rfl⟩ := List.cons.inj hfound
      rw [if_pos (hstart.mpr rfl), if_pos rfl, replaceSkipping_eq_drop]
      simp [replace]
    · rw [if_neg (hstart.not.mpr hfound), if_neg hfound, List.cons_append]
      exact congrArg _ (ih fun hmem => hu (List.mem_cons_of_mem c hmem))

end Rewriting

/-! ## The text of a template -/

/-- A character of a path inside a template literal. -/
def plainChar (c : Char) : List Char := if c = '`' then ['\\', '`'] else [c]

/-- Escapes have no brace. -/
theorem not_mem_flatMap_plainChar {cs : List Char} (h : '}' ∉ cs) : '}' ∉ cs.flatMap plainChar := by
  intro hmem
  obtain ⟨c, hc, hbrace⟩ := List.mem_flatMap.mp hmem
  rw [plainChar] at hbrace
  split at hbrace
  · exact absurd hbrace (by decide)
  · exact h (List.mem_singleton.mp hbrace ▸ hc)

/-- A part of a path inside a template literal, where the function tells what stands in front of the
closing brace of a placeholder. -/
def render (front : List Char → List Char) : PathPiece → List Char
  | .char c => plainChar c
  | .hole name => front name ++ ['}']

/-- The plain text of a path is that of its pieces. -/
theorem toList_plain (path : String) :
    (plain path).toList
      = (pieces path).flatMap (render fun name => '{' :: name.flatMap plainChar) := by
  have hpiece : ∀ p : PathPiece, p.source.flatMap plainChar
      = render (fun name => '{' :: name.flatMap plainChar) p := by
    intro p
    cases p with
    | char c => exact List.append_nil _
    | hole name => simp [PathPiece.source, render, plainChar]
  calc (plain path).toList
      = path.toList.flatMap plainChar := by rw [plain, String.toList_ofList]; rfl
    _ = (pieces path).flatMap fun p => p.source.flatMap plainChar := by
        rw [← flatMap_source_pieces, List.flatMap_assoc]
    _ = _ := List.flatMap_congr fun p _ => hpiece p

/-- A brace that opens no placeholder is left alone. -/
theorem replace_plainChar {name rest : List Char} {c : Char}
    (h : c = '{' → ∀ more, rest ≠ name ++ '}' :: more) (new : List Char) :
    replace ('{' :: (name ++ ['}'])) new (plainChar c ++ rest)
      = plainChar c ++ replace ('{' :: (name ++ ['}'])) new rest := by
  have hother : ∀ d more, d ≠ '{' → startsWith ('{' :: (name ++ ['}'])) (d :: more) = false :=
    fun d more hd => startsWith_cons_of_ne hd.symm _ more
  unfold plainChar
  split
  · rw [List.cons_append, List.cons_append, List.nil_append, replace_cons (hother _ _ (by decide)),
      replace_cons (hother _ _ (by decide))]
    rfl
  · refine replace_cons (Bool.eq_false_iff.mpr fun hstart => ?_) new
    rw [startsWith, List.isPrefixOf_iff_prefix] at hstart
    obtain ⟨more, hmore⟩ := hstart
    change '{' :: (name ++ ['}'] ++ more) = c :: rest at hmore
    obtain ⟨hc, hrest⟩ := List.cons.inj hmore
    exact h hc.symm more (by rw [← hrest]; simp)

/-- No name is closed in the text: a brace closes it at once, or none does. -/
def Unopened (cs : List Char) : Prop := cs.head? = some '}' ∨ '}' ∉ cs

/-- A text in which no name is closed does not begin with a name and its closing brace. -/
theorem Unopened.ne_append {cs name : List Char} (h : Unopened cs) (hne : name ≠ [])
    (hname : '}' ∉ name) (more : List Char) : cs ≠ name ++ '}' :: more := by
  rintro rfl
  rcases h with hhead | hnone
  · -- The brace that closes at once would belong to the name.
    obtain ⟨d, name, rfl⟩ := List.exists_cons_of_ne_nil hne
    exact hname (Option.some.inj hhead ▸ List.mem_cons_self)
  · exact hnone (by simp)

/-- Parts in front of which no placeholder opens are rendered as a text that closes no name. -/
theorem ClosesNone.unopened {ps : List PathPiece} (h : ClosesNone ps)
    (front : List Char → List Char) : Unopened (ps.flatMap (render front)) := by
  rcases h with hhead | hnone
  · obtain ⟨rest, rfl⟩ := List.head?_eq_some_iff.mp hhead
    -- A closing brace in the text comes from a character of a piece or from a written name.
    exact .inl rfl
  · refine .inr fun hmem => ?_
    obtain ⟨p, hp, hclose⟩ := List.mem_flatMap.mp hmem
    cases p with
    | char c =>
      have hc : '}' = c := by
        rw [render, plainChar] at hclose
        split at hclose
        · exact absurd hclose (by decide)
        · exact List.mem_singleton.mp hclose
      exact hnone _ hp (by rw [hc]; exact List.mem_singleton_self _)
    | hole n => exact hnone _ hp (by simp [PathPiece.source])

/-- One parameter rewrites each placeholder by itself. -/
theorem replace_render {front : List Char → List Char} {ps : List PathPiece} (hps : Proper ps)
    (hfront : ∀ name, '}' ∉ name → '}' ∉ front name) {name arg : List Char} (hne : name ≠ [])
    (hname : '}' ∉ name) :
    replace ('{' :: (name ++ ['}'])) ('$' :: '{' :: (arg ++ ['}'])) (ps.flatMap (render front))
      = ps.flatMap (render fun n => rewritten name arg (front n)) := by
  induction hps with
  | nil => rfl
  | @char c ps h hps ih =>
    rw [List.flatMap_cons, render,
      replace_plainChar fun hc => ((h hc).unopened front).ne_append hne hname, ih]
    rfl
  | @hole n ps _ hclosed _ ih =>
    rw [List.flatMap_cons, render, List.append_assoc, List.singleton_append,
      replace_append_brace hname (hfront n hclosed), ih, List.flatMap_cons, render]
    simp

/-! ## Identifiers -/

/-- The names of some parameters with the identifiers that are made for them, if the given arguments
have been made before. -/
def identifiersFrom (args : List String) : List String → List (String × String)
  | [] => []
  | name :: names =>
    let arg := argument args name
    (name, arg) :: identifiersFrom (if args.contains arg then args else args ++ [arg]) names

/-- The parameters of a path in order, each with the identifier that is made for it. -/
def identifiers (path : String) : List (String × String) := identifiersFrom [] (parameters path)

/-- The identifier for a parameter: the one that is made first. -/
def identifierOf (path name : String) : String := ((identifiers path).lookup name).getD ""

theorem identifiersFrom_cons (t : PathTemplate) (name : String) (names : List String) :
    identifiersFrom t.args (name :: names)
      = (name, argument t.args name) :: identifiersFrom (t.insert name).args names := rfl

/-- Each name gets one identifier, in the order of the names. -/
theorem map_fst_identifiersFrom (args names : List String) :
    (identifiersFrom args names).map Prod.fst = names := by
  induction names generalizing args with
  | nil => rfl
  | cons name names ih => rw [identifiersFrom, List.map_cons, ih]

/-- Identifiers that are given, and arguments that were there, are arguments in the end. -/
theorem mem_args_of_mem_identifiersFrom {t : PathTemplate} {names : List String}
    {p : String × String} (h : p ∈ identifiersFrom t.args names ∨ p.2 ∈ t.args) :
    p.2 ∈ (names.foldl insert t).args := by
  induction names generalizing t with
  | nil => simpa [identifiersFrom] using h
  | cons name names ih =>
    rw [List.foldl_cons]
    refine ih ?_
    rw [identifiersFrom_cons, List.mem_cons] at h
    -- An insertion keeps every argument and brings the one it stands for.
    have hinsert : argument t.args name ∈ (t.insert name).args ∧
        ∀ arg ∈ t.args, arg ∈ (t.insert name).args := by
      rw [insert]
      dsimp only
      split
      · exact ⟨List.contains_iff_mem.mp ‹_›, fun _ harg => harg⟩
      · exact ⟨List.mem_append_right _ (List.mem_singleton_self _),
          fun _ harg => List.mem_append_left _ harg⟩
    rcases h with (heq | hmem) | hargs
    · exact .inr (by simpa only [heq] using hinsert.1)
    · exact .inl hmem
    · exact .inr (hinsert.2 _ hargs)

/-- The argument for a name has letters and digits only. -/
theorem alphanumeric_argument (args : List String) (name : String) :
    Endpoint.Alphanumeric (argument args name) := by
  rw [argument]
  split
  · exact Endpoint.Alphanumeric.append (by decide) (Endpoint.alphanumeric_toString _)
  · exact fun c hc => Naming.alphanumeric_camelCase name hc

/-- The argument for a name is not empty. -/
theorem argument_ne_empty (args : List String) (name : String) :
    (argument args name).toList ≠ [] := by
  rw [argument]
  split
  · simp
  · rename_i hempty
    simpa using hempty

/-- Each identifier is the argument for its name, with some arguments given before it. -/
theorem exists_argument_of_mem {args names : List String} {p : String × String}
    (h : p ∈ identifiersFrom args names) : ∃ earlier, p.2 = argument earlier p.1 := by
  induction names generalizing args with
  | nil => simp [identifiersFrom] at h
  | cons name names ih =>
    rw [identifiersFrom, List.mem_cons] at h
    rcases h with heq | h
    · exact ⟨args, by rw [heq]⟩
    · exact ih h

/-! ## The whole text -/

/-- What all parameters make of the text in front of a closing brace. -/
def settled (made : List (String × String)) (u : List Char) : List Char :=
  made.foldl (fun u p => rewritten p.1.toList p.2.toList u) u

theorem settled_cons (p : String × String) (made : List (String × String)) (u : List Char) :
    settled (p :: made) u = settled made (rewritten p.1.toList p.2.toList u) := rfl

/-- A placeholder among the pieces has a name, and no closing brace in it. -/
theorem Proper.of_mem {ps : List PathPiece} (h : Proper ps) {name : List Char}
    (hmem : .hole name ∈ ps) : name ≠ [] ∧ '}' ∉ name := by
  induction h with
  | nil => simp at hmem
  | char _ _ ih => exact ih (by simpa using hmem)
  | hole hne hclosed _ ih =>
    rcases List.mem_cons.mp hmem with heq | hmem
    · cases heq
      exact ⟨hne, hclosed⟩
    · exact ih hmem

/-- A path has a parameter exactly if one of its pieces is the placeholder of that name. -/
theorem mem_parameters_iff {path name : String} :
    name ∈ parameters path ↔ .hole name.toList ∈ pieces path := by
  rw [parameters_eq_filterMap, List.mem_filterMap]
  constructor
  · rintro ⟨p, hp, hname⟩
    cases p with
    | char c => cases hname
    | hole n =>
      obtain rfl : String.ofList n = name := Option.some.inj hname
      rwa [String.toList_ofList]
  · exact fun h => ⟨_, h, by rw [PathPiece.parameter?, String.ofList_toList]⟩

/-- A name in braces begins with the opening one and ends with the closing one. -/
theorem toList_braced (name : String) : (braced name).toList = '{' :: (name.toList ++ ['}']) := by
  simp [braced]

/-- Inserting parameters one by one leaves the pieces as they are, each placeholder as its name is
settled. -/
theorem toList_text_foldl_insert {ps : List PathPiece} (hps : Proper ps) {names : List String}
    (hnames : ∀ name ∈ names, name.toList ≠ [] ∧ '}' ∉ name.toList) {t : PathTemplate}
    {front : List Char → List Char} (hfront : ∀ name, '}' ∉ name → '}' ∉ front name)
    (ht : t.text.toList = ps.flatMap (render front)) :
    (names.foldl insert t).text.toList
      = ps.flatMap (render fun n => settled (identifiersFrom t.args names) (front n)) := by
  -- Each parameter leaves a text of the same pieces, with other fronts of the closing braces.
  induction names generalizing t front with
  | nil => exact ht
  | cons name names ih =>
    obtain ⟨hname, hrest⟩ := List.forall_mem_cons.mp hnames
    have harg : '}' ∉ (argument t.args name).toList := fun hmem =>
      absurd (alphanumeric_argument t.args name _ hmem) (by decide)
    have htext : (t.insert name).text.toList = ps.flatMap
        (render fun n => rewritten name.toList (argument t.args name).toList (front n)) := by
      rw [insert]
      dsimp only
      rw [String.toList_ofList, String.toList_append, toList_braced, toList_braced, ht]
      exact replace_render hps hfront hname.1 hname.2
    rw [List.foldl_cons, ih hrest (fun n hn => not_mem_rewritten (hfront n hn) harg) htext]
    simp only [identifiersFrom_cons, settled_cons]

/-- The text of a template has the characters of the path, and for each placeholder what all
parameters make of it. -/
theorem toList_text_ofPath (path : String) :
    (ofPath path).text.toList = (pieces path).flatMap
      (render fun name => settled (identifiers path) ('{' :: name.flatMap plainChar)) := by
  have hproper : Proper (pieces path) := proper_piecesFrom 0 path.toList
  refine toList_text_foldl_insert hproper (fun name hname => ?_) (fun name hname => ?_)
    (toList_plain path)
  · exact hproper.of_mem (mem_parameters_iff.mp hname)
  · rw [List.mem_cons, not_or]
    exact ⟨by decide, not_mem_flatMap_plainChar hname⟩

end PathTemplate

end ClientGen
