import ClientGen.Proofs.Endpoint.Backslashes

/-!
# Values of texts with insertions

A text that is made from a path comes to the path with values in place of its parameters, whichever
they are, exactly if all of its placeholders have become insertions and nothing else in it has a
meaning in a template literal.

* `PathTemplate.expected`: what a part of a path ought to come to.
* `PathTemplate.Inserts`: what a text has to be.
* `PathTemplate.Inserts.evaluate`: its value.
* `PathTemplate.inserts_of_evaluate`: what is known of a text from its value.
-/

namespace ClientGen

namespace PathTemplate

open BasePath TemplateLiteral Text

/-- What a part of a path ought to come to. -/
def expected (path : String) (values : String → String) : PathPiece → List Nat
  | .char c => Units.ofChar c
  | .hole name => Units.ofText (values (identifierOf path (String.ofList name))).toList

/-- A dollar sign in front of a brace that opens no placeholder. -/
def loneInsertion : List PathPiece := [.char '$', .char '{']

/-! ## Texts with insertions -/

/-- Each placeholder has become the insertion of its identifier, and no other part of a path has a
meaning in a template literal. -/
structure Inserts (path : String) (front : List Char → List Char) (ps : List PathPiece) : Prop where
  /-- The placeholders are insertions of their identifiers. -/
  holes : ∀ name, .hole name ∈ ps →
    front name = '$' :: '{' :: (identifierOf path (String.ofList name)).toList ∧
      isArgument (identifierOf path (String.ofList name)) = true
  /-- Nothing is escaped. -/
  backslash_not_mem : .char '\\' ∉ ps
  /-- There are no carriage returns. -/
  return_not_mem : .char '\r' ∉ ps
  /-- There is no other insertion. -/
  lone : ¬ loneInsertion <:+: ps

/-- The identifier of a name has letters and digits only. -/
theorem alphanumeric_identifierOf (path name : String) :
    Endpoint.Alphanumeric (identifierOf path name) := by
  rw [identifierOf]
  cases hlookup : (identifiers path).lookup name with
  | none => exact fun c hc => absurd hc (by simp)
  | some arg =>
    obtain ⟨before, after, hmade, -⟩ := List.lookup_eq_some_iff.mp hlookup
    have hmem : (name, arg) ∈ identifiersFrom [] (parameters path) := by
      rw [← identifiers, hmade]
      simp
    obtain ⟨earlier, harg⟩ := exists_argument_of_mem hmem
    rw [Option.getD_some]
    exact (show arg = argument earlier name from harg) ▸ alphanumeric_argument earlier name

/-- No other character stands in the identifier of a name. -/
theorem not_mem_identifierOf (path name : String) {c : Char} (hc : isAsciiAlphanumeric c = false) :
    c ∉ (identifierOf path name).toList := fun hmem => by
  have halpha := alphanumeric_identifierOf path name c hmem
  rw [hc] at halpha
  cases halpha

section Evaluation

variable {path : String} {args : List String} {v : String → Option (List Nat)} {c : Char}
  {cs w rest : List Char} {ps behind : List PathPiece} {front : List Char → List Char}

/-- Behind a dollar sign comes no brace where placeholders are insertions. -/
theorem Inserts.head_ne_brace (h : Inserts path front (.char '$' :: ps)) :
    (ps.flatMap (render front)).head? ≠ some '{' := by
  intro hbrace
  -- The next piece would have to begin with the brace, which is what a lone dollar rules out.
  cases ps with
  | nil => cases hbrace
  | cons p ps =>
    cases p with
    | char d =>
      rw [List.flatMap_cons, render, plainChar] at hbrace
      split at hbrace
      · cases hbrace
      · obtain rfl : d = '{' := Option.some.inj hbrace
        exact h.lone ⟨[], ps, rfl⟩
    | hole name =>
      rw [List.flatMap_cons, render, (h.holes name (by simp)).1] at hbrace
      cases hbrace

/-- What holds of all pieces holds of those behind the first one. -/
theorem Inserts.tail {p : PathPiece} (h : Inserts path front (p :: ps)) :
    Inserts path front ps where
  holes := fun name hmem => h.holes name (List.mem_cons_of_mem p hmem)
  backslash_not_mem := fun hmem => h.backslash_not_mem (List.mem_cons_of_mem p hmem)
  return_not_mem := fun hmem => h.return_not_mem (List.mem_cons_of_mem p hmem)
  lone := fun hinfix => h.lone (List.infix_cons hinfix)

/-- Where each placeholder has become an insertion, the parts are evaluated one by one. -/
theorem Inserts.evaluate (h : Inserts path front ps)
    (hargs : ∀ name, .hole name ∈ ps → identifierOf path (String.ofList name) ∈ args)
    (values : String → String) :
    TemplateLiteral.evaluate (argumentValue? args values) (ps.flatMap (render front))
      = some (ps.flatMap (expected path values)) := by
  induction ps with
  | nil => rfl
  | cons p ps ih =>
    have hrest := ih h.tail fun name hmem => hargs name (List.mem_cons_of_mem p hmem)
    cases p with
    | char c =>
      -- Neither of the marks that a template literal changes stands in the text.
      have hmark : c ∉ ['\\', '\r'] := by
        have hslash : '\\' ≠ c := fun heq => h.backslash_not_mem (heq ▸ List.mem_cons_self)
        have hreturn : '\r' ≠ c := fun heq => h.return_not_mem (heq ▸ List.mem_cons_self)
        simp [hslash.symm, hreturn.symm]
      have hinsert : c = '$' → (ps.flatMap (render front)).head? ≠ some '{' := by
        rintro rfl
        exact h.head_ne_brace
      rw [List.flatMap_cons, render, evaluate_plainChar hmark hinsert, hrest]
      rfl
    | hole name =>
      obtain ⟨htext, hargument⟩ := h.holes name List.mem_cons_self
      have hclosed := not_mem_identifierOf path (String.ofList name) (c := '}') (by decide)
      have hvalue : argumentValue? args values
          (String.ofList (identifierOf path (String.ofList name)).toList)
            = some (expected path values (.hole name)) := by
        rw [String.ofList_toList, argumentValue?, hargument,
          List.contains_iff_mem.mpr (hargs name List.mem_cons_self)]
        rfl
      rw [List.flatMap_cons, render, htext, List.append_assoc, List.cons_append, List.cons_append,
        List.singleton_append, evaluate_insertion hclosed, hvalue, hrest]
      rfl

/-! ## What is known from the value -/

/-- What is inserted has the value of an identifier for all values only if it is the identifier. -/
theorem insertion_of_evaluate {arg : String} {more : (String → String) → List Nat} (hw : '}' ∉ w)
    (h : ∀ values, TemplateLiteral.evaluate (argumentValue? args values)
      ('$' :: '{' :: (w ++ '}' :: rest))
        = some (Units.ofText (values arg).toList ++ more values)) :
    arg = String.ofList w ∧ isArgument arg = true ∧ ∀ values,
      TemplateLiteral.evaluate (argumentValue? args values) rest = some (more values) := by
  have hinserted : ∀ values, ∃ later, isArgument (String.ofList w) = true ∧
      TemplateLiteral.evaluate (argumentValue? args values) rest = some later ∧
      Units.ofText (values (String.ofList w)).toList ++ later
        = Units.ofText (values arg).toList ++ more values := by
    intro values
    have hvalue := h values
    rw [evaluate_insertion hw, Option.bind_eq_some_iff] at hvalue
    obtain ⟨units, hunits, hlater⟩ := hvalue
    obtain ⟨hargument, rfl⟩ := argumentValue?_eq_some_iff.mp hunits
    obtain ⟨later, hlater, heq⟩ := Option.map_eq_some_iff.mp hlater
    exact ⟨later, (Bool.and_eq_true _ _ ▸ hargument).1, hlater, heq⟩
  -- Values that tell the inserted identifier from all others.
  have harg : arg = String.ofList w := by
    by_contra hne
    obtain ⟨later, -, -, heq⟩ := hinserted fun n => if n = String.ofList w then "a" else "b"
    rw [if_pos rfl, if_neg hne] at heq
    exact absurd (List.cons.inj heq).1 (by decide)
  subst harg
  refine ⟨rfl, ?_, fun values => ?_⟩
  · obtain ⟨-, hargument, -⟩ := hinserted fun _ => ""
    exact hargument
  · obtain ⟨later, -, hlater, heq⟩ := hinserted values
    rw [hlater, List.append_cancel_left heq]

/-- A placeholder whose value is the value of its identifier, whichever that is, has become the
insertion of the identifier. -/
theorem front_of_evaluate {u : List Char} {arg : String} {more : (String → String) → List Nat}
    (hu : Front u)
    (h : ∀ values, TemplateLiteral.evaluate (argumentValue? args values) (u ++ '}' :: rest)
      = some (Units.ofText (values arg).toList ++ more values)) :
    u = '$' :: '{' :: arg.toList ∧ isArgument arg = true ∧ ∀ values,
      TemplateLiteral.evaluate (argumentValue? args values) rest = some (more values) := by
  have hletter : TemplateLiteral.evaluate (argumentValue? args fun _ => "a") (u ++ '}' :: rest)
      = some (97 :: more fun _ => "a") := h fun _ => "a"
  obtain ⟨m, w, rfl, hw⟩ := hu.exists_eq
  match m with
  | 0 =>
    -- The brace would come first in the value.
    obtain ⟨later, -, hout⟩ :=
      exists_of_evaluate_cons (by decide) (fun heq => absurd heq (by decide)) hletter
    exact absurd (List.cons.inj hout).1 (by decide)
  | 1 =>
    obtain ⟨rfl, hargument, hrest⟩ := insertion_of_evaluate hw h
    exact ⟨by rw [String.toList_ofList]; rfl, hargument, hrest⟩
  | m + 2 =>
    -- A dollar sign would come first.
    change TemplateLiteral.evaluate _ ('$' :: '$' :: (List.replicate m '$' ++ '{' :: w ++ _)) = _
      at hletter
    obtain ⟨later, -, hout⟩ := exists_of_evaluate_cons (by decide) (fun _ => by simp) hletter
    exact absurd (List.cons.inj hout).1 (by decide)

/-- A carriage return does not stand for itself. -/
theorem not_evaluate_return {more : List Nat} :
    TemplateLiteral.evaluate v (plainChar '\r' ++ rest) ≠ some (Units.ofChar '\r' ++ more) := by
  intro h
  change TemplateLiteral.evaluate v ('\r' :: rest) = _ at h
  rw [evaluate_return, Option.map_eq_some_iff] at h
  obtain ⟨later, hlater, hout⟩ := h
  split at hout
  · -- The line feed behind it comes first.
    rename_i hfeed
    obtain ⟨rest, rfl⟩ := List.head?_eq_some_iff.mp hfeed
    obtain ⟨_, -, rfl⟩ :=
      exists_of_evaluate_cons (by decide) (fun heq => absurd heq (by decide)) hlater
    exact absurd (List.cons.inj hout).1 (by decide)
  · exact absurd (List.cons.inj hout).1 (by decide)

/-- The parts of a path up to the first placeholder. -/
theorem exists_run (ps : List PathPiece) :
    ∃ (cs : List Char) (behind : List PathPiece), ps = cs.map PathPiece.char ++ behind ∧
      (behind = [] ∨ ∃ name ps', behind = .hole name :: ps') := by
  induction ps with
  | nil => exact ⟨[], [], rfl, .inl rfl⟩
  | cons p ps ih =>
    cases p with
    | char c =>
      obtain ⟨cs, behind, rfl, hbehind⟩ := ih
      exact ⟨c :: cs, behind, rfl, hbehind⟩
    | hole name => exact ⟨[], _, rfl, .inr ⟨name, ps, rfl⟩⟩

/-- The text of characters of a path is their plain text. -/
theorem flatMap_render_run (front : List Char → List Char) (cs : List Char) :
    (cs.map PathPiece.char).flatMap (render front) = plainText cs := List.flatMap_map _ _ _

/-- The characters of a path ought to come to their own units. -/
theorem flatMap_expected_run (path : String) (values : String → String) (cs : List Char) :
    (cs.map PathPiece.char).flatMap (expected path values) = Units.ofText cs :=
  List.flatMap_map _ _ _

/-- In front of proper pieces, the braces among characters open nothing. -/
theorem dead_of_proper (front : List Char → List Char)
    (h : Proper (cs.map PathPiece.char ++ behind)) : Dead (behind.flatMap (render front)) cs := by
  induction cs with
  | nil => trivial
  | cons c cs ih =>
    cases h with
    | char hclosed hps =>
      refine ⟨fun hc => ?_, ih hps⟩
      have hunopened : Unopened ((cs.map PathPiece.char ++ behind).flatMap (render front)) :=
        (hclosed hc).unopened front
      rwa [List.flatMap_append, flatMap_render_run] at hunopened

/-- A name in braces that has another character than digits is no code point. -/
theorem braceEscape?_of_no_digit (hw : '}' ∉ w) (hdigit : ∃ c ∈ w, Hexadecimal.value? c = none)
    (rest : List Char) : braceEscape? (w ++ '}' :: rest) = none := by
  obtain ⟨c, hc, hnone⟩ := hdigit
  have hbefore : before '}' (w ++ '}' :: rest) = w := takeWhile_ne_append hw rest
  rw [braceEscape?, hbefore, number?_eq_none hnone hc]
  simp

/-- What stands in front of the closing brace of a placeholder when all parameters had their
turns. -/
structure Finished (u : List Char) : Prop where
  /-- Only dollar signs are in front of the brace that opens the placeholder. -/
  front : Front u
  /-- Without any, the placeholder is no code point. -/
  no_digit : ∀ w, u = '{' :: w → ∃ c ∈ w, Hexadecimal.value? c = none

/-- A backslash is never read as itself. -/
theorem not_evaluates_of_backslash (hps : Proper (.char '\\' :: ps))
    (hfront : ∀ name, .hole name ∈ ps → Finished (front name)) :
    ¬ ∀ values, TemplateLiteral.evaluate (argumentValue? args values)
      ((.char '\\' :: ps).flatMap (render front))
        = some ((.char '\\' :: ps).flatMap (expected path values)) := by
  intro h
  -- What ends the run of plain characters decides, the end of the path or a hole.
  obtain ⟨cs, behind, rfl, hbehind⟩ := exists_run ps
  have hrun : .char '\\' :: (cs.map PathPiece.char ++ behind)
      = ('\\' :: cs).map PathPiece.char ++ behind := rfl
  rw [hrun] at hps h
  have hdead := dead_of_proper front hps
  simp only [List.flatMap_append, flatMap_render_run, flatMap_expected_run] at h
  rcases hbehind with rfl | ⟨name, ps, rfl⟩
  · refine not_evaluates_of_backslash_end (v := argumentValue? args fun _ => "") rfl
      List.mem_cons_self hdead ?_
    simpa using h fun _ => ""
  · have hfinished := hfront name (by simp)
    obtain ⟨m, w, hname, hw⟩ := hfinished.front.exists_eq
    have hrender : (PathPiece.hole name :: ps).flatMap (render front)
        = List.replicate m '$' ++ '{' :: (w ++ '}' :: ps.flatMap (render front)) := by
      rw [List.flatMap_cons, render, hname]
      simp
    rw [hrender] at hdead
    simp only [hrender] at h
    refine not_evaluates_of_backslash_hole List.mem_cons_self hdead (fun hm => ?_) h
    refine braceEscape?_of_no_digit hw (hfinished.no_digit w ?_) _
    rw [hname, hm]
    rfl

/-- A dollar sign that stands for itself opens no insertion. -/
theorem head_ne_brace_of_evaluate {more : List Nat}
    (h : TemplateLiteral.evaluate (argumentValue? args fun _ => "a") ('$' :: rest)
      = some (36 :: more)) : rest.head? ≠ some '{' := by
  intro hbrace
  obtain ⟨rest, rfl⟩ := List.head?_eq_some_iff.mp hbrace
  obtain ⟨units, more, hunits, hout⟩ := exists_of_evaluate_insertion h
  obtain ⟨-, rfl⟩ := argumentValue?_eq_some_iff.mp hunits
  exact absurd (List.cons.inj hout).1 (by decide)

/-- Of no pieces nothing is asked. -/
theorem inserts_nil : Inserts path front [] where
  holes := by simp
  backslash_not_mem := List.not_mem_nil
  return_not_mem := List.not_mem_nil
  lone := by simp [loneInsertion]

/-- An insertion in front of pieces that are as they should be is as it should be. -/
theorem Inserts.hole {name : List Char} (h : Inserts path front ps)
    (htext : front name = '$' :: '{' :: (identifierOf path (String.ofList name)).toList)
    (hargument : isArgument (identifierOf path (String.ofList name)) = true) :
    Inserts path front (.hole name :: ps) where
  holes := fun other hmem => by
    rcases List.mem_cons.mp hmem with heq | hmem
    · cases heq
      exact ⟨htext, hargument⟩
    · exact h.holes other hmem
  backslash_not_mem := by simpa using h.backslash_not_mem
  return_not_mem := by simpa using h.return_not_mem
  lone := fun hinfix => by
    rcases List.infix_cons_iff.mp hinfix with hprefix | hinfix
    · simp [loneInsertion] at hprefix
    · exact h.lone hinfix

/-- A character without a meaning in front of pieces that are as they should be is as it should
be. -/
theorem Inserts.char (h : Inserts path front ps) (hslash : c ≠ '\\') (hreturn : c ≠ '\r')
    (hinsert : c = '$' → (ps.flatMap (render front)).head? ≠ some '{') :
    Inserts path front (.char c :: ps) where
  holes := fun name hmem => h.holes name (by simpa using hmem)
  backslash_not_mem := by simpa [hslash.symm] using h.backslash_not_mem
  return_not_mem := by simpa [hreturn.symm] using h.return_not_mem
  lone := fun hinfix => by
    rcases List.infix_cons_iff.mp hinfix with ⟨rest, hrest⟩ | hinfix
    · obtain ⟨hc, rfl⟩ := List.cons.inj hrest
      exact hinsert (PathPiece.char.inj hc).symm rfl
    · exact h.lone hinfix

/-- If a text comes to what it ought to for all values, then only its placeholders have a meaning,
and they are insertions. -/
theorem inserts_of_evaluate (hps : Proper ps)
    (hfront : ∀ name, .hole name ∈ ps → Finished (front name))
    (h : ∀ values, TemplateLiteral.evaluate (argumentValue? args values) (ps.flatMap (render front))
      = some (ps.flatMap (expected path values))) : Inserts path front ps := by
  induction hps with
  | nil => exact inserts_nil
  | @hole name ps hne hclosed hps ih =>
    simp only [List.flatMap_cons, render, expected, List.append_assoc,
      List.singleton_append] at h
    obtain ⟨htext, hargument, hrest⟩ := front_of_evaluate (hfront name List.mem_cons_self).front h
    have hinserts := ih (fun name hmem => hfront name (List.mem_cons_of_mem _ hmem)) hrest
    exact hinserts.hole htext hargument
  | @char c ps hopen hps ih =>
    have hfronts : ∀ name, .hole name ∈ ps → Finished (front name) :=
      fun name hmem => hfront name (List.mem_cons_of_mem _ hmem)
    -- A backslash changes the whole run behind it, so the tail says nothing about it.
    have hslash : c ≠ '\\' := by
      rintro rfl
      exact not_evaluates_of_backslash (.char hopen hps) hfronts h
    simp only [List.flatMap_cons, render, expected] at h
    have hreturn : c ≠ '\r' := by
      rintro rfl
      exact not_evaluate_return (h fun _ => "")
    have hinsert : c = '$' → (ps.flatMap (render front)).head? ≠ some '{' := by
      rintro rfl
      exact head_ne_brace_of_evaluate (h fun _ => "a")
    have hrest : ∀ values, TemplateLiteral.evaluate (argumentValue? args values)
        (ps.flatMap (render front)) = some (ps.flatMap (expected path values)) := fun values => by
      have hvalue := h values
      rw [evaluate_plainChar (by simp [hslash, hreturn]) hinsert, Option.map_eq_some_iff] at hvalue
      obtain ⟨more, hmore, heq⟩ := hvalue
      rw [hmore, List.append_cancel_left heq]
    exact (ih hfronts hrest).char hslash hreturn hinsert

end Evaluation

end PathTemplate

end ClientGen
