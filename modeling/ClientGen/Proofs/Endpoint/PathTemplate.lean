import Mathlib.Data.List.Infix
import ClientGen.Proofs.Endpoint.Evaluation

/-!
# Paths as template literals

The template of a path is the body of a template literal, whose value ought to be the path with the
values of its parameters. It is so exactly for the paths that are told here.

* `PathTemplate.Faithful`: the template of a path comes to what it ought to.
* `PathTemplate.Settles`: what makes a placeholder the insertion of its identifier.
* `PathTemplate.settled_eq_insertion_iff`: nothing else does.
* `PathTemplate.Insertable`: what has to hold of a path.
* `PathTemplate.faithful_iff_insertable`: templates are faithful for these paths only.
-/

namespace ClientGen

namespace PathTemplate

open BasePath TemplateLiteral Text

/-- The value of the template for the values of its arguments. -/
def evaluate (t : PathTemplate) (values : String → String) : Option (List Nat) :=
  TemplateLiteral.evaluate (argumentValue? t.args values) t.text.toList

/-- Different parameters of a path have different identifiers. -/
def DistinctIdentifiers (path : String) : Prop :=
  ∀ name ∈ parameters path, ∀ other ∈ parameters path,
    identifierOf path name = identifierOf path other → name = other

/-- The template of a path comes to the path with the values of its parameters, and different
parameters have different identifiers. -/
structure Faithful (path : String) : Prop where
  /-- The placeholders give way to values, and all other characters stand for themselves. -/
  evaluates : ∀ values, (ofPath path).evaluate values
    = some ((pieces path).flatMap (expected path values))
  /-- Different names have different identifiers. -/
  distinct : DistinctIdentifiers path

/-- A parameter becomes the insertion of its identifier: in its own turn, and nothing happens to it
before and after. -/
structure Settles (path name : String) : Prop where
  /-- The name is not escaped. -/
  backtick_not_mem : '`' ∉ name.toList
  /-- No parameter before is found inside of the name. -/
  before : ∀ earlier ∈ (parameters path).takeWhile (· ≠ name),
    ¬ '{' :: earlier.toList <:+ name.toList
  /-- The identifier is no parameter behind. -/
  after : identifierOf path name ∉ ((parameters path).dropWhile (· ≠ name)).tail

/-- A path whose template is faithful. -/
structure Insertable (path : String) : Prop where
  /-- Nothing is escaped. -/
  backslash_not_mem : .char '\\' ∉ pieces path
  /-- There are no carriage returns. -/
  return_not_mem : .char '\r' ∉ pieces path
  /-- Only placeholders are inserted. -/
  lone : ¬ loneInsertion <:+: pieces path
  /-- The identifiers can name arguments. -/
  argument : ∀ name ∈ parameters path, isArgument (identifierOf path name) = true
  /-- Each placeholder becomes an insertion and stays one. -/
  settles : ∀ name ∈ parameters path, Settles path name
  /-- Different names have different identifiers. -/
  distinct : DistinctIdentifiers path

instance (path : String) : Decidable (DistinctIdentifiers path) :=
  inferInstanceAs <| Decidable <| ∀ name ∈ parameters path, ∀ other ∈ parameters path,
    identifierOf path name = identifierOf path other → name = other

instance (path name : String) : Decidable (Settles path name) :=
  decidable_of_iff ('`' ∉ name.toList ∧
      (∀ earlier ∈ (parameters path).takeWhile (· ≠ name),
        ¬ '{' :: earlier.toList <:+ name.toList) ∧
      identifierOf path name ∉ ((parameters path).dropWhile (· ≠ name)).tail)
    ⟨fun ⟨hbacktick, hbefore, hafter⟩ => ⟨hbacktick, hbefore, hafter⟩,
      fun ⟨hbacktick, hbefore, hafter⟩ => ⟨hbacktick, hbefore, hafter⟩⟩

instance (path : String) : Decidable (Insertable path) :=
  decidable_of_iff (.char '\\' ∉ pieces path ∧ .char '\r' ∉ pieces path ∧
      ¬ loneInsertion <:+: pieces path ∧
      (∀ name ∈ parameters path, isArgument (identifierOf path name) = true) ∧
      (∀ name ∈ parameters path, Settles path name) ∧ DistinctIdentifiers path)
    ⟨fun ⟨hslash, hreturn, hlone, hargument, hsettles, hdistinct⟩ =>
        ⟨hslash, hreturn, hlone, hargument, hsettles, hdistinct⟩,
      fun ⟨hslash, hreturn, hlone, hargument, hsettles, hdistinct⟩ =>
        ⟨hslash, hreturn, hlone, hargument, hsettles, hdistinct⟩⟩

section Path

variable {path name : String}

/-! ## The turn of a parameter -/

/-- The turn of a parameter, which is the first with its name. -/
theorem exists_turn (h : name ∈ parameters path) : ∃ before after,
    identifiers path = before ++ (name, identifierOf path name) :: after ∧
      ∀ p ∈ before, p.1 ≠ name := by
  have hmem : name ∈ (identifiers path).map Prod.fst := by
    rwa [identifiers, map_fst_identifiersFrom]
  obtain ⟨p, hp, hname⟩ := List.mem_map.mp hmem
  have hsome : ((identifiers path).lookup name).isSome :=
    List.lookup_isSome_iff.mpr ⟨p, hp, by simp [hname]⟩
  obtain ⟨arg, harg⟩ := Option.isSome_iff_exists.mp hsome
  obtain ⟨before, after, hmade, hfirst⟩ := List.lookup_eq_some_iff.mp harg
  have hidentifier : identifierOf path name = arg := by rw [identifierOf, harg, Option.getD_some]
  refine ⟨before, after, by rw [hidentifier, hmade], fun p hp heq => ?_⟩
  simpa [heq] using hfirst p hp

/-- The identifier of a parameter is the one that is made in its first turn. -/
theorem identifierOf_of_turn {before after : List (String × String)} {p : String × String}
    (hmade : identifiers path = before ++ p :: after) (hfirst : ∀ p' ∈ before, p'.1 ≠ p.1) :
    identifierOf path p.1 = p.2 := by
  have hlookup : (identifiers path).lookup p.1 = some p.2 :=
    List.lookup_eq_some_iff.mpr ⟨before, after, hmade, fun p' hp' => by
      simpa using (hfirst p' hp').symm⟩
  rw [identifierOf, hlookup, Option.getD_some]

/-- Parameters in front of a turn and behind it. -/
theorem parameters_of_turn {before after : List (String × String)} {arg : String}
    (hmade : identifiers path = before ++ (name, arg) :: after)
    (hfirst : ∀ p ∈ before, p.1 ≠ name) :
    (parameters path).takeWhile (· ≠ name) = before.map Prod.fst ∧
      ((parameters path).dropWhile (· ≠ name)).tail = after.map Prod.fst := by
  have hparameters : parameters path = before.map Prod.fst ++ name :: after.map Prod.fst := by
    rw [← map_fst_identifiersFrom [] (parameters path), ← identifiers, hmade, List.map_append,
      List.map_cons]
  have hbefore : ∀ other ∈ before.map Prod.fst, decide (other ≠ name) = true := by
    intro other hother
    obtain ⟨p, hp, rfl⟩ := List.mem_map.mp hother
    exact decide_eq_true (hfirst p hp)
  rw [hparameters, List.takeWhile_append_of_pos hbefore, List.dropWhile_append_of_pos hbefore]
  simp

/-- Every identifier has letters and digits only. -/
theorem alphanumeric_of_mem {p : String × String} (h : p ∈ identifiers path) :
    Endpoint.Alphanumeric p.2 := by
  obtain ⟨earlier, harg⟩ := exists_argument_of_mem h
  rw [harg]
  exact alphanumeric_argument earlier p.1

/-- Every identifier has a letter or a digit. -/
theorem exists_alphanumeric_of_mem {p : String × String} (h : p ∈ identifiers path) :
    ∃ c ∈ p.2.toList, isAsciiAlphanumeric c := by
  obtain ⟨earlier, harg⟩ := exists_argument_of_mem h
  have hne : p.2.toList ≠ [] := harg ▸ argument_ne_empty earlier p.1
  obtain ⟨c, hc⟩ := List.exists_mem_of_ne_nil _ hne
  exact ⟨c, hc, alphanumeric_of_mem h c hc⟩

/-- A name with a letter or digit has one identifier, whenever it is made. -/
theorem identifierOf_eq_of_mem {p : String × String} (h : p ∈ identifiers path)
    (halpha : ∃ c ∈ p.1.toList, isAsciiAlphanumeric c) : identifierOf path p.1 = p.2 := by
  -- With a letter or digit in it, the argument of a name does not depend on the earlier ones.
  have hcamel : ∀ args, argument args p.1 = Naming.camelCase p.1 := fun args => by
    rw [argument]
    exact if_neg (by simpa using Naming.camelCase_ne_empty halpha)
  have hmem : p.1 ∈ parameters path := by
    rw [← map_fst_identifiersFrom [] (parameters path)]
    exact List.mem_map_of_mem h
  obtain ⟨before, after, hmade, -⟩ := exists_turn hmem
  have hfirst : (p.1, identifierOf path p.1) ∈ identifiersFrom [] (parameters path) := by
    rw [← identifiers, hmade]
    simp
  obtain ⟨earlier, hearlier⟩ := exists_argument_of_mem h
  obtain ⟨others, hothers⟩ := exists_argument_of_mem hfirst
  rw [hearlier, hcamel]
  exact (show identifierOf path p.1 = argument others p.1 from hothers).trans (hcamel others)

/-! ## Escaped names -/

/-- Each backtick is one character longer. -/
theorem length_flatMap_plainChar (cs : List Char) :
    (cs.flatMap plainChar).length = cs.length + cs.count '`' := by
  induction cs with
  | nil => rfl
  | cons c cs ih =>
    rw [List.flatMap_cons, List.length_append, ih, plainChar, List.length_cons]
    split
    · rename_i htick
      rw [htick, List.count_cons_self, List.length_cons, List.length_singleton]
      omega
    · rename_i htick
      rw [List.count_cons_of_ne htick, List.length_singleton]
      omega

/-- A run of characters is its own text in a template literal exactly if it has no backtick. -/
theorem flatMap_plainChar_eq_self_iff (cs : List Char) : cs.flatMap plainChar = cs ↔ '`' ∉ cs := by
  constructor
  · intro heq hmem
    have hsame := congrArg List.length heq
    have hpos := List.count_pos_iff.mpr hmem
    rw [length_flatMap_plainChar] at hsame
    omega
  · intro hmem
    induction cs with
    | nil => rfl
    | cons c cs ih =>
      rw [List.mem_cons, not_or] at hmem
      rw [List.flatMap_cons, ih hmem.2, plainChar, if_neg (Ne.symm hmem.1)]
      rfl

/-- The name of a placeholder is no result of changes to it. -/
theorem not_changed_self (cs : List Char) : ¬ Changed (cs.flatMap plainChar) cs := by
  rintro ⟨a, z, rfl, hprefix, -⟩
  induction a with
  | nil =>
    rw [List.nil_append, List.nil_append, List.flatMap_cons] at hprefix
    simp [plainChar] at hprefix
  | cons c a ih =>
    rw [List.cons_append, List.cons_append, List.flatMap_cons, plainChar] at hprefix
    split at hprefix
    · -- A backslash stands where the name has a backtick.
      rename_i htick
      rw [htick] at hprefix
      simp at hprefix
    · exact ih (List.cons_prefix_cons.mp hprefix).2

/-- What is settled in front of the closing brace of such a parameter is the insertion of its
identifier. -/
theorem Settles.settled_eq_insertion (h : Settles path name) (hname : name ∈ parameters path) :
    settled (identifiers path) ('{' :: name.toList.flatMap plainChar)
      = '$' :: '{' :: (identifierOf path name).toList := by
  obtain ⟨before, after, hmade, hfirst⟩ := exists_turn hname
  obtain ⟨hfront, hbehind⟩ := parameters_of_turn hmade hfirst
  have hbefore := h.before
  have hafter := h.after
  rw [hfront] at hbefore
  rw [hbehind] at hafter
  rw [(flatMap_plainChar_eq_self_iff _).mpr h.backtick_not_mem, hmade]
  refine PathTemplate.settled_eq_insertion (p := (name, identifierOf path name))
    (not_mem_identifierOf path name (by decide)) (fun p hp => ?_) (fun p hp heq => ?_)
  · -- An earlier name that ends the text would be rewritten in this place first.
    rw [List.suffix_cons_iff, not_or]
    refine ⟨fun heq => hfirst p hp ?_, hbefore p.1 (List.mem_map_of_mem hp)⟩
    exact String.toList_inj.mp (List.cons.inj heq).2
  · -- A later name that is the argument now written would be rewritten once more.
    refine hafter ?_
    have hlater : p.1 = identifierOf path name := String.toList_inj.mp heq
    rw [← hlater]
    exact List.mem_map_of_mem hp

/-- A placeholder becomes the insertion of its identifier in its own turn only. -/
theorem settles_of_settled_eq (hdistinct : DistinctIdentifiers path)
    (hname : name ∈ parameters path)
    (h : settled (identifiers path) ('{' :: name.toList.flatMap plainChar)
      = '$' :: '{' :: (identifierOf path name).toList) : Settles path name := by
  have hmem : ∀ p ∈ identifiers path, p.1 ∈ parameters path := fun p hp => by
    rw [← map_fst_identifiersFrom [] (parameters path)]
    exact List.mem_map_of_mem hp
  rcases insertion_of_settled (fun p hp => exists_alphanumeric_of_mem hp)
      (not_mem_identifierOf path name (by decide)) h with
    ⟨before, ⟨own, arg⟩, after, hmade, hsource, harg, hbefore, hafter⟩ | ⟨p, hp, harg, hchanged⟩
  · dsimp only at hsource harg
    have hfirst : ∀ p ∈ before, p.1 ≠ own := fun p hp heq =>
      hbefore p hp (heq ▸ hsource ▸ List.suffix_rfl)
    have hown : own ∈ parameters path := hmem (own, arg) (by rw [hmade]; simp)
    -- An escaped name may be the name of another parameter, but not with the same identifier.
    have hturn : identifierOf path own = identifierOf path name :=
      (identifierOf_of_turn hmade hfirst).trans (String.toList_inj.mp harg)
    obtain rfl : own = name := hdistinct own hown name hname hturn
    obtain ⟨hfront, hbehind⟩ := parameters_of_turn hmade hfirst
    refine ⟨(flatMap_plainChar_eq_self_iff _).mp hsource.symm, ?_, ?_⟩
    · rw [hfront]
      intro earlier hearlier hsuffix
      obtain ⟨p', hp', rfl⟩ := List.mem_map.mp hearlier
      refine hbefore p' hp' ?_
      rw [← hsource]
      exact hsuffix.trans (List.suffix_cons _ _)
    · rw [hbehind]
      intro hlater
      obtain ⟨p', hp', heq⟩ := List.mem_map.mp hlater
      exact hafter p' hp' (congrArg String.toList heq)
  · -- The parameter that was taken for what was left has a letter or digit in its name, so its
    -- identifier does not depend on the turn, and the two are one parameter.
    obtain ⟨a, z, hsource, -, c, hc, halpha⟩ := hchanged.exists_split
    have hidentifier : identifierOf path p.1 = p.2 :=
      identifierOf_eq_of_mem hp ⟨c, by rw [hsource]; simp [hc], halpha⟩
    obtain rfl : p.1 = name := hdistinct p.1 (hmem p hp) name hname
      (hidentifier.trans (String.toList_inj.mp harg))
    exact absurd hchanged (not_changed_self _)

/-! ## Faithful templates -/

/-- The identifier of a parameter is an argument of the template. -/
theorem mem_args_of_mem_parameters (hname : name ∈ parameters path) :
    identifierOf path name ∈ (ofPath path).args := by
  obtain ⟨before, after, hmade, -⟩ := exists_turn hname
  have hmem : (name, identifierOf path name) ∈ identifiersFrom [] (parameters path) := by
    rw [← identifiers, hmade]
    simp
  exact mem_args_of_mem_identifiersFrom (t := { args := [], text := plain path }) (.inl hmem)

/-- The name in a placeholder is a parameter of the path. -/
theorem mem_parameters_of_hole {cs : List Char} (h : .hole cs ∈ pieces path) :
    String.ofList cs ∈ parameters path :=
  mem_parameters_iff.mpr (by rwa [String.toList_ofList])

/-- What stands in front of the closing brace of a placeholder in the end. -/
def settledFront (path : String) (cs : List Char) : List Char :=
  settled (identifiers path) ('{' :: cs.flatMap plainChar)

/-- What stands in front of a closing brace in the end is an opening brace and a name, or an
insertion. -/
theorem front_settledFront {cs : List Char} (h : .hole cs ∈ pieces path) :
    Front (settledFront path cs) := by
  have hclosed : '}' ∉ cs := ((proper_piecesFrom 0 path.toList).of_mem h).2
  refine Front.settled ⟨0, _, rfl, not_mem_flatMap_plainChar hclosed⟩ fun p hp hbrace => ?_
  exact absurd (alphanumeric_of_mem hp _ hbrace) (by decide)

/-- A placeholder that is left alone has a parameter inside of its name, or it is escaped. -/
theorem exists_no_digit {cs w : List Char} (h : .hole cs ∈ pieces path)
    (hleft : settledFront path cs = '{' :: w) : ∃ c ∈ w, Hexadecimal.value? c = none := by
  rcases settled_open_cases hleft with ⟨rfl, hnone⟩ | hdollar
  · refine ⟨'\\', ?_, by decide⟩
    -- Its own turn would have come.
    have htick : '`' ∈ cs := by
      by_contra htick
      obtain ⟨before, after, hmade, -⟩ := exists_turn (mem_parameters_of_hole h)
      have hown : (String.ofList cs, identifierOf path (String.ofList cs)) ∈ identifiers path := by
        rw [hmade]
        simp
      have hsame : cs.flatMap plainChar = (String.ofList cs).toList := by
        rw [(flatMap_plainChar_eq_self_iff cs).mpr htick, String.toList_ofList]
      exact hnone _ hown (hsame ▸ List.suffix_rfl)
    exact List.mem_flatMap.mpr ⟨'`', htick, List.mem_cons_self⟩
  · exact ⟨'$', hdollar, by decide⟩

/-- The template of a path is evaluated from the pieces of the path, each placeholder as it is
settled. -/
theorem evaluate_ofPath (path : String) (values : String → String) :
    (ofPath path).evaluate values
      = TemplateLiteral.evaluate (argumentValue? (ofPath path).args values)
        ((pieces path).flatMap (render (settledFront path))) := by
  rw [evaluate, toList_text_ofPath]
  rfl

/-- If the template is faithful, the settled pieces are insertions and characters without a
meaning. -/
theorem Faithful.inserts (h : Faithful path) :
    Inserts path (settledFront path) (pieces path) :=
  inserts_of_evaluate (proper_piecesFrom 0 path.toList)
    (fun _ hmem => ⟨front_settledFront hmem, fun _ => exists_no_digit hmem⟩)
    fun values => (evaluate_ofPath path values).symm.trans (h.evaluates values)

/-- If the path is insertable, the settled pieces are insertions and characters without a
meaning. -/
theorem Insertable.inserts (h : Insertable path) :
    Inserts path (settledFront path) (pieces path) where
  holes := fun name hmem => by
    have hname := mem_parameters_of_hole hmem
    have hsettled := (h.settles _ hname).settled_eq_insertion hname
    rw [String.toList_ofList] at hsettled
    exact ⟨hsettled, h.argument _ hname⟩
  backslash_not_mem := h.backslash_not_mem
  return_not_mem := h.return_not_mem
  lone := h.lone

/-- The template of a path is faithful exactly if the path is insertable. -/
theorem faithful_iff_insertable (path : String) : Faithful path ↔ Insertable path := by
  constructor
  · -- Each field of `Insertable` is read off the settled text of the pieces.
    intro h
    have hinserts := h.inserts
    have hholes : ∀ name ∈ parameters path,
        settledFront path name.toList = '$' :: '{' :: (identifierOf path name).toList ∧
          isArgument (identifierOf path name) = true := fun name hname => by
      have hhole := hinserts.holes name.toList (mem_parameters_iff.mp hname)
      rwa [String.ofList_toList] at hhole
    exact {
      backslash_not_mem := hinserts.backslash_not_mem
      return_not_mem := hinserts.return_not_mem
      lone := hinserts.lone
      argument := fun name hname => (hholes name hname).2
      settles := fun name hname => settles_of_settled_eq h.distinct hname (hholes name hname).1
      distinct := h.distinct }
  · intro h
    refine ⟨fun values => ?_, h.distinct⟩
    rw [evaluate_ofPath]
    exact h.inserts.evaluate
      (fun name hmem => mem_args_of_mem_parameters (mem_parameters_of_hole hmem)) values

end Path

example : Insertable "/users/\x7buser-id\x7d/posts/\x7bpostId\x7d" := by decide +kernel

/-- A path that names a parameter twice is evaluated with a dollar sign in front of each value. -/
theorem not_faithful_repeated :
    (ofPath "/\x7bid\x7d/copy/\x7bid\x7d").evaluate (fun _ => "7")
        = some (Units.ofText "/$7/copy/$7".toList) ∧
      ¬ Faithful "/\x7bid\x7d/copy/\x7bid\x7d" := by
  have hvalue : (ofPath "/\x7bid\x7d/copy/\x7bid\x7d").evaluate (fun _ => "7")
      = some (Units.ofText "/$7/copy/$7".toList) := by decide +kernel
  have hexpected : (pieces "/\x7bid\x7d/copy/\x7bid\x7d").flatMap
      (expected "/\x7bid\x7d/copy/\x7bid\x7d" fun _ => "7")
        = Units.ofText "/7/copy/7".toList := by decide +kernel
  refine ⟨hvalue, fun h => ?_⟩
  have heq := hvalue.symm.trans (h.evaluates fun _ => "7")
  rw [hexpected] at heq
  exact absurd heq (by decide +kernel)

end PathTemplate

end ClientGen
