import ClientGen.Proofs.Endpoint.Names
import Mathlib.Data.List.Pairwise

/-!
# Names in a combined hook

The body of a combined hook declares seven names for every endpoint: its name, the name continued
by three kinds of state, and what sets each of them, called after the name in Pascal case. The names
of the endpoints are distinct, and these names need not be: `getUser` has an answer `getUserData`,
which another endpoint may be called, and the names `getXY` and `getXy` are one in Pascal case.

* `Hook.constNames`: the names that a line of code declares.
* `Hook.bodyLines`: the lines of the body, and `Hook.perm_constNames`: what they declare.
* `EndpointGroup.Unambiguous`: no endpoint is called like something of another one.
* `Hook.nodup_constNames_iff`: exactly then the declared names are distinct.
-/

namespace ClientGen

open Text

/-! ## Reading declarations -/

namespace Hook

/-- The names that a line of the body declares: two in brackets, or one. -/
def constNames (line : String) : List String :=
  match "  const ".toList.isPrefixOf? line.toList with
  | some ('[' :: rest) =>
    [String.ofList (rest.takeWhile isAsciiAlphanumeric),
      String.ofList (((rest.dropWhile isAsciiAlphanumeric).drop 2).takeWhile isAsciiAlphanumeric)]
  | some rest => [String.ofList (rest.takeWhile isAsciiAlphanumeric)]
  | none => []

/-- The lines of the body of a combined hook: the state, then what sends the requests. -/
def bodyLines (h : Hook) (s : Settings) : List String :=
  h.parts.flatMap stateLines
    ++ h.parts.flatMap fun p => commentLines "  " p.endpoint ++ h.callLines s p.names.call p

variable {name first second line : String}

/-- A name ends where something other than a letter or digit follows. -/
theorem takeWhile_name {c : Char} (h : Endpoint.Alphanumeric name)
    (hc : isAsciiAlphanumeric c = false) (rest : List Char) :
    (name.toList ++ c :: rest).takeWhile isAsciiAlphanumeric = name.toList := by
  rw [List.takeWhile_append_of_pos h, List.takeWhile_cons_of_neg (by simp [hc]), List.append_nil]

/-- A line with two names in brackets declares these two. -/
theorem constNames_pair (hfirst : Endpoint.Alphanumeric first)
    (hsecond : Endpoint.Alphanumeric second) (rest : List Char)
    (hline : line.toList = "  const [".toList ++ (first.toList ++ ',' :: ' ' ::
      (second.toList ++ ']' :: rest))) : constNames line = [first, second] := by
  have hread : "  const ".toList.isPrefixOf? line.toList
      = some ('[' :: (first.toList ++ ',' :: ' ' :: (second.toList ++ ']' :: rest))) := by
    rw [List.isPrefixOf?_eq_some_iff_append_eq, hline]
    rfl
  have hdrop : (first.toList ++ ',' :: ' ' :: (second.toList ++ ']' :: rest)).dropWhile
      isAsciiAlphanumeric = ',' :: ' ' :: (second.toList ++ ']' :: rest) := by
    rw [List.dropWhile_append_of_pos hfirst, List.dropWhile_cons_of_neg (by decide)]
  simp only [constNames, hread]
  rw [takeWhile_name hfirst (by decide), hdrop]
  change [_, String.ofList ((second.toList ++ ']' :: rest).takeWhile isAsciiAlphanumeric)] = _
  rw [takeWhile_name hsecond (by decide), String.ofList_toList, String.ofList_toList]

/-- A line with one name declares it. -/
theorem constNames_single (hname : Endpoint.Alphanumeric name) (rest : List Char)
    (hline : line.toList = "  const ".toList ++ (name.toList ++ ' ' :: rest)) :
    constNames line = [name] := by
  have hread : "  const ".toList.isPrefixOf? line.toList = some (name.toList ++ ' ' :: rest) := by
    rw [List.isPrefixOf?_eq_some_iff_append_eq, hline]
  -- No name starts with a bracket.
  have hbracket : ∀ more, name.toList ++ ' ' :: rest ≠ '[' :: more := by
    intro more heq
    cases hcs : name.toList with
    | nil =>
      rw [hcs] at heq
      exact absurd (List.cons.inj heq).1 (by decide)
    | cons c cs =>
      have hc := hname c (hcs ▸ List.mem_cons_self)
      rw [hcs] at heq
      rw [(List.cons.inj heq).1] at hc
      exact absurd hc (by decide)
  rw [constNames, hread]
  split
  · rename_i more heq
    exact absurd (Option.some.inj heq) (hbracket more)
  · rename_i more _ heq
    obtain rfl := Option.some.inj heq
    rw [takeWhile_name hname (by decide), String.ofList_toList]
  · rename_i heq
    cases heq

/-- A line whose third character starts no declaration declares nothing. -/
theorem constNames_other {c : Char} {rest : List Char} (hc : c ≠ 'c')
    (hline : line.toList = ' ' :: ' ' :: c :: rest) : constNames line = [] := by
  have hread : "  const ".toList.isPrefixOf? line.toList = none := by
    rw [hline]
    simp [List.isPrefixOf?, Ne.symm hc]
  rw [constNames, hread]

/-! ## What the body declares -/

end Hook

namespace HookNames

/-- The names of the state for an endpoint and of what sets it. -/
def stateNames (n : HookNames) : List String :=
  [n.data, n.setData, n.loading, n.setLoading, n.error, n.setError]

theorem declared_eq_append (n : HookNames) : n.declared = n.stateNames ++ [n.call] := rfl

/-- The names for an endpoint in a combined hook have letters and digits only. -/
theorem alphanumeric_combined {e : Endpoint} (h : Endpoint.Alphanumeric e.name) :
    ∀ name ∈ (combined e).declared, Endpoint.Alphanumeric name := by
  have hset : Endpoint.Alphanumeric ("set" ++ e.pascalName) :=
    Endpoint.Alphanumeric.append (by decide) fun c => Naming.alphanumeric_pascalCase e.name
  have hdata : Endpoint.Alphanumeric "Data" := by decide
  have hloading : Endpoint.Alphanumeric "Loading" := by decide
  have herror : Endpoint.Alphanumeric "Error" := by decide
  simp only [declared, combined, List.mem_cons, List.not_mem_nil, or_false, forall_eq_or_imp,
    forall_eq]
  exact ⟨h.append hdata, hset.append hdata, h.append hloading, hset.append hloading,
    h.append herror, hset.append herror, h⟩

end HookNames

namespace Hook

/-- The lines of the state for an endpoint declare the names of the state. -/
theorem flatMap_constNames_stateLines {p : HookPart}
    (h : ∀ name ∈ p.names.declared, Endpoint.Alphanumeric name) :
    (stateLines p).flatMap constNames = p.names.stateNames := by
  -- Each of the three states is declared on a line of its own, together with what sets it.
  have hline : ∀ state ∈ p.names.declared, ∀ setter ∈ p.names.declared, ∀ type start : String,
      constNames ("  const [" ++ state ++ ", " ++ setter ++ "] = useState<" ++ type ++ ">(" ++ start
        ++ ");") = [state, setter] := by
    intro state hstate setter hsetter type start
    apply constNames_pair (h state hstate) (h setter hsetter) (" = useState<".toList
      ++ (type.toList ++ (">(".toList ++ (start.toList ++ ");".toList))))
    simp [String.toList_append]
  simp only [HookNames.declared, List.mem_cons, List.not_mem_nil, or_false] at hline
  simp only [stateLines, HookNames.states, List.map_cons, List.map_nil, List.cons_append,
    List.nil_append, List.flatMap_cons, List.flatMap_nil]
  rw [hline _ (by simp) _ (by simp), hline _ (by simp) _ (by simp),
    hline _ (by simp) _ (by simp)]
  rfl

/-- The lines that send the request of an endpoint declare the name of the call. -/
theorem flatMap_constNames_callLines (h : Hook) (s : Settings) (label : String) {p : HookPart}
    (hcall : Endpoint.Alphanumeric p.names.call) :
    (h.callLines s label p).flatMap constNames = [p.names.call] := by
  have hopening : constNames ("  const " ++ p.names.call ++ " = async (" ++ parameters s p.endpoint
      ++ "): " ++ promise p.endpoint ++ " => \x7b") = [p.names.call] := by
    apply constNames_single hcall ("= async (".toList ++ ((parameters s p.endpoint).toList
      ++ ("): ".toList ++ ((promise p.endpoint).toList ++ " => \x7b".toList))))
    simp [String.toList_append]
  -- The other lines stand further to the right, or they close something.
  have hinner : ∀ {text : String} {rest : List Char},
      text.toList = ' ' :: ' ' :: ' ' :: rest → constNames text = [] :=
    constNames_other (by decide)
  have hlater : ∀ line ∈ (h.callLines s label p).tail, constNames line = [] := by
    simp only [callLines, List.tail_cons, List.mem_cons, List.not_mem_nil, or_false,
      forall_eq_or_imp, forall_eq, requestText, String.append_assoc]
    and_intros
    all_goals first
      | decide
      | exact hinner (by rw [String.toList_append]; rfl)
  have hcons : h.callLines s label p = ("  const " ++ p.names.call ++ " = async ("
      ++ parameters s p.endpoint ++ "): " ++ promise p.endpoint ++ " => \x7b")
      :: (h.callLines s label p).tail := rfl
  rw [hcons, List.flatMap_cons, hopening, List.flatMap_eq_nil_iff.mpr hlater]
  rfl

/-- The comment on an endpoint declares no name. -/
theorem flatMap_constNames_commentLines (e : Endpoint) :
    (commentLines "  " e).flatMap constNames = [] := by
  rw [commentLines]
  split
  · rfl
  · have hcomment : constNames ("  " ++ "/** " ++ e.description ++ " */") = [] := by
      apply constNames_other (c := '/') (by decide)
      simp only [String.append_assoc]
      rw [String.toList_append, String.toList_append]
      rfl
    rw [List.flatMap_singleton, hcomment]

/-- The body declares the names for each part, those of the state first. -/
theorem perm_constNames {h : Hook} (s : Settings)
    (hnames : ∀ p ∈ h.parts, ∀ name ∈ p.names.declared, Endpoint.Alphanumeric name) :
    ((h.bodyLines s).flatMap constNames).Perm h.declared := by
  have hstates : (h.parts.flatMap stateLines).flatMap constNames
      = h.parts.flatMap fun p => p.names.stateNames := by
    rw [List.flatMap_assoc]
    exact List.flatMap_congr fun p hp => flatMap_constNames_stateLines (hnames p hp)
  -- A comment above a call declares nothing.
  have hcalls : (h.parts.flatMap fun p => commentLines "  " p.endpoint
      ++ h.callLines s p.names.call p).flatMap constNames
      = h.parts.flatMap fun p => [p.names.call] := by
    rw [List.flatMap_assoc]
    refine List.flatMap_congr fun p hp => ?_
    rw [List.flatMap_append, flatMap_constNames_commentLines,
      flatMap_constNames_callLines h s p.names.call (hnames p hp p.names.call (by
        rw [HookNames.declared_eq_append]
        exact List.mem_concat_self))]
    rfl
  rw [bodyLines, List.flatMap_append, hstates, hcalls]
  exact List.flatMap_append_perm h.parts _ _

end Hook

/-! ## When names are distinct -/

namespace HookNames

/-- The kinds of state. -/
def kinds : List String := ["Data", "Loading", "Error"]

/-- What the names of the state for an endpoint begin with. -/
def stems (e : Endpoint) : List String := [e.name, "set" ++ e.pascalName]

/-- Each of the two is continued by the kinds in turn. -/
theorem stateNames_combined (e : Endpoint) :
    (combined e).stateNames = (kinds ×ˢ stems e).map fun p => p.2 ++ p.1 := rfl

/-- A name of the state for an endpoint is one of its stems with a kind of state behind it. -/
theorem mem_stateNames_combined {e : Endpoint} {name : String} :
    name ∈ (combined e).stateNames ↔ ∃ stem ∈ stems e, ∃ kind ∈ kinds, name = stem ++ kind := by
  rw [stateNames_combined, List.mem_map]
  constructor
  · rintro ⟨⟨kind, stem⟩, hp, rfl⟩
    obtain ⟨hkind, hstem⟩ := List.pair_mem_product.mp hp
    exact ⟨stem, hstem, kind, hkind, rfl⟩
  · rintro ⟨stem, hstem, kind, hkind, rfl⟩
    exact ⟨(kind, stem), List.pair_mem_product.mpr ⟨hkind, hstem⟩, rfl⟩

/-- The kinds of state end in different letters. -/
theorem append_kind_inj {stem stem' kind kind' : String} (hkind : kind ∈ kinds)
    (hkind' : kind' ∈ kinds) (h : stem ++ kind = stem' ++ kind') :
    stem = stem' ∧ kind = kind' := by
  have hlast : ∀ kind ∈ kinds, ∀ kind' ∈ kinds,
      kind.toList.getLast? = kind'.toList.getLast? → kind = kind' := by decide
  have hne : ∀ kind ∈ kinds, kind.toList ≠ [] := by decide
  have hletters := congrArg (List.getLast? ∘ String.toList) h
  simp only [Function.comp_apply, String.toList_append,
    List.getLast?_append_of_ne_nil _ (hne _ hkind),
    List.getLast?_append_of_ne_nil _ (hne _ hkind')] at hletters
  obtain rfl := hlast kind hkind kind' hkind' hletters
  exact ⟨by simpa [String.append_left_inj] using h, rfl⟩

/-- A name in Pascal case is as long as the name, so what sets a state is longer than either. -/
theorem length_pascalName {e : Endpoint} (h : Endpoint.Alphanumeric e.name) :
    e.pascalName.length = e.name.length := by
  rw [Endpoint.pascalName, Naming.length_pascalCase, List.filter_eq_self.mpr h,
    String.length_toList]

/-- An endpoint is not called like what sets its own state. -/
theorem name_ne_setter {e : Endpoint} (h : Endpoint.Alphanumeric e.name) :
    e.name ≠ "set" ++ e.pascalName := by
  intro heq
  have hlength := congrArg String.length heq
  rw [String.length_append, length_pascalName h] at hlength
  have hset : "set".length = 3 := rfl
  omega

/-- No endpoint is called like its own state. -/
theorem name_not_mem_stateNames {e : Endpoint} (h : Endpoint.Alphanumeric e.name) :
    e.name ∉ (combined e).stateNames := by
  intro hmem
  obtain ⟨stem, hstem, kind, hkind, heq⟩ := mem_stateNames_combined.mp hmem
  have hlonger : ∀ kind ∈ kinds, kind.length ≠ 0 := by decide
  have hlength := congrArg String.length heq
  rw [String.length_append] at hlength
  have hkind := hlonger kind hkind
  rcases List.mem_pair.mp hstem with rfl | rfl
  · omega
  · rw [String.length_append, length_pascalName h] at hlength
    omega

/-- The names that a hook declares for one endpoint are distinct. -/
theorem nodup_declared_combined {e : Endpoint} (h : Endpoint.Alphanumeric e.name) :
    (combined e).declared.Nodup := by
  have hstems : (stems e).Nodup := by simpa [stems] using name_ne_setter h
  have hkinds : kinds.Nodup := by decide
  have hstates : (combined e).stateNames.Nodup := by
    rw [stateNames_combined]
    -- A name of the state can be taken apart again into its stem and its kind.
    refine (hkinds.product hstems).map_on fun p hp q hq heq => ?_
    obtain ⟨hp, -⟩ := List.pair_mem_product.mp hp
    obtain ⟨hq, -⟩ := List.pair_mem_product.mp hq
    obtain ⟨hstem, hkind⟩ := append_kind_inj hp hq heq
    exact Prod.ext hkind hstem
  rw [declared_eq_append]
  refine List.nodup_append'.mpr ⟨hstates, List.nodup_singleton _, ?_⟩
  rw [List.disjoint_singleton]
  exact name_not_mem_stateNames h

/-- Two endpoints of different names share no declared name exactly if they are not called like
something of each other and differ in Pascal case. -/
theorem disjoint_declared_combined_iff {e e' : Endpoint} (hne : e.name ≠ e'.name) :
    (combined e).declared.Disjoint (combined e').declared ↔
      e.pascalName ≠ e'.pascalName ∧
      (e.name ≠ "set" ++ e'.pascalName ∧ e.name ∉ (combined e').stateNames) ∧
      (e'.name ≠ "set" ++ e.pascalName ∧ e'.name ∉ (combined e).stateNames) := by
  have hmem : ∀ {e : Endpoint} {name : String}, name ∈ (combined e).declared ↔
      name ∈ (combined e).stateNames ∨ name = e.name := by
    intro e name
    rw [declared_eq_append, List.mem_append, List.mem_singleton]
    rfl
  have hstate : ∀ {e : Endpoint} {stem : String}, stem ∈ stems e →
      stem ++ "Data" ∈ (combined e).declared := fun hstem =>
    hmem.mpr (.inl (mem_stateNames_combined.mpr ⟨_, hstem, "Data", by decide, rfl⟩))
  constructor
  · intro hdisjoint
    -- A common stem would give both an answer of one name.
    have hstems : ∀ stem ∈ stems e, stem ∉ stems e' := fun stem hstem hstem' =>
      hdisjoint (hstate hstem) (hstate hstem')
    refine ⟨fun heq => ?_, ⟨fun heq => ?_, fun hin => ?_⟩, fun heq => ?_, fun hin => ?_⟩
    · exact hstems ("set" ++ e.pascalName) (by simp [stems]) (by simp [stems, heq])
    · exact hstems e.name (by simp [stems]) (by simp [stems, ← heq])
    · exact hdisjoint (hmem.mpr (.inr rfl)) (hmem.mpr (.inl hin))
    · exact hstems e'.name (by simp [stems, ← heq]) (by simp [stems])
    · exact hdisjoint (hmem.mpr (.inl hin)) (hmem.mpr (.inr rfl))
  · rintro ⟨hpascal, ⟨hsetter, hin⟩, hsetter', hin'⟩ name hname hname'
    rcases hmem.mp hname with hname | rfl
    · rcases hmem.mp hname' with hname' | rfl
      · -- Of two names of states the stems agree, so the endpoints are called alike in some way.
        obtain ⟨stem, hstem, kind, hkind, rfl⟩ := mem_stateNames_combined.mp hname
        obtain ⟨stem', hstem', kind', hkind', heq⟩ := mem_stateNames_combined.mp hname'
        obtain ⟨rfl, -⟩ := append_kind_inj hkind hkind' heq
        rcases List.mem_pair.mp hstem with rfl | rfl
        · rcases List.mem_pair.mp hstem' with heq | heq
          · exact hne heq
          · exact hsetter heq
        · rcases List.mem_pair.mp hstem' with heq | heq
          · exact hsetter' heq.symm
          · exact hpascal (by simpa [String.append_right_inj] using heq)
      · exact hin' hname
    · rcases hmem.mp hname' with hname' | heq
      · exact hin hname'
      · exact hne heq

end HookNames

/-- No endpoint of the group is called like the state of one, or like what sets it up to the kind of
state, and all names differ in Pascal case. -/
structure EndpointGroup.Unambiguous (g : EndpointGroup) : Prop where
  /-- The names differ in Pascal case. -/
  pascalName : (g.endpoints.map Endpoint.pascalName).Nodup
  /-- No name is that of a state or of what sets it. -/
  state : ∀ e ∈ g.endpoints, ∀ e' ∈ g.endpoints, e.name ∉ (HookNames.combined e').stateNames
  /-- No name is a name in Pascal case with the word in front that what sets a state begins with. -/
  setter : ∀ e ∈ g.endpoints, ∀ e' ∈ g.endpoints, e.name ≠ "set" ++ e'.pascalName

namespace Hook

/-- The names that are declared for some endpoints of distinct names are distinct exactly if no
endpoint is called like something of another one. -/
theorem nodup_declared_iff {g : EndpointGroup} (hnodup : (g.endpoints.map Endpoint.name).Nodup)
    (hnames : ∀ e ∈ g.endpoints, Endpoint.Alphanumeric e.name) :
    (g.endpoints.flatMap fun e => (HookNames.combined e).declared).Nodup ↔ g.Unambiguous := by
  have hinj : ∀ e ∈ g.endpoints, ∀ e' ∈ g.endpoints, e ≠ e' → e.name ≠ e'.name :=
    fun e he e' he' hne heq => hne (List.inj_on_of_nodup_map hnodup he he' heq)
  rw [List.nodup_flatMap]
  constructor
  · rintro ⟨-, hpairwise⟩
    have hsymm : Std.Symm (Function.onFun List.Disjoint fun e => (HookNames.combined e).declared) :=
      ⟨fun e e' hdisjoint name hname hname' => hdisjoint hname' hname⟩
    have hclear : ∀ e ∈ g.endpoints, ∀ e' ∈ g.endpoints, e ≠ e' → _ := fun e he e' he' hne =>
      (HookNames.disjoint_declared_combined_iff (hinj e he e' he' hne)).mp
        (hpairwise.forall he he' hne)
    refine ⟨(hnodup.of_map _).map_on fun e he e' he' heq => ?_, ?_, ?_⟩
    · by_contra hne
      exact (hclear e he e' he' hne).1 heq
    · intro e he e' he'
      by_cases heq : e = e'
      · exact heq ▸ HookNames.name_not_mem_stateNames (hnames e he)
      · exact (hclear e he e' he' heq).2.1.2
    · intro e he e' he'
      by_cases heq : e = e'
      · exact heq ▸ HookNames.name_ne_setter (hnames e he)
      · exact (hclear e he e' he' heq).2.1.1
  · intro h
    -- Of one endpoint the names are always distinct, so only two of them can meet.
    refine ⟨fun e he => HookNames.nodup_declared_combined (hnames e he), ?_⟩
    refine (hnodup.of_map _).pairwise_of_forall_ne fun e he e' he' hne => ?_
    refine (HookNames.disjoint_declared_combined_iff (hinj e he e' he' hne)).mpr ⟨?_, ?_, ?_⟩
    · exact fun heq => hne (List.inj_on_of_nodup_map h.pascalName he he' heq)
    · exact ⟨h.setter e he e' he', h.state e he e' he'⟩
    · exact ⟨h.setter e' he' e he, h.state e' he' e he⟩

/-- The lines behind the body: what the hook gives. -/
def returnLines (h : Hook) : List String :=
  ["  return \x7b"]
    ++ (h.parts.flatMap fun p =>
      [p.names.data, p.names.loading, p.names.error, p.names.call].map ("    " ++ · ++ ","))
    ++ ["  \x7d;", "\x7d;"]

/-- The body of the hook for a group of a catalog declares seven names for every endpoint. -/
theorem perm_constNames_combined {document : Node} {basePaths : List String} {catalog : Catalog}
    (hcatalog : Catalog.ofDocument document basePaths = .ok catalog) {models : ModelSet}
    {groups : List EndpointGroup} (hgroups : EndpointGroup.ofCatalog models catalog = .ok groups)
    {g : EndpointGroup} (hg : g ∈ groups) (s : Settings) (workingDirectory : List String) :
    (((combined g s workingDirectory models).bodyLines s).flatMap constNames).Perm
      (g.endpoints.flatMap fun e => (HookNames.combined e).declared) := by
  have hdeclared : (combined g s workingDirectory models).declared
      = g.endpoints.flatMap fun e => (HookNames.combined e).declared := List.flatMap_map ..
  rw [← hdeclared]
  apply perm_constNames
  intro p hp
  obtain ⟨e, he, rfl⟩ := List.mem_map.mp hp
  exact HookNames.alphanumeric_combined (EndpointGroup.alphanumeric_name hcatalog hgroups hg e he)

/-- Behind the line that opens the function, a combined hook has its body, which declares seven
names for every endpoint of the group. The declared names are distinct exactly if no endpoint is
called like something of another one. -/
theorem nodup_constNames_iff {document : Node} {basePaths : List String} {catalog : Catalog}
    (hcatalog : Catalog.ofDocument document basePaths = .ok catalog) {models : ModelSet}
    {groups : List EndpointGroup} (hgroups : EndpointGroup.ofCatalog models catalog = .ok groups)
    {g : EndpointGroup} (hg : g ∈ groups) (s : Settings) (workingDirectory : List String) :
    let h := combined g s workingDirectory models
    h.combinedText s
        = textOfLines (h.headLines s ++ [h.openingLine] ++ h.bodyLines s ++ h.returnLines) ∧
      ((h.bodyLines s).flatMap constNames).Perm
        (g.endpoints.flatMap fun e => (HookNames.combined e).declared) ∧
      (((h.bodyLines s).flatMap constNames).Nodup ↔ g.Unambiguous) := by
  intro h
  have hperm := perm_constNames_combined hcatalog hgroups hg s workingDirectory
  refine ⟨?_, hperm, ?_⟩
  · simp only [combinedText, bodyLines, returnLines, List.append_assoc]
  · rw [hperm.nodup_iff]
    exact nodup_declared_iff (EndpointGroup.nodup_names hgroups hg)
      (EndpointGroup.alphanumeric_name hcatalog hgroups hg)

/-! ## Two operations of one tag -/

/-- A document with two operations under one tag. -/
def pairDocument (first second : String) : Node :=
  Run.objectOf "paths" (.object [
    (.text "/first", Run.objectOf "get" (Run.objectOf "operationId" (.text first))),
    (.text "/second", Run.objectOf "get" (Run.objectOf "operationId" (.text second)))])

/-- The names that a combined hook declares for an endpoint of a name. -/
def declaredFor (name : String) : List String :=
  let stems := [name, "set" ++ Naming.pascalCase name]
  HookNames.kinds.flatMap (fun kind => stems.map (· ++ kind)) ++ [name]

/-- The hook for the only group of a document declares names for each of its endpoints. -/
theorem exists_perm_declaredFor {document : Node} {s : Settings} {names : List String}
    (h : (EndpointGroup.ofDocument? document s.basePaths.paths).map
      (fun found => found.2.2.map fun g => g.endpoints.map Endpoint.name) = some [names]) :
    ∃ catalog models session groups g,
      Catalog.ofDocument document s.basePaths.paths = .ok catalog ∧
      (Generation.models { document } catalog).run {} = (.ok models, session) ∧
      EndpointGroup.ofCatalog models catalog = .ok groups ∧ g ∈ groups ∧
      (((combined g s ["project"] models).bodyLines s).flatMap constNames).Perm
        (names.flatMap declaredFor) := by
  obtain ⟨⟨catalog, models, groups⟩, hfound, hnames⟩ := Option.map_eq_some_iff.mp h
  obtain ⟨hcatalog, ⟨session, hmodels⟩, hgroups⟩ := EndpointGroup.of_ofDocument? hfound
  obtain ⟨g, hg, rfl⟩ : ∃ g ∈ groups, g.endpoints.map Endpoint.name = names :=
    List.mem_map.mp (by rw [hnames]; exact List.mem_singleton_self _)
  have hperm := perm_constNames_combined hcatalog hgroups hg s ["project"]
  rw [List.flatMap_map]
  exact ⟨catalog, models, session, groups, g, hcatalog, hmodels, hgroups, hg, hperm⟩

/-- The hook for two operations whose names have nothing in common. -/
theorem nodup_constNames_iff_apart : ∃ catalog models groups g,
    Catalog.ofDocument (pairDocument "getUser" "listPets") [] = .ok catalog ∧
    EndpointGroup.ofCatalog models catalog = .ok groups ∧ g ∈ groups ∧ g.Unambiguous := by
  have hnames : (EndpointGroup.ofDocument? (pairDocument "getUser" "listPets") []).map
      (fun found => found.2.2.map fun g => g.endpoints.map Endpoint.name)
      = some [["getUser", "listPets"]] := by decide +kernel
  obtain ⟨catalog, models, -, groups, g, hcatalog, -, hgroups, hg, hperm⟩ :=
    exists_perm_declaredFor (s := Run.crowdedSettings false true) hnames
  obtain ⟨-, -, hiff⟩ :=
    nodup_constNames_iff hcatalog hgroups hg (Run.crowdedSettings false true) ["project"]
  rw [hperm.nodup_iff] at hiff
  exact ⟨catalog, models, groups, g, hcatalog, hgroups, hg, hiff.mp (by decide +kernel)⟩

/-- A hook can declare a name twice: the answer of `getUser` has the name of `getUserData`. -/
theorem exists_repeated_constName : ¬ ∀ (document : Node) (s : Settings) (catalog : Catalog)
    (models : ModelSet) (session : Session) (groups : List EndpointGroup) (g : EndpointGroup)
    (workingDirectory : List String),
    Catalog.ofDocument document s.basePaths.paths = .ok catalog →
    (Generation.models { document } catalog).run {} = (.ok models, session) →
    EndpointGroup.ofCatalog models catalog = .ok groups → g ∈ groups →
    (((combined g s workingDirectory models).bodyLines s).flatMap constNames).Nodup := by
  intro hall
  have hnames : (EndpointGroup.ofDocument? (pairDocument "getUser" "getUserData") []).map
      (fun found => found.2.2.map fun g => g.endpoints.map Endpoint.name)
      = some [["getUser", "getUserData"]] := by decide +kernel
  obtain ⟨catalog, models, session, groups, g, hcatalog, hmodels, hgroups, hg, hperm⟩ :=
    exists_perm_declaredFor (s := Run.crowdedSettings false true) hnames
  have hnodup := hall _ _ _ _ _ _ _ ["project"] hcatalog hmodels hgroups hg
  rw [hperm.nodup_iff] at hnodup
  exact absurd hnodup (by decide +kernel)

end Hook

end ClientGen
