import ClientGen.Proofs.Endpoint.Identifiers
import ClientGen.Proofs.Model.UsedNames

/-!
# Requests in two flavours

The request of an endpoint is a call of the HTTP client or uses the `fetch` of the platform. A
function of the client takes what it sends by place: behind the address comes the body if the HTTP
method has one, and then the options. For a method whose function takes no body the call leaves the
body out, while the other flavour sends it and callers have to give it.

* `AxiosCall.sends`: what the client makes of the arguments of a call.
* `Endpoint.DropsPayload`: there is a body to send, and the function of the client takes none.
* `callArguments`: the arguments of a call as they are read in its text.
* `Endpoint.requests_agree_iff`: when both flavours send the same things.
-/

namespace ClientGen

open Text

/-! ## Arguments of a call -/

/-- The arguments of a call that has no other brackets. -/
def callArguments (call : String) : List String :=
  let inside := before ')' ((call.toList.dropWhile (· ≠ '(')).drop 1)
  if inside.isEmpty then [] else ((splitOn ',' inside).map trim).map String.ofList

/-- The arguments of a call are read as they are if they are made of letters and digits. -/
theorem callArguments_call {function : String} {args : List String}
    (hfunction : '(' ∉ function.toList)
    (hargs : ∀ arg ∈ args, Endpoint.Alphanumeric arg ∧ arg.toList ≠ []) :
    callArguments (function ++ "(" ++ ", ".intercalate args ++ ")") = args := by
  have halpha : ∀ w ∈ args.map String.toList, ∀ c ∈ w, isAsciiAlphanumeric c := by
    intro w hw
    obtain ⟨arg, harg, rfl⟩ := List.mem_map.mp hw
    exact (hargs arg harg).1
  have hnot : ∀ {c : Char}, isAsciiAlphanumeric c = false → ∀ w ∈ args.map String.toList,
      c ∉ w := by
    intro c hc w hw hmem
    rw [halpha w hw c hmem] at hc
    cases hc
  -- The closing bracket is the first one behind the opening bracket, so all arguments are inside.
  have hclosing : ')' ∉ joined [',', ' '] (args.map String.toList) := fun hmem => by
    rcases mem_joined hmem with hmem | ⟨w, hw, hmem⟩
    · exact absurd hmem (by decide)
    · exact hnot (by decide) w hw hmem
  have hinside : before ')' (((function ++ "(" ++ ", ".intercalate args ++ ")").toList.dropWhile
      (· ≠ '(')).drop 1) = joined [',', ' '] (args.map String.toList) := by
    have htext : (function ++ "(" ++ ", ".intercalate args ++ ")").toList
        = function.toList ++ '(' :: (joined [',', ' '] (args.map String.toList) ++ [')']) := by
      simp only [String.toList_append, toList_intercalate]
      simp
    rw [htext, dropWhile_ne_append hfunction, List.drop_succ_cons, List.drop_zero, before,
      takeWhile_ne_append hclosing]
  rw [callArguments, hinside]
  rcases args with _ | ⟨arg, args⟩
  · rfl
  · have hsubset : arg.toList ⊆ joined [',', ' '] ((arg :: args).map String.toList) :=
      subset_joined _ (List.mem_map_of_mem List.mem_cons_self)
    have hne : joined [',', ' '] ((arg :: args).map String.toList) ≠ [] := fun hnil =>
      (hargs arg List.mem_cons_self).2 (List.subset_nil.mp (hnil ▸ hsubset))
    have hread : (splitOn ',' (joined [',', ' '] ((arg :: args).map String.toList)
        ++ List.replicate 0 ' ')).map trim = (arg :: args).map String.toList :=
      map_trim_splitOn_joined (by decide) (List.map_cons ▸ List.cons_ne_nil _ _)
        (fun w hw => ⟨hnot (by decide) w hw, fun c hc =>
          not_isBlank_of_isAsciiAlphanumeric (halpha w hw c hc)⟩) 0
    rw [List.replicate_zero, List.append_nil] at hread
    rw [if_neg (by simpa using hne), hread, List.map_map]
    simp

/-! ## What the client sends -/

namespace AxiosArgument

/-- What is sent of an argument in the place of the body. -/
def asBody : AxiosArgument → List Carried
  | .payload => [.payload]
  | _ => []

/-- What is sent of an argument in the place of the options. -/
def asOptions : AxiosArgument → List Carried
  | .options carried => carried
  | _ => []

end AxiosArgument

namespace AxiosCall

/-- What the client sends. A function for a method with a body takes the body first and the options
behind it; the others take the options first. -/
def sends : AxiosCall → List Carried
  | .direct function _ _ arguments =>
    if bodyFunctions.contains function then
      arguments[0]?.elim [] AxiosArgument.asBody ++ arguments[1]?.elim [] AxiosArgument.asOptions
    else arguments[0]?.elim [] AxiosArgument.asOptions
  | .general _ _ _ payload options => (if payload then [.payload] else []) ++ options

/-- The HTTP method of the request. -/
def method : AxiosCall → String
  | .direct function _ _ _ => Naming.upperCase function
  | .general _ _ method _ _ => method

/-- The functions of the client that take no body. -/
def bodyless : List String := functions.filter fun function => !bodyFunctions.contains function

end AxiosCall

/-- The function of the client for the method takes no body, though there is one to send. -/
def Endpoint.DropsPayload (e : Endpoint) : Prop :=
  e.request.isSome ∧ e.methodName ∈ AxiosCall.bodyless

instance (e : Endpoint) : Decidable e.DropsPayload :=
  inferInstanceAs (Decidable (_ ∧ _))

namespace AxiosCall

variable {e : Endpoint} {constant : String} {headers : Bool}

/-- What has to be carried is the body, and what the options hold. -/
theorem carried_eq (e : Endpoint) (headers : Bool) :
    e.carried headers = (if e.request.isSome then [.payload] else []) ++ optionsOf e headers :=
  List.append_assoc ..

/-- A function for a method with a body gets the options behind the body, or behind what stands for
a missing one. -/
theorem sends_direct_of_body {function : String} (h : bodyFunctions.contains function)
    (e : Endpoint) (types : List String) (path : String) (options : List Carried) :
    (direct function types path (bodyArgument e options
        ++ if options.isEmpty then [] else [.options options])).sends
      = (if e.request.isSome then [.payload] else []) ++ options := by
  rw [sends, if_pos h, bodyArgument]
  cases options <;> cases e.request.isSome <;> rfl

/-- Any other function gets the options alone. -/
theorem sends_direct_of_no_body {function : String} (h : ¬ bodyFunctions.contains function)
    (types : List String) (path : String) (options : List Carried) :
    (direct function types path (if options.isEmpty then [] else [.options options])).sends
      = options := by
  rw [sends, if_neg h]
  cases options <;> rfl

/-- What is sent is what has to be carried, less the body where that is dropped. -/
theorem sends_ofEndpoint (e : Endpoint) (constant : String) (headers : Bool) :
    (ofEndpoint e constant headers).sends
      = if e.DropsPayload then optionsOf e headers else e.carried headers := by
  have hbodyless : e.methodName ∈ bodyless ↔
      functions.contains e.methodName ∧ ¬ bodyFunctions.contains e.methodName := by
    simp [bodyless]
  rw [carried_eq, ofEndpoint]
  -- The call has one of three shapes; only the one without a place for the body can drop it.
  by_cases hfunction : functions.contains e.methodName
  · rw [if_neg (by simpa using hfunction)]
    by_cases hbody : bodyFunctions.contains e.methodName
    · have hkept : ¬ e.DropsPayload := fun hdrops => (hbodyless.mp hdrops.2).2 hbody
      rw [if_pos hbody, sends_direct_of_body hbody, if_neg hkept]
    · rw [if_neg hbody, sends_direct_of_no_body hbody]
      split
      · rfl
      · rename_i hkept
        have hnone : ¬ e.request.isSome := fun hsome =>
          hkept ⟨hsome, hbodyless.mpr ⟨hfunction, hbody⟩⟩
        rw [if_neg hnone, List.nil_append]
  · have hkept : ¬ e.DropsPayload := fun hdrops => hfunction (hbodyless.mp hdrops.2).1
    rw [if_pos (by simpa using hfunction), if_neg hkept]
    rfl

/-- The payload does not go into the options. -/
theorem payload_not_mem_optionsOf (e : Endpoint) (headers : Bool) :
    Carried.payload ∉ optionsOf e headers := by
  rw [optionsOf]
  cases e.params.isSome <;> cases headers <;> decide

/-- Everything but a body is sent in any case. -/
theorem mem_sends_iff {x : Carried} (hx : x ≠ .payload) :
    x ∈ (ofEndpoint e constant headers).sends ↔ x ∈ e.carried headers := by
  rw [sends_ofEndpoint, carried_eq]
  split
  · cases e.request.isSome <;> simp [hx]
  · rfl

/-- A body is sent unless it is dropped. -/
theorem payload_mem_sends_iff :
    (Carried.payload ∈ (ofEndpoint e constant headers).sends ↔ Carried.payload ∈ e.carried headers)
      ↔ ¬ e.DropsPayload := by
  rw [sends_ofEndpoint]
  split
  · rename_i hdrops
    have hcarried : Carried.payload ∈ e.carried headers := by
      rw [carried_eq, if_pos hdrops.1]
      exact List.mem_append_left _ (List.mem_singleton_self _)
    exact iff_of_false (fun hiff => payload_not_mem_optionsOf e headers (hiff.mpr hcarried))
      (not_not_intro hdrops)
  · rename_i hkept
    exact iff_of_true Iff.rfl hkept

/-- All that is carried is sent exactly if the payload is not dropped. -/
theorem sends_eq_carried_iff :
    (ofEndpoint e constant headers).sends = e.carried headers ↔ ¬ e.DropsPayload :=
  ⟨fun heq => payload_mem_sends_iff.mp (by rw [heq]), fun hkept => by
    rw [sends_ofEndpoint, if_neg hkept]⟩

/-- A request is sent to the path of its endpoint. -/
theorem path_ofEndpoint (e : Endpoint) (constant : String) (headers : Bool) :
    (ofEndpoint e constant headers).path = e.pathCall constant := by
  rw [ofEndpoint]
  split
  · rfl
  · split <;> rfl

/-- The function of the client is that of the method. -/
theorem method_ofEndpoint (h : e.method ∈ httpMethods.map Naming.upperCase) (constant : String)
    (headers : Bool) : (ofEndpoint e constant headers).method = e.method := by
  have hcapitals : Naming.upperCase e.methodName = e.method := by
    have hmethods : ∀ m ∈ httpMethods.map Naming.upperCase,
        Naming.upperCase (Naming.lowerCase m) = m := by decide +kernel
    exact hmethods e.method h
  rw [ofEndpoint]
  split
  · rfl
  · split <;> exact hcapitals

/-- All that is sent is among the arguments of the call. -/
theorem mem_carries_of_mem_sends {c : AxiosCall} {x : Carried} (h : x ∈ c.sends) :
    x ∈ c.carries := by
  cases c with
  | general response path method payload options => exact h
  | direct function types path arguments =>
    -- Whatever a place takes of its argument, the argument carries it.
    have hplace : ∀ i : Nat, ∀ sent : AxiosArgument → List Carried, (∀ a, sent a ⊆ a.carries) →
        x ∈ arguments[i]?.elim [] sent → x ∈ arguments.flatMap AxiosArgument.carries := by
      intro i sent hsent hx
      cases ha : arguments[i]? with
      | none => simp [ha] at hx
      | some a =>
        rw [ha, Option.elim_some] at hx
        exact List.mem_flatMap.mpr ⟨a, List.mem_of_getElem? ha, hsent a hx⟩
    have hbody : ∀ a : AxiosArgument, a.asBody ⊆ a.carries := by
      rintro (_ | _ | options) <;> simp [AxiosArgument.asBody, AxiosArgument.carries]
    have hoptions : ∀ a : AxiosArgument, a.asOptions ⊆ a.carries := by
      rintro (_ | _ | options) <;> simp [AxiosArgument.asOptions, AxiosArgument.carries]
    rw [sends] at h
    split at h
    · rcases List.mem_append.mp h with h | h
      · exact hplace 0 _ hbody h
      · exact hplace 1 _ hoptions h
    · exact hplace 0 _ hoptions h

/-- The names that the request uses: the arguments of the path, and what is sent. -/
def uses (c : AxiosCall) : List String := callArguments c.path ++ c.sends.map Carried.name

end AxiosCall

/-! ## Names in the text of requests -/

/-- Different things that are carried have different names. -/
theorem Carried.name_injective : Function.Injective Carried.name := by
  rintro (_ | _ | _) (_ | _ | _) h <;> first | rfl | exact absurd h (by decide)

/-- What an argument carries stands in its text as a word. -/
theorem AxiosArgument.stands {a : AxiosArgument} {x : Carried} (h : x ∈ a.carries) :
    Stands x.name.toList a.text.toList := by
  cases a with
  | payload =>
    obtain rfl : x = .payload := List.mem_singleton.mp h
    exact stands_self _
  | undefined => exact absurd h List.not_mem_nil
  | options carried =>
    have hname : x.name ∈ carried.map Carried.name := List.mem_map_of_mem h
    have hlisted := (stands_self _).intercalate ", " rfl rfl hname
    exact (hlisted.behind "" "\x7b " rfl).in_front " \x7d" rfl

namespace AxiosCall

variable {word : List Char} {c : AxiosCall}

/-- What stands in an argument of a call of a function stands in the call. -/
theorem stands_direct {function path text : String} {types : List String}
    {arguments : List AxiosArgument} (h : Stands word text.toList)
    (hmem : text ∈ path :: arguments.map AxiosArgument.text) :
    Stands word (direct function types path arguments).text.toList := by
  have hlisted := h.intercalate ", " rfl rfl hmem
  exact (hlisted.behind _ ">(" rfl).in_front ")" rfl

/-- What stands in a field of the object for the function for all methods stands in the call. -/
theorem stands_general {response path method field : String} {payload : Bool}
    {options : List Carried} (h : Stands word field.toList)
    (hmem : field ∈ ["url: " ++ path, "method: '" ++ method ++ "'"]
      ++ (if payload then ["data: payload"] else []) ++ options.map Carried.name) :
    Stands word (general response path method payload options).text.toList := by
  have hlisted := h.intercalate ", " rfl rfl hmem
  exact (hlisted.behind _ ">(\x7b " rfl).in_front " \x7d)" rfl

/-- A word of the path of a call stands in the text of the call. -/
theorem stands_of_path (h : Stands word c.path.toList) : Stands word c.text.toList := by
  cases c with
  | direct function types path arguments => exact stands_direct h List.mem_cons_self
  | general response path method payload options =>
    exact stands_general (h.behind "" "url: " rfl)
      (List.mem_append_left _ (List.mem_append_left _ List.mem_cons_self))

/-- What a call carries stands in its text as a word. -/
theorem stands_of_carries {x : Carried} (h : x ∈ c.carries) :
    Stands x.name.toList c.text.toList := by
  cases c with
  | direct function types path arguments =>
    -- The direct call lists its arguments; the general one writes the payload into its options.
    obtain ⟨a, ha, hx⟩ := List.mem_flatMap.mp h
    exact stands_direct (AxiosArgument.stands hx)
      (List.mem_cons_of_mem _ (List.mem_map_of_mem ha))
  | general response path method payload options =>
    rcases List.mem_append.mp h with h | h
    · cases payload with
      | false => exact absurd h List.not_mem_nil
      | true =>
        obtain rfl : x = .payload := List.mem_singleton.mp h
        have hfield : Stands "payload".toList "data: payload".toList :=
          (stands_self "payload".toList).behind "" "data: " rfl
        exact stands_general hfield (by simp)
    · exact stands_general (stands_self _) (List.mem_append_right _ (List.mem_map_of_mem h))

end AxiosCall

namespace FetchCall

variable {word : List Char} {c : FetchCall}

/-- The names that the statements use. -/
def uses (c : FetchCall) : List String := callArguments c.path ++ c.carries.map Carried.name

/-- The line that reads what is carried. -/
def readingLine : Carried → String
  | .payload => "  body: JSON.stringify(payload),"
  | .params => "if (params) \x7b"
  | .headers => "    ...headers,"

/-- The line that reads what is carried has its name as a word. -/
theorem stands_readingLine (x : Carried) : Stands x.name.toList (readingLine x).toList := by
  cases x with
  | payload =>
    have hopened := (stands_self "payload".toList).behind "  body: JSON.stringify" "(" rfl
    exact hopened.in_front ")," rfl
  | params =>
    have hopened := (stands_self "params".toList).behind "if " "(" rfl
    exact hopened.in_front ") \x7b" rfl
  | headers =>
    have hspread := (stands_self "headers".toList).behind "    " "..." rfl
    exact hspread.in_front "," rfl

/-- What the statements send is what they have a line for. -/
theorem mem_carries_iff {x : Carried} : x ∈ c.carries ↔ readingLine x ∈ c.lines := by
  -- The lines with a text of the endpoint start like none of the three.
  have hstart : ∀ {start rest : String}, (readingLine x).toList.take 3 ≠ start.toList.take 3 →
      3 ≤ start.toList.length → readingLine x ≠ start ++ rest := by
    intro start rest hne hlength heq
    rw [heq, String.toList_append, List.take_append_of_le_length hlength] at hne
    exact hne rfl
  have hurl : readingLine x ≠ "let url = " ++ (c.url ++ ";") :=
    hstart (by cases x <;> decide) (by decide)
  have hmethod : readingLine x ≠ "  method: '" ++ (c.method ++ "',") :=
    hstart (by cases x <;> decide) (by decide)
  have hresponse : readingLine x
      ≠ "const response: " ++ (c.response ++ " = await fetchResponse.json();") :=
    hstart (by cases x <;> decide) (by decide)
  simp only [lines, optionLines, answerLines, carries, String.append_assoc, List.mem_append,
    List.mem_cons, hurl, hmethod, hresponse]
  cases x <;> cases c.body <;> cases c.query <;> cases c.headers <;> decide

/-- What the statements carry stands in their lines as a word. -/
theorem stands_of_carries {x : Carried} (h : x ∈ c.carries) :
    Stands x.name.toList ("\n".intercalate c.lines).toList :=
  (stands_readingLine x).intercalate "\n" rfl rfl (mem_carries_iff.mp h)

/-- A word of the path stands in the lines of the statements. -/
theorem stands_of_path (h : Stands word c.path.toList) :
    Stands word ("\n".intercalate c.lines).toList := by
  have hurl : Stands word ("let url = " ++ c.url ++ ";").toList := by
    have hopened := h.behind ("let url = `$\x7b" ++ c.baseUrl ++ " || ''\x7d") "$\x7b" rfl
    have hbraces := hopened.in_front "\x7d`;" rfl
    rw [url]
    simpa using hbraces
  exact hurl.intercalate "\n" rfl rfl (by simp [lines])

end FetchCall

/-! ## Both flavours -/

/-- The arguments of a path are not empty, and have letters and digits only. -/
theorem PathTemplate.alphanumeric_args (path : String) :
    ∀ arg ∈ (ofPath path).args, Endpoint.Alphanumeric arg ∧ arg.toList ≠ [] :=
  (forall_args_iff (Q := fun _ => True) fun earlier name =>
    iff_of_true ⟨alphanumeric_argument earlier name, argument_ne_empty earlier name⟩ trivial).mpr
    fun _ _ => trivial

namespace Endpoint

variable {document : Node} {basePaths : List String} {catalog : Catalog} {models : ModelSet}
  {tag constant : String} {os : List Operation} {endpoints : List Endpoint} {o : Operation}
  {e : Endpoint}

/-- The call for the path passes the arguments of the path. -/
theorem callArguments_pathCall (hconstant : Alphanumeric constant) (hname : Alphanumeric e.name)
    (htemplate : e.template = .ofPath e.path) :
    callArguments (e.pathCall constant) = e.template.args := by
  have hfunction : '(' ∉ (constant ++ "." ++ e.name).toList := by
    simp only [String.toList_append, List.mem_append, not_or]
    refine ⟨⟨fun hmem => ?_, by decide⟩, fun hmem => ?_⟩
    · exact absurd (hconstant _ hmem) (by decide)
    · exact absurd (hname _ hmem) (by decide)
  exact callArguments_call hfunction (htemplate ▸ PathTemplate.alphanumeric_args e.path)

/-- The arguments of a path stand in the call for the path as words. -/
theorem stands_pathCall {arg : String} (h : arg ∈ e.template.args) :
    Stands arg.toList (e.pathCall constant).toList :=
  (((stands_self _).intercalate ", " rfl rfl h).behind _ "(" rfl).in_front ")" rfl

/-- Both flavours of a request have the same method and the same address with all arguments of the
path, and they send the same query parameters and headers. They send the same body, and the client's
call uses all parameters of the function around it, unless there is a body and the function of the
client takes none; the other flavour always uses all of them. -/
theorem requests_agree_iff (hcatalog : Catalog.ofDocument document basePaths = .ok catalog)
    (htag : (tag, os) ∈ catalog) (hendpoints : ofOperations models os = .ok endpoints)
    (hoe : (o, e) ∈ os.zip endpoints) (baseUrl : String) (headers : Bool) :
    let axios := AxiosCall.ofEndpoint e (EndpointGroup.constantOf tag) headers
    let fetch := FetchCall.ofEndpoint e (EndpointGroup.constantOf tag) baseUrl headers
    let names := (e.arguments headers).map Argument.name
    (axios.method = fetch.method ∧ axios.path = fetch.path ∧
        callArguments fetch.path = e.template.args) ∧
      (∀ x ≠ Carried.payload, x ∈ axios.sends ↔ x ∈ fetch.carries) ∧
      ((Carried.payload ∈ axios.sends ↔ Carried.payload ∈ fetch.carries) ↔ ¬ e.DropsPayload) ∧
      (axios.uses = names ↔ ¬ e.DropsPayload) ∧ fetch.uses = names ∧
      (∀ name ∈ axios.uses, Stands name.toList axios.text.toList) ∧
      ∀ name ∈ fetch.uses, Stands name.toList ("\n".intercalate fetch.lines).toList := by
  intro axios fetch names
  obtain ⟨hmethod, more, hmore, he⟩ := exists_eq_ofOperation hcatalog htag hendpoints hoe
  have hconstant : Alphanumeric (EndpointGroup.constantOf tag) :=
    Alphanumeric.append (fun _ => Naming.alphanumeric_camelCase tag) (by decide)
  have hname : Alphanumeric e.name := he ▸ o.alphanumeric_methodName.append hmore
  have hpath : axios.path = fetch.path := AxiosCall.path_ofEndpoint ..
  have hargs : callArguments fetch.path = e.template.args :=
    callArguments_pathCall hconstant hname (by rw [he]; rfl)
  have hfetch : fetch.carries = e.carried headers := rfl
  have hnames : names = e.template.args ++ (e.carried headers).map Carried.name :=
    e.map_name_arguments headers
  -- The arguments of the path are the same on both sides, and names tell apart what is sent.
  have haxios : axios.uses = names ↔ axios.sends = e.carried headers := by
    rw [AxiosCall.uses, hpath, hargs, hnames, List.append_cancel_left_eq]
    exact (List.map_injective_iff.mpr Carried.name_injective).eq_iff
  refine ⟨⟨?_, hpath, hargs⟩, fun x hx => AxiosCall.mem_sends_iff hx,
    AxiosCall.payload_mem_sends_iff, haxios.trans AxiosCall.sends_eq_carried_iff, ?_, ?_, ?_⟩
  · exact AxiosCall.method_ofEndpoint (he ▸ hmethod) _ _
  · rw [FetchCall.uses, hargs, hfetch, hnames]
  · intro name hused
    rcases List.mem_append.mp hused with hmem | hmem
    · rw [hpath, hargs] at hmem
      exact AxiosCall.stands_of_path (hpath ▸ stands_pathCall hmem)
    · obtain ⟨x, hx, rfl⟩ := List.mem_map.mp hmem
      exact AxiosCall.stands_of_carries (AxiosCall.mem_carries_of_mem_sends hx)
  · intro name hused
    rcases List.mem_append.mp hused with hmem | hmem
    · rw [hargs] at hmem
      exact FetchCall.stands_of_path (stands_pathCall hmem)
    · obtain ⟨x, hx, rfl⟩ := List.mem_map.mp hmem
      exact FetchCall.stands_of_carries hx

/-- What the two flavours of the request send, where callers may add headers. -/
def sentByBoth (tag : String) (e : Endpoint) : List Carried × List Carried :=
  ((AxiosCall.ofEndpoint e (EndpointGroup.constantOf tag) true).sends,
    (FetchCall.ofEndpoint e (EndpointGroup.constantOf tag) "" true).carries)

/-- A body that is posted is sent in both flavours. -/
theorem requests_agree_iff_post :
    ∃ catalog models tag os endpoints o e,
      Catalog.ofDocument (EndpointGroup.bodyDocument "post" "/pets/{petId}" "addPet" "pets") []
        = .ok catalog ∧ (tag, os) ∈ catalog ∧ ofOperations models os = .ok endpoints ∧
      (o, e) ∈ os.zip endpoints ∧ sentByBoth tag e = ([.payload, .headers], [.payload, .headers]) ∧
      ¬ e.DropsPayload ∧ (AxiosCall.ofEndpoint e (EndpointGroup.constantOf tag) true).uses
        = (e.arguments true).map Argument.name := by
  have hshown : (EndpointGroup.ofDocument?
      (EndpointGroup.bodyDocument "post" "/pets/{petId}" "addPet" "pets") []).map
      (fun found => found.2.2.map fun g => g.endpoints.map (sentByBoth g.tag))
      = some [[([.payload, .headers], [.payload, .headers])]] := by
    decide +kernel
  obtain ⟨catalog, models, -, tag, os, endpoints, o, e, hcatalog, -, htag, hendpoints, hoe,
    hsent⟩ := EndpointGroup.exists_of_ofDocument? hshown
  obtain ⟨-, -, hpayload, huses, -⟩ := requests_agree_iff hcatalog htag hendpoints hoe "" true
  have heq := hsent
  rw [sentByBoth, Prod.mk.injEq] at heq
  have hkept : ¬ e.DropsPayload := hpayload.mp (by rw [heq.1, heq.2])
  exact ⟨catalog, models, tag, os, endpoints, o, e, hcatalog, htag, hendpoints, hoe, hsent, hkept,
    huses.mpr hkept⟩

/-- The body of a request to delete something is sent in one flavour only. -/
theorem exists_request_dropped :
    ¬ ∀ (document : Node) (catalog : Catalog) (models : ModelSet) (session : Session) (tag : String)
      (os : List Operation) (endpoints : List Endpoint) (o : Operation) (e : Endpoint)
      (baseUrl : String) (headers : Bool), Catalog.ofDocument document [] = .ok catalog →
      (Generation.models { document } catalog).run {} = (.ok models, session) →
      (tag, os) ∈ catalog → ofOperations models os = .ok endpoints → (o, e) ∈ os.zip endpoints →
      let axios := AxiosCall.ofEndpoint e (EndpointGroup.constantOf tag) headers
      let fetch := FetchCall.ofEndpoint e (EndpointGroup.constantOf tag) baseUrl headers
      axios.path = fetch.path ∧ (∀ x, x ∈ axios.sends ↔ x ∈ fetch.carries) ∧
        ∀ a ∈ e.arguments headers, a.name ∈ axios.uses ∧ a.name ∈ fetch.uses := by
  intro hall
  have hshown : (EndpointGroup.ofDocument?
      (EndpointGroup.bodyDocument "delete" "/pets/{petId}" "removePet" "pets") []).map
      (fun found => found.2.2.map fun g => g.endpoints.map (sentByBoth g.tag))
      = some [[([.headers], [.payload, .headers])]] := by
    decide +kernel
  obtain ⟨catalog, models, session, tag, os, endpoints, o, e, hcatalog, hmodels, htag, hendpoints,
    hoe, hsent⟩ := EndpointGroup.exists_of_ofDocument? hshown
  obtain ⟨-, hsame, -⟩ := hall _ _ _ _ _ _ _ _ _ "" true hcatalog hmodels htag hendpoints hoe
  rw [sentByBoth, Prod.mk.injEq] at hsent
  have hpayload := hsame .payload
  rw [hsent.1, hsent.2] at hpayload
  exact absurd hpayload (by decide)

end Endpoint

end ClientGen
