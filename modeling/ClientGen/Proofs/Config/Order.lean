import ClientGen.Config.Settings
import ClientGen.Proofs.Node.Updates

/-!
# Settings in any order

The settings in an object depend on what stands at the end of each path of keys, and not on the
order in which it is written.

* `Node.at?`: the node at the end of a path of keys.
* `Node.Alike`: the same shows at the end of every path, where an object shows as one only.
* `Settings.Respects`: a check says the same of nodes that are alike. All checks of settings do.
* `Settings.ofFields_congr`: of objects that are alike the settings are the same.
-/

namespace ClientGen

namespace Node

/-- The node at the end of a path of keys. -/
def at? (node : Node) : List Key → Option Node
  | [] => some node
  | key :: path => match node with
    | .object fields => (Fields.value? fields key).bind (at? · path)
    | _ => none

/-- What shows of a node itself, without its members: of an object, only that it is one. -/
def leaf? : Node → Option Node
  | .object _ => none
  | node => some node

/-- What shows of a place at the end of a path. -/
def view? (place : Option Node) (path : List Key) : Option (Option Node) :=
  (place.bind (at? · path)).map leaf?

/-- In two places, with a node or without one, the same shows at the end of every path. -/
def Alike (place place' : Option Node) : Prop := ∀ path, view? place path = view? place' path

variable {v w : Node} {fields fields' : Fields} {place place' : Option Node}

@[simp]
theorem at?_nil (v : Node) : v.at? [] = some v := rfl

@[simp]
theorem at?_object_cons (fields : Fields) (key : Key) (path : List Key) :
    (Node.object fields).at? (key :: path) = (Fields.value? fields key).bind (at? · path) := rfl

/-- Nothing stands below what is no object. -/
theorem at?_cons_of_leaf (h : v.isObject = false) (key : Key) (path : List Key) :
    v.at? (key :: path) = none := by
  cases v with
  | object fields => cases h
  | _ => rfl

@[simp]
theorem view?_object_cons (fields : Fields) (key : Key) (path : List Key) :
    view? (some (.object fields)) (key :: path) = view? (Fields.value? fields key) path := rfl

/-- Every place is like itself. -/
theorem Alike.rfl : Alike place place := fun _ => Eq.refl _

/-- Objects are alike if their members are. -/
theorem alike_object_iff : Alike (some (.object fields)) (some (.object fields')) ↔
    ∀ key, Alike (Fields.value? fields key) (Fields.value? fields' key) := by
  constructor
  · exact fun h key path => h (key :: path)
  · intro h path
    cases path with
    | nil => rfl
    | cons key path => exact h key path

/-- Only objects can be alike without being the same. -/
theorem Alike.cases (h : Alike (some v) (some w)) :
    (∃ fields fields', v = .object fields ∧ w = .object fields') ∨ v = w := by
  have hleaf : v.leaf? = w.leaf? := Option.some.inj (h [])
  cases v <;> cases w <;> simp_all [leaf?]

/-- In places that are alike there is a node in both or in none. -/
theorem Alike.places (h : Alike place place') : (place = none ∧ place' = none) ∨
    ∃ v w, place = some v ∧ place' = some w ∧ Alike (some v) (some w) := by
  have hroot := h []
  cases place with
  | none => cases place' with
    | none => exact .inl ⟨Eq.refl _, Eq.refl _⟩
    | some w => cases hroot
  | some v => cases place' with
    | none => cases hroot
    | some w => exact .inr ⟨v, w, Eq.refl _, Eq.refl _, h⟩

/-- Of two places that are alike, both or none has a node. -/
theorem Alike.eq_none_iff (h : Alike place place') : place = none ↔ place' = none := by
  obtain ⟨rfl, rfl⟩ | ⟨v, w, rfl, rfl, -⟩ := h.places <;> simp

/-- Nodes that are alike count as the same truth value. -/
theorem Alike.isTrue_eq (h : Alike (some v) (some w)) : v.isTrue = w.isTrue := by
  obtain ⟨fields, fields', rfl, rfl⟩ | rfl := h.cases
  · -- An object without members has nothing under any key, and the other one neither.
    have hempty : fields = [] ↔ fields' = [] := by
      have hkeys := alike_object_iff.mp h
      constructor <;> rintro rfl
      · exact Fields.eq_nil_of_value? fun key => (hkeys key).eq_none_iff.mp (Fields.value?_nil key)
      · exact Fields.eq_nil_of_value? fun key => (hkeys key).eq_none_iff.mpr (Fields.value?_nil key)
    rw [isTrue, isTrue, Bool.eq_iff_iff]
    simp [hempty]
  · rfl

end Node

namespace Settings

open Node

/-- A check says the same of nodes that are alike. -/
def Respects {α : Type} (check : List String → Node → Checked α) : Prop :=
  ∀ location v w, Alike (some v) (some w) → check location v = check location w

variable {α : Type} {check : List String → Node → Checked α} {fields fields' : Fields}

/-- A check that says the same of all objects respects what is alike. -/
theorem respects_of_objects (h : ∀ location (fields fields' : Fields),
    check location (.object fields) = check location (.object fields')) : Respects check := by
  intro location v w halike
  obtain ⟨fields, fields', rfl, rfl⟩ | rfl := halike.cases
  · exact h location fields fields'
  · rfl

/-- Checking that a setting is a text says the same of nodes that are alike. -/
theorem respects_checkText : Respects checkText := respects_of_objects fun _ _ _ => rfl

/-- Checking that a setting is true or false says the same of nodes that are alike. -/
theorem respects_checkBool : Respects checkBool := respects_of_objects fun _ _ _ => rfl

/-- Checking the pattern of hooks says the same of nodes that are alike. -/
theorem respects_checkPattern : Respects checkPattern := respects_of_objects fun _ _ _ => rfl

/-- Checking base paths says the same of nodes that are alike. -/
theorem respects_checkBasePaths : Respects checkBasePaths := respects_of_objects fun _ _ _ => rfl

/-- Checking the source says the same of nodes that are alike. -/
theorem respects_checkSource : Respects checkSource := respects_of_objects fun _ _ _ => rfl

/-- A setting is the same in objects that are alike. -/
theorem setting_congr (h : Alike (some (.object fields)) (some (.object fields')))
    (hcheck : Respects check) (location : List String) (name : String) (default : α) :
    setting location fields name check default = setting location fields' name check default := by
  have hname (name : String) := (alike_object_iff.mp h (.text name)).places
  unfold setting Fields.get?
  obtain ⟨hv, hw⟩ | ⟨v, w, hv, hw, halike⟩ := hname (Config.camelCase name)
  · rw [hv, hw]
    obtain ⟨hv, hw⟩ | ⟨v, w, hv, hw, halike⟩ := hname name
    · rw [hv, hw]
    · rw [hv, hw]
      exact hcheck _ v w halike
  · rw [hv, hw]
    exact hcheck _ v w halike

/-- A group respects what is alike if its members do. -/
theorem respects_checkGroup {check : List String → Fields → Checked α} (group : String)
    (h : ∀ location fields fields', Alike (some (.object fields)) (some (.object fields')) →
      check location fields = check location fields') : Respects (checkGroup group check) := by
  intro location v w halike
  obtain ⟨fields, fields', rfl, rfl⟩ | rfl := halike.cases
  · exact h location fields fields' halike
  · rfl

/-- Checking the section for the client says the same of sections that are alike. -/
theorem checkAxios_congr (location : List String)
    (h : Alike (some (.object fields)) (some (.object fields'))) :
    checkAxios location fields = checkAxios location fields' := by
  unfold checkAxios
  dsimp only
  rw [setting_congr h respects_checkBool _ "generate_axios_config",
    setting_congr h respects_checkText _ "axios_config_path",
    setting_congr h respects_checkText _ "base_url_placeholder",
    setting_congr h respects_checkBool _ "include_interceptors",
    setting_congr h respects_checkBool _ "skip_dependency_check"]

/-- Checking the section for hooks says the same of sections that are alike. -/
theorem checkHooks_congr (location : List String)
    (h : Alike (some (.object fields)) (some (.object fields'))) :
    checkHooks location fields = checkHooks location fields' := by
  unfold checkHooks
  dsimp only
  rw [setting_congr h respects_checkBool _ "generate_hooks",
    setting_congr h respects_checkText _ "hooks_dir",
    setting_congr h respects_checkPattern _ "hook_pattern",
    setting_congr h respects_checkBool _ "include_headers",
    setting_congr h respects_checkBool _ "use_fetch",
    setting_congr h respects_checkBool _ "skip_dependency_check"]

/-- The settings in objects that are alike are the same, and so are their errors. -/
theorem ofFields_congr (h : Alike (some (.object fields)) (some (.object fields'))) :
    ofFields fields = ofFields fields' := by
  have haxios : Respects (checkGroup "AxiosConfigOptions" checkAxios) :=
    respects_checkGroup _ fun location _ _ => checkAxios_congr location
  have hhooks : Respects (checkGroup "HookOptions" checkHooks) :=
    respects_checkGroup _ fun location _ _ => checkHooks_congr location
  unfold ofFields
  dsimp only
  rw [setting_congr h respects_checkSource _ "swagger_url",
    setting_congr h respects_checkText _ "output_dir",
    setting_congr h respects_checkText _ "models_dir",
    setting_congr h respects_checkText _ "endpoints_dir",
    setting_congr h respects_checkBool _ "generate_index",
    setting_congr h respects_checkBasePaths _ "strip_base_path",
    setting_congr h haxios _ "axios_config", setting_congr h hhooks _ "hooks"]

end Settings

end ClientGen
