import ClientGen.Node.Json
import ClientGen.Proofs.Failure

/-!
# Text keys

What is read as JSON names all members of objects by texts.

* `Node.hasTextKeys`: all keys in a node are texts.
* `Json.hasTextKeys_of_parse`: this holds of every node that is read as JSON.
-/

namespace ClientGen

namespace Node

mutual

/-- Are all keys in the node texts? -/
def hasTextKeys : Node → Bool
  | .list items => itemsHaveTextKeys items
  | .object fields => fieldsHaveTextKeys fields
  | _ => true

/-- Are all keys in the items of a list texts? -/
def itemsHaveTextKeys : List Node → Bool
  | [] => true
  | v :: vs => v.hasTextKeys && itemsHaveTextKeys vs

/-- Are all keys of an object, and all keys in its members, texts? -/
def fieldsHaveTextKeys : List (Key × Node) → Bool
  | [] => true
  | (k, v) :: fs => k.isText && v.hasTextKeys && fieldsHaveTextKeys fs

end

/-- All keys in a list are texts exactly if all keys in its items are. -/
theorem hasTextKeys_list_iff {items : List Node} :
    (Node.list items).hasTextKeys ↔ ∀ v ∈ items, v.hasTextKeys := by
  rw [hasTextKeys]
  induction items with
  | nil => simp [itemsHaveTextKeys]
  | cons v vs ih => simp [itemsHaveTextKeys, ih]

/-- All keys in an object are texts exactly if its own are, and all in its members. -/
theorem hasTextKeys_object_iff {fields : Fields} :
    (Node.object fields).hasTextKeys ↔ ∀ f ∈ fields, f.1.isText ∧ f.2.hasTextKeys := by
  rw [hasTextKeys]
  induction fields with
  | nil => simp [fieldsHaveTextKeys]
  | cons f fs ih => simp [fieldsHaveTextKeys, ih, and_assoc]

end Node

namespace Fields

variable {fields members : Fields} {key : Key} {value : Node}

/-- Setting a member with a text for a key keeps all keys texts. -/
theorem hasTextKeys_put (h : (Node.object fields).hasTextKeys) (hkey : key.isText)
    (hvalue : value.hasTextKeys) : (Node.object (put fields key value)).hasTextKeys := by
  rw [Node.hasTextKeys_object_iff] at h ⊢
  induction fields with
  | nil =>
    rw [put, List.forall_mem_singleton]
    exact ⟨hkey, hvalue⟩
  | cons field rest ih =>
    obtain ⟨hfield, hrest⟩ := List.forall_mem_cons.mp h
    rw [put]
    split
    · exact List.forall_mem_cons.mpr ⟨⟨hfield.1, hvalue⟩, hrest⟩
    · exact List.forall_mem_cons.mpr ⟨hfield, ih hrest⟩

/-- With repeated keys put together, the keys stay texts. -/
theorem hasTextKeys_ofList (h : (Node.object members).hasTextKeys) :
    (Node.object (ofList members)).hasTextKeys := by
  have hput : ∀ (ms fs : Fields), (Node.object ms).hasTextKeys → (Node.object fs).hasTextKeys →
      (Node.object (ms.foldl (fun fs m => put fs m.1 m.2) fs)).hasTextKeys := by
    intro ms
    induction ms with
    | nil => exact fun fs _ hfs => hfs
    | cons m ms ih =>
      intro fs hms hfs
      obtain ⟨hm, hms⟩ := List.forall_mem_cons.mp (Node.hasTextKeys_object_iff.mp hms)
      exact ih _ (Node.hasTextKeys_object_iff.mpr hms) (hasTextKeys_put hfs hm.1 hm.2)
  exact hput members [] h rfl

end Fields

namespace Json

/-- Words and numbers hold no keys. -/
theorem hasTextKeys_of_scalar? {cs rest : List Char} {node : Node}
    (h : scalar? cs = some (node, rest)) : node.hasTextKeys := by
  have hnumber : ∀ negative cs, unsignedNumber? negative cs = some (node, rest) →
      node.hasTextKeys := by
    intro negative cs h
    unfold unsignedNumber? at h
    dsimp only at h
    split at h
    · cases h
    · split at h
      · obtain ⟨rfl, -⟩ := Prod.mk.inj (Option.some.inj h)
        rfl
      · obtain ⟨rfl, -⟩ := Prod.mk.inj (Option.some.inj h)
        rfl
  -- What is no number is one of few words.
  have hwords : ∀ w ∈ wordValues, w.2.hasTextKeys := by decide
  unfold scalar? at h
  split at h
  · rename_i word value hfind
    obtain ⟨rfl, -⟩ := Prod.mk.inj (Option.some.inj h)
    exact hwords _ (List.mem_of_find?_eq_some hfind)
  · split at h
    · exact hnumber _ _ h
    · exact hnumber _ _ h

section Within

variable {fuel : Nat}
  (hvalue : ∀ room cs node rest, value fuel room cs = .ok (node, rest) → node.hasTextKeys)
  (hmembers : ∀ room cs fields rest, members fuel room cs = .ok (fields, rest) →
    (Node.object fields).hasTextKeys)
  (helements : ∀ room cs items rest, elements fuel room cs = .ok (items, rest) →
    (Node.list items).hasTextKeys)

include hmembers helements

/-- All keys in a value that is read are texts, if they are in what is read inside of it. -/
theorem hasTextKeys_of_value_succ {room : Nat} {cs rest : List Char} {node : Node}
    (h : value (fuel + 1) room cs = .ok (node, rest)) : node.hasTextKeys := by
  rw [value.eq_def] at h
  dsimp only at h
  -- No fuel, a text, an object or a list without room, an object, a list, and anything else.
  split at h
  · cases h
  · obtain ⟨body, -, h⟩ := exists_of_bind_eq_ok h
    obtain ⟨rfl, -⟩ := Prod.mk.inj (Except.ok.inj h)
    rfl
  · cases h
  · cases h
  · rename_i hfuel
    obtain rfl := Nat.succ.inj hfuel
    split at h
    · obtain ⟨rfl, -⟩ := Prod.mk.inj (Except.ok.inj h)
      rfl
    · obtain ⟨⟨fields, rest'⟩, hfields, h⟩ := exists_of_bind_eq_ok h
      obtain ⟨rfl, -⟩ := Prod.mk.inj (Except.ok.inj h)
      exact Fields.hasTextKeys_ofList (hmembers _ _ _ _ hfields)
  · rename_i hfuel
    obtain rfl := Nat.succ.inj hfuel
    split at h
    · obtain ⟨rfl, -⟩ := Prod.mk.inj (Except.ok.inj h)
      rfl
    · obtain ⟨⟨items, rest'⟩, hitems, h⟩ := exists_of_bind_eq_ok h
      obtain ⟨rfl, -⟩ := Prod.mk.inj (Except.ok.inj h)
      exact helements _ _ _ _ hitems
  · split at h
    · split at h
      · cases h
      · obtain ⟨rfl, -⟩ := Prod.mk.inj (Except.ok.inj h)
        rfl
    · rename_i hscalar
      obtain rfl := Except.ok.inj h
      exact hasTextKeys_of_scalar? hscalar
    · cases h

omit hmembers helements

include hvalue hmembers in
/-- All keys in the members that are read are texts, if they are in what is read inside of them. -/
theorem hasTextKeys_of_members_succ {room : Nat} {cs rest : List Char} {fields : Fields}
    (h : members (fuel + 1) room cs = .ok (fields, rest)) :
    (Node.object fields).hasTextKeys := by
  rw [members.eq_def] at h
  dsimp only at h
  split at h
  · obtain ⟨⟨key, rest₁⟩, -, h⟩ := exists_of_bind_eq_ok h
    dsimp only at h
    split at h
    · obtain ⟨⟨v, rest₂⟩, hv, h⟩ := exists_of_bind_eq_ok h
      have hmember : (Key.text (String.ofList key)).isText ∧ v.hasTextKeys :=
        ⟨rfl, hvalue _ _ _ _ hv⟩
      dsimp only at h
      -- The member is the last one, or more follow behind a comma.
      split at h
      · obtain ⟨rfl, -⟩ := Prod.mk.inj (Except.ok.inj h)
        exact Node.hasTextKeys_object_iff.mpr (List.forall_mem_singleton.mpr hmember)
      · obtain ⟨⟨more, rest₃⟩, hmore, h⟩ := exists_of_bind_eq_ok h
        obtain ⟨rfl, -⟩ := Prod.mk.inj (Except.ok.inj h)
        have hmore := Node.hasTextKeys_object_iff.mp (hmembers _ _ _ _ hmore)
        exact Node.hasTextKeys_object_iff.mpr (List.forall_mem_cons.mpr ⟨hmember, hmore⟩)
      · cases h
    · cases h
  · cases h

include hvalue helements in
/-- All keys in the items that are read are texts, if they are in what is read inside of them. -/
theorem hasTextKeys_of_elements_succ {room : Nat} {cs rest : List Char} {items : List Node}
    (h : elements (fuel + 1) room cs = .ok (items, rest)) : (Node.list items).hasTextKeys := by
  rw [elements.eq_def] at h
  dsimp only at h
  obtain ⟨⟨v, rest₁⟩, hv, h⟩ := exists_of_bind_eq_ok h
  have hitem := hvalue _ _ _ _ hv
  dsimp only at h
  split at h
  · obtain ⟨rfl, -⟩ := Prod.mk.inj (Except.ok.inj h)
    exact Node.hasTextKeys_list_iff.mpr (List.forall_mem_singleton.mpr hitem)
  · obtain ⟨⟨more, rest₂⟩, hmore, h⟩ := exists_of_bind_eq_ok h
    obtain ⟨rfl, -⟩ := Prod.mk.inj (Except.ok.inj h)
    have hmore := Node.hasTextKeys_list_iff.mp (helements _ _ _ _ hmore)
    exact Node.hasTextKeys_list_iff.mpr (List.forall_mem_cons.mpr ⟨hitem, hmore⟩)
  · cases h

end Within

/-- Values, members and items that are read have text keys only. -/
theorem hasTextKeys_within (fuel : Nat) :
    (∀ room cs node rest, value fuel room cs = .ok (node, rest) → node.hasTextKeys) ∧
    (∀ room cs fields rest, members fuel room cs = .ok (fields, rest) →
      (Node.object fields).hasTextKeys) ∧
    ∀ room cs items rest, elements fuel room cs = .ok (items, rest) →
      (Node.list items).hasTextKeys := by
  induction fuel with
  -- Without fuel every reader fails.
  | zero =>
    refine ⟨fun _ _ _ _ h => ?_, fun _ _ _ _ h => ?_, fun _ _ _ _ h => ?_⟩
    · rw [value] at h
      cases h
    · rw [members] at h
      cases h
    · rw [elements] at h
      cases h
  | succ fuel ih =>
    obtain ⟨hvalue, hmembers, helements⟩ := ih
    exact ⟨fun _ _ _ _ => hasTextKeys_of_value_succ hmembers helements,
      fun _ _ _ _ => hasTextKeys_of_members_succ hvalue hmembers,
      fun _ _ _ _ => hasTextKeys_of_elements_succ hvalue helements⟩

/-- What is read as JSON has text keys only. -/
theorem hasTextKeys_of_parse {text : String} {node : Node} (h : parse text = .ok node) :
    node.hasTextKeys := by
  rw [parse] at h
  dsimp only at h
  split at h
  · cases h
  · rcases hvalue : value (2 * text.toList.length + 2) Limit.jsonDepth
      (skipBlanks text.toList) with fault | ⟨found, rest⟩
    · rw [hvalue] at h
      cases h
    · simp only [hvalue, bind, Except.bind] at h
      split at h
      · obtain rfl := Except.ok.inj h
        exact (hasTextKeys_within _).1 _ _ _ _ hvalue
      · cases h

end Json

end ClientGen
