import Mathlib.Data.String.Basic
import SmeshDurable.Library.CanonicalJson

/-!
# Values inside a document, and paths to them

`children` are the values directly inside a value, `Within stop` reaches the values below one
without going below a value where it stops, and `nodes` lists all of them. `LaxPath` gives the
steps of an SQL/JSON path in lax mode: a step that asks an array for a key asks the elements of
the array, and `[*]` takes a value that is no array for its only element. A canonical document has
the keys of every object in order.
-/

namespace Json

/-- The text of a string. -/
def asStr? : Json → Option String
  | .str text => some text
  | _ => none

/-- The value under a key of an object. -/
def get? (key : String) : Json → Option Json
  | .obj fields => fields.lookup key
  | _ => none

@[simp] theorem get?_obj (key : String) (fields : List (String × Json)) :
    (Json.obj fields).get? key = fields.lookup key := rfl

/-- The values directly inside a value. -/
def children : Json → List Json
  | .arr items => items
  | .obj fields => fields.map Prod.snd
  | _ => []

@[simp] theorem children_arr (items : List Json) : (Json.arr items).children = items := rfl

@[simp] theorem children_obj (fields : List (String × Json)) :
    (Json.obj fields).children = fields.map Prod.snd := rfl

/-- Induction on a document by what it holds for the values directly inside. -/
theorem children_induction {P : Json → Prop} (step : ∀ v, (∀ c ∈ v.children, P c) → P v)
    (v : Json) : P v := by
  induction v using CanonicalJson.documents_induction with
  | null => exact step _ (by simp [children])
  | bool value => exact step _ (by simp [children])
  | num token => exact step _ (by simp [children])
  | str value => exact step _ (by simp [children])
  | arr items ih => exact step _ ih
  | obj fields ih =>
    refine step _ fun c hc => ?_
    obtain ⟨field, hfield, rfl⟩ := List.mem_map.mp hc
    exact ih field hfield

/-! ## Canonical documents -/

theorem insertField_eq (field : String × Json) (fields : List (String × Json)) :
    insertField field fields = fields.orderedInsert (fun a b => a.1 < b.1) field := by
  induction fields with
  | nil => rfl
  | cons head rest ih => rw [insertField, List.orderedInsert_cons, ih]

theorem sortFields_perm (fields : List (String × Json)) : (sortFields fields).Perm fields := by
  have hsort : sortFields fields = fields.insertionSort fun a b => a.1 < b.1 := by
    induction fields with
    | nil => rfl
    | cons head rest ih =>
      change insertField head (sortFields rest) = _
      rw [insertField_eq, ih, List.insertionSort_cons]
  rw [hsort]
  exact List.perm_insertionSort _ fields

theorem sortFields_pairwise (fields : List (String × Json)) :
    (sortFields fields).Pairwise fun a b => a.1 ≤ b.1 := by
  induction fields with
  | nil => exact List.Pairwise.nil
  | cons field fields ih =>
    change (insertField field (sortFields fields)).Pairwise _
    generalize sortFields fields = sorted at ih ⊢
    induction sorted with
    | nil => exact List.pairwise_singleton _ _
    | cons head rest ihrest =>
      obtain ⟨hhead, hrest⟩ := List.pairwise_cons.mp ih
      rw [insertField]
      split
      next hlt =>
        refine List.pairwise_cons.mpr ⟨fun g hg => ?_, ih⟩
        rcases List.mem_cons.mp hg with rfl | hg
        · exact le_of_lt hlt
        · exact (le_of_lt hlt).trans (hhead g hg)
      next hle =>
        refine List.pairwise_cons.mpr ⟨fun g hg => ?_, ihrest hrest⟩
        rw [insertField_eq, List.mem_orderedInsert] at hg
        rcases hg with rfl | hg
        · exact le_of_not_gt hle
        · exact hhead g hg

theorem canonicalFields_eq (fields : List (String × Json)) :
    canonicalFields fields = fields.map fun field => (field.1, field.2.canonical) := by
  induction fields with
  | nil => rfl
  | cons head rest ih => rw [canonicalFields, ih, List.map_cons]

theorem canonicalItems_eq (items : List Json) : canonicalItems items = items.map canonical := by
  induction items with
  | nil => rfl
  | cons head rest ih => rw [canonicalItems, ih, List.map_cons]

theorem mem_canonical_fields {g : String × Json} {fields : List (String × Json)} :
    g ∈ sortFields (canonicalFields fields) ↔
      ∃ field ∈ fields, (field.1, field.2.canonical) = g := by
  rw [(sortFields_perm _).mem_iff, canonicalFields_eq, List.mem_map]

/-- In a canonical object the keys stand in order and every value is canonical. -/
theorem canonical_eq_obj {v : Json} {fields : List (String × Json)} (h : v.canonical = .obj fields) :
    fields.Pairwise (fun a b => a.1 ≤ b.1) ∧
      ∀ field ∈ fields, ∃ w : Json, w.canonical = field.2 := by
  cases v with
  | obj before =>
    rw [canonical, obj.injEq] at h
    subst h
    refine ⟨sortFields_pairwise _, fun field hfield => ?_⟩
    obtain ⟨old, -, rfl⟩ := mem_canonical_fields.mp hfield
    exact ⟨old.2, rfl⟩
  | _ => cases h

/-- An object with one member is the canonical form of objects with this member only. -/
theorem canonical_eq_obj_singleton {v value : Json} {key : String}
    (h : v.canonical = .obj [(key, value)]) : ∃ w, v = .obj [(key, w)] ∧ w.canonical = value := by
  cases v with
  | obj fields =>
    rw [canonical, obj.injEq] at h
    have hperm := sortFields_perm (canonicalFields fields)
    rw [h, canonicalFields_eq] at hperm
    obtain ⟨field, hfields, hfield⟩ := List.map_eq_singleton_iff.mp (List.perm_singleton.mp hperm.symm)
    obtain ⟨rfl, rfl⟩ := Prod.mk.inj hfield
    exact ⟨field.2, by rw [hfields], rfl⟩
  | _ => cases h

theorem canonical_eq_str {v : Json} {text : String} (h : v.canonical = .str text) :
    v = .str text := by
  cases v with
  | str => exact h
  | _ => cases h

/-- A value reached from another without going below a value where `stop` holds. -/
inductive Within (stop : Json → Prop) : Json → Json → Prop
  | self (v : Json) : Within stop v v
  | inside {v c w : Json} (hgo : ¬ stop v) (hc : c ∈ v.children) (hw : Within stop c w) :
      Within stop v w

/-- What is reached is the value itself or reached from one directly inside. -/
theorem within_iff {stop : Json → Prop} {v w : Json} :
    Within stop v w ↔ w = v ∨ (¬ stop v ∧ ∃ c ∈ v.children, Within stop c w) := by
  constructor
  · rintro (_ | ⟨hgo, hc, hw⟩)
    · exact .inl rfl
    · exact .inr ⟨hgo, _, hc, hw⟩
  · rintro (rfl | ⟨hgo, c, hc, hw⟩)
    · exact .self _
    · exact .inside hgo hc hw

mutual

/-- All values inside a document, itself included. -/
def nodes : Json → List Json
  | .arr items => .arr items :: itemNodes items
  | .obj fields => .obj fields :: fieldNodes fields
  | v => [v]

def itemNodes : List Json → List Json
  | [] => []
  | item :: rest => nodes item ++ itemNodes rest

def fieldNodes : List (String × Json) → List Json
  | [] => []
  | (_, value) :: rest => nodes value ++ fieldNodes rest

end

theorem itemNodes_eq (items : List Json) : itemNodes items = items.flatMap nodes := by
  induction items with
  | nil => rfl
  | cons item rest ih => rw [itemNodes, ih, List.flatMap_cons]

theorem fieldNodes_eq (fields : List (String × Json)) :
    fieldNodes fields = (fields.map Prod.snd).flatMap nodes := by
  induction fields with
  | nil => rfl
  | cons field rest ih => rw [fieldNodes, ih, List.map_cons, List.flatMap_cons]

theorem nodes_eq (v : Json) : nodes v = v :: v.children.flatMap nodes := by
  cases v <;> simp [nodes, children, itemNodes_eq, fieldNodes_eq]

theorem self_mem_nodes (v : Json) : v ∈ nodes v := by
  rw [nodes_eq]
  exact List.mem_cons_self

theorem Within.mem_nodes {stop : Json → Prop} {v w : Json} (h : Within stop v w) :
    w ∈ nodes v := by
  induction h with
  | self v => exact self_mem_nodes v
  | @inside v c w _ hc _ ih =>
    rw [nodes_eq]
    exact List.mem_cons_of_mem _ (List.mem_flatMap.mpr ⟨c, hc, ih⟩)

namespace LaxPath

/-- The value under a key of an object, and nothing of a value that is no object. -/
def member (key : String) (v : Json) : List Json := (v.get? key).toList

/-- `.key`: an array is asked through its elements, one level deep. -/
def key (name : String) : Json → List Json
  | .arr items => items.flatMap (member name)
  | v => member name v

/-- `[*]`, and the operand of a filter: the elements of an array, any other value itself. -/
def elements : Json → List Json
  | .arr items => items
  | v => [v]

/-- `exists(@.key)`. -/
def has (name : String) (v : Json) : Bool := !(key name v).isEmpty

@[simp] theorem elements_obj (fields : List (String × Json)) :
    elements (.obj fields) = [.obj fields] := rfl

@[simp] theorem key_obj (name : String) (fields : List (String × Json)) :
    key name (.obj fields) = (fields.lookup name).toList := rfl

theorem has_obj (name : String) (fields : List (String × Json)) :
    has name (.obj fields) = (fields.lookup name).isSome := by
  rw [has, key_obj]
  cases fields.lookup name <;> rfl

/-- `$.** ? (filter)`: the filter is asked of every value of the document, of an array through
its elements. -/
def anywhere (filter : Json → Bool) (document : Json) : Bool :=
  ((nodes document).flatMap elements).any filter

theorem anywhere_eq_true {filter : Json → Bool} {document : Json} :
    anywhere filter document = true ↔
      ∃ v ∈ (nodes document).flatMap elements, filter v = true := by
  rw [anywhere, List.any_eq_true]

/-- An object of the document is one of the values asked. -/
theorem obj_mem_asked {fields : List (String × Json)} {document : Json}
    (h : .obj fields ∈ nodes document) : .obj fields ∈ (nodes document).flatMap elements :=
  List.mem_flatMap.mpr ⟨_, h, by simp⟩

end LaxPath

end Json
