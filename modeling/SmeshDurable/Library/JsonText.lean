import SmeshDurable.Library.JsonPath

/-!
# The compact text of a document

A document is determined by its compact text, also with more text after it, if its number
tokens look like numbers and the text after it does not go on with one.
-/

namespace CanonicalJson

open Json

/-- The characters of a number. -/
def numeralChar (c : Char) : Bool := c.isDigit || ['-', '+', '.', 'e', 'E'].contains c

/-- A token made of the characters of a number. -/
def IsNumeral (token : String) : Prop := token ≠ "" ∧ ∀ c ∈ token.toList, numeralChar c = true

/-- Every number in the document is a numeral. -/
def Numerals : Json → Prop := Everywhere fun
  | .num token => IsNumeral token
  | _ => True

/-- The text does not go on with a number. -/
def Ends (rest : List Char) : Prop := ∀ c ∈ rest.head?, numeralChar c = false

theorem ends_cons {c : Char} {rest : List Char} (h : numeralChar c = false) : Ends (c :: rest) := by
  rintro d ⟨⟩
  exact h

theorem Numerals.item {items : List Json} (h : Numerals (.arr items)) {item : Json}
    (hitem : item ∈ items) : Numerals item := by
  cases h with
  | arr _ _ hitems => exact hitems item hitem

theorem Numerals.field {fields : List (String × Json)} (h : Numerals (.obj fields))
    {field : String × Json} (hfield : field ∈ fields) : Numerals field.2 := by
  cases h with
  | obj _ _ hfields => exact hfields field hfield

theorem numerals_arr {items : List Json} : Numerals (.arr items) ↔ ∀ item ∈ items, Numerals item :=
  ⟨fun h _ hitem => h.item hitem, fun h => .arr items trivial h⟩

theorem numerals_obj {fields : List (String × Json)} :
    Numerals (.obj fields) ↔ ∀ field ∈ fields, Numerals field.2 :=
  ⟨fun h _ hfield => h.field hfield, fun h => .obj fields trivial h⟩

theorem Numerals.canonical {v : Json} (h : Numerals v) : Numerals v.canonical := by
  induction v using documents_induction with
  | arr items ih =>
    rw [Json.canonical, canonicalItems_eq, numerals_arr]
    intro item hitem
    obtain ⟨old, hold, rfl⟩ := List.mem_map.mp hitem
    exact ih old hold (h.item hold)
  | obj fields ih =>
    rw [Json.canonical, numerals_obj]
    intro field hfield
    obtain ⟨old, hold, rfl⟩ := mem_canonical_fields.mp hfield
    exact ih old hold (h.field hold)
  | _ => exact h

theorem isNumeral_repr (n : Nat) : IsNumeral n.repr := by
  refine ⟨Nat.repr_ne_empty, fun c hc => ?_⟩
  rw [Nat.toList_repr] at hc
  have hdigit := Nat.isDigit_of_mem_toDigits (by decide) (by decide) hc
  simp [numeralChar, hdigit]

/-! ## Texts as lists of characters -/

/-- The compact text of one entry. -/
def entryText (field : String × Json) : List Char :=
  quoted field.1 ++ ':' :: (render field.2).toList

theorem renderItems_toList (items : List Json) :
    (renderItems items).toList = textJoined (items.map fun item => (render item).toList) := by
  have hrest : ∀ items : List Json, items ≠ [] → ',' :: (renderItems items).toList =
      textRest (items.map fun item => (render item).toList) := by
    intro items
    induction items with
    | nil => exact fun h => absurd rfl h
    | cons item rest ih =>
      intro _
      cases rest with
      | nil => simp [renderItems, textRest]
      | cons next others =>
        have htail := ih (by simp)
        rw [List.map_cons, textRest, ← htail]
        simp [renderItems]
  cases items with
  | nil => simp [renderItems, textJoined]
  | cons item rest =>
    cases rest with
    | nil => simp [renderItems, textJoined, textRest]
    | cons next others =>
      rw [List.map_cons, textJoined, ← hrest (next :: others) (by simp)]
      simp [renderItems]

theorem renderFields_toList (fields : List (String × Json)) :
    (renderFields fields).toList = textJoined (fields.map entryText) := by
  have hrest : ∀ fields : List (String × Json), fields ≠ [] → ',' :: (renderFields fields).toList =
      textRest (fields.map entryText) := by
    intro fields
    induction fields with
    | nil => exact fun h => absurd rfl h
    | cons field rest ih =>
      intro _
      obtain ⟨key, value⟩ := field
      cases rest with
      | nil => simp [renderFields, textRest, entryText, quoted]
      | cons next others =>
        have htail := ih (by simp)
        rw [List.map_cons, textRest, ← htail]
        simp [renderFields, entryText, quoted]
  cases fields with
  | nil => simp [renderFields, textJoined]
  | cons field rest =>
    obtain ⟨key, value⟩ := field
    cases rest with
    | nil => simp [renderFields, textJoined, textRest, entryText, quoted]
    | cons next others =>
      rw [List.map_cons, textJoined, ← hrest (next :: others) (by simp)]
      simp [renderFields, entryText, quoted]

theorem render_arr (items : List Json) : (render (.arr items)).toList =
    '[' :: (textJoined (items.map fun item => (render item).toList) ++ [']']) := by
  simp [render, renderItems_toList]

theorem render_obj (fields : List (String × Json)) : (render (.obj fields)).toList =
    '\x7b' :: (textJoined (fields.map entryText) ++ ['\x7d']) := by
  simp [render, renderFields_toList]

/-! ## Cancellation -/

theorem numeral_cancel {a b : String} {rest rest' : List Char} (ha : IsNumeral a) (hb : IsNumeral b)
    (hrest : Ends rest) (hrest' : Ends rest') (h : a.toList ++ rest = b.toList ++ rest') :
    a = b ∧ rest = rest' := by
  have htake : ∀ {token : String} {tail : List Char}, IsNumeral token → Ends tail →
      (token.toList ++ tail).takeWhile numeralChar = token.toList := by
    intro token tail htoken htail
    have hstop : tail.takeWhile numeralChar = [] := by
      cases tail with
      | nil => rfl
      | cons c tail => simp [htail c rfl]
    rw [List.takeWhile_append_of_pos htoken.2, hstop, List.append_nil]
  have htoken : a.toList = b.toList := by
    rw [← htake ha hrest, h, htake hb hrest']
  refine ⟨String.toList_inj.mp htoken, ?_⟩
  rw [htoken] at h
  exact List.append_cancel_left h

/-- What a text starts with tells the kind of its document. -/
def kindOf (c : Char) : Nat :=
  match c with
  | 'n' => 0
  | 't' => 1
  | 'f' => 2
  | '"' => 3
  | '[' => 4
  | '\x7b' => 5
  | c => if numeralChar c then 6 else 7

def kind : Json → Nat
  | .null => 0
  | .bool value => if value then 1 else 2
  | .str _ => 3
  | .arr _ => 4
  | .obj _ => 5
  | .num _ => 6

theorem kindOf_numeral {c : Char} (h : numeralChar c = true) : kindOf c = 6 := by
  unfold kindOf
  split
  case h_7 => exact if_pos h
  all_goals exact absurd h (by decide)

theorem render_start {v : Json} (h : Numerals v) :
    ∃ c tail, (render v).toList = c :: tail ∧ kindOf c = kind v := by
  cases h with
  | null _ => exact ⟨'n', _, rfl, rfl⟩
  | bool value _ =>
    cases value with
    | false => exact ⟨'f', _, rfl, rfl⟩
    | true => exact ⟨'t', _, rfl, rfl⟩
  | num token htoken =>
    obtain ⟨hnonempty, hchars⟩ := htoken
    cases hlist : token.toList with
    | nil => exact absurd (String.toList_eq_nil_iff.mp hlist) hnonempty
    | cons c tail =>
      refine ⟨c, tail, hlist, ?_⟩
      apply kindOf_numeral
      apply hchars
      rw [hlist]
      exact List.mem_cons_self
  | str value _ => exact ⟨'"', _, quoted_eq value, rfl⟩
  | arr items _ _ => exact ⟨'[', _, render_arr items, rfl⟩
  | obj fields _ _ => exact ⟨'\x7b', _, render_obj fields, rfl⟩

theorem kind_eq {v w : Json} {rest rest' : List Char} (hv : Numerals v) (hw : Numerals w)
    (h : (render v).toList ++ rest = (render w).toList ++ rest') : kind v = kind w := by
  obtain ⟨c, tail, hcv, hkind⟩ := render_start hv
  obtain ⟨d, tail', hcw, hkind'⟩ := render_start hw
  rw [hcv, hcw] at h
  rw [← hkind, ← hkind', List.head_eq_of_cons_eq h]

/-- The compact texts of documents are read back in one way only. -/
theorem render_cancel {v w : Json} {rest rest' : List Char} (hv : Numerals v) (hw : Numerals w)
    (hrest : Ends rest) (hrest' : Ends rest')
    (h : (render v).toList ++ rest = (render w).toList ++ rest') : v = w ∧ rest = rest' := by
  have hcomma : ∀ tail, Ends (',' :: tail) := fun _ => ends_cons (by decide)
  induction v using documents_induction generalizing w rest rest' with
  | null =>
    have hkind := kind_eq hv hw h
    cases w with
    | null => exact ⟨rfl, List.append_cancel_left h⟩
    | bool value => cases value <;> cases hkind
    | _ => cases hkind
  | bool value =>
    have hkind := kind_eq hv hw h
    cases w with
    | bool value' =>
      cases value <;> cases value' <;> first
        | exact ⟨rfl, List.append_cancel_left h⟩
        | cases hkind
    | _ => cases value <;> cases hkind
  | num token =>
    have hkind := kind_eq hv hw h
    cases w with
    | num token' =>
      cases hv with
      | num _ htoken =>
        cases hw with
        | num _ htoken' =>
          obtain ⟨rfl, htail⟩ := numeral_cancel htoken htoken' hrest hrest' h
          exact ⟨rfl, htail⟩
    | bool value => cases value <;> cases hkind
    | _ => cases hkind
  | str value =>
    have hkind := kind_eq hv hw h
    cases w with
    | str value' =>
      obtain ⟨rfl, htail⟩ := quoted_cancel h
      exact ⟨rfl, htail⟩
    | bool value => cases value <;> cases hkind
    | _ => cases hkind
  | arr items ih =>
    have hkind := kind_eq hv hw h
    cases w with
    | arr items' =>
      rw [render_arr, render_arr] at h
      simp only [List.cons_append, List.append_assoc, List.nil_append, List.cons.injEq,
        true_and] at h
      have hcancel := textJoined_cancel (P := Ends) (by decide) hcomma
        (fun _ => ends_cons (by decide)) (fun x hx y hy _ _ htail htail' =>
          ih x hx (hv.item hx) (hw.item hy) htail htail') ?_ h
      · exact ⟨congrArg _ hcancel.1, hcancel.2⟩
      · intro x hx tail tail' heq
        obtain ⟨c, front, hfront, hkind⟩ := render_start (hx.elim hv.item hw.item)
        rw [hfront] at heq
        rw [List.head_eq_of_cons_eq heq] at hkind
        cases x with
        | bool value => cases value <;> cases hkind
        | _ => cases hkind
    | bool value => cases value <;> cases hkind
    | _ => cases hkind
  | obj fields ih =>
    have hkind := kind_eq hv hw h
    cases w with
    | obj fields' =>
      rw [render_obj, render_obj] at h
      simp only [List.cons_append, List.append_assoc, List.nil_append, List.cons.injEq,
        true_and] at h
      have hcancel := textJoined_cancel (P := Ends) (by decide) hcomma
        (fun _ => ends_cons (by decide)) ?_ ?_ h
      · exact ⟨congrArg _ hcancel.1, hcancel.2⟩
      · intro x hx y hy tail tail' htail htail' heq
        simp only [entryText, List.append_assoc] at heq
        obtain ⟨hkey, heq⟩ := quoted_cancel heq
        obtain ⟨hvalue, htail⟩ := ih x hx (hv.field hx) (hw.field hy) htail htail'
          (List.tail_eq_of_cons_eq heq)
        exact ⟨Prod.ext hkey hvalue, htail⟩
      · intro x _ tail tail' heq
        rw [entryText, quoted_eq] at heq
        cases List.head_eq_of_cons_eq heq
    | bool value => cases value <;> cases hkind
    | _ => cases hkind

/-- Documents with one compact text are equal. -/
theorem render_injective {v w : Json} (hv : Numerals v) (hw : Numerals w)
    (h : render v = render w) : v = w := by
  have hnil : Ends [] := by
    rintro c ⟨⟩
  have hcancel : (render v).toList ++ [] = (render w).toList ++ [] := by rw [h]
  exact (render_cancel hv hw hnil hnil hcancel).1

end CanonicalJson
