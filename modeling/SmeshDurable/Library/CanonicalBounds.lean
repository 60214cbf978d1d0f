import SmeshDurable.Library.CanonicalJson
import SmeshDurable.Library.Checksum
import Mathlib.Algebra.Order.BigOperators.Group.List

/-!
# When a canonical text is written

The canonical text of a document has the size of its compact text and no control character.
A writer whose buffer has room for it and whose bound on the depth is not reached succeeds,
and the order in which the entries of an object are listed makes no difference.
-/

namespace CanonicalJson

open Json Transaction

/-! ## Sizes -/

/-- The number of bytes of some characters. -/
def width (chars : List Char) : Nat := (String.ofList chars).utf8ByteSize

@[simp] theorem width_append (a b : List Char) : width (a ++ b) = width a + width b := by
  rw [width, String.ofList_append, String.utf8ByteSize_append]
  rfl

theorem width_cons (c : Char) (rest : List Char) : width (c :: rest) = width [c] + width rest :=
  width_append [c] rest

theorem width_singleton (c : Char) : width [c] = c.utf8Size := by
  rw [width, String.ofList_cons, String.utf8ByteSize_append, String.utf8ByteSize_singleton]
  rfl

@[simp] theorem width_toList (value : String) : width value.toList = value.utf8ByteSize := by
  rw [width, String.ofList_toList]

theorem width_textRest (pieces : List (List Char)) :
    width (textRest pieces) = (pieces.map width).sum + pieces.length := by
  induction pieces with
  | nil => rfl
  | cons piece rest ih =>
    have hcomma : width [','] = 1 := rfl
    rw [textRest, List.cons_append, width_cons, width_append, ih, hcomma]
    simp only [List.map_cons, List.sum_cons, List.length_cons]
    omega

theorem width_textJoined (pieces : List (List Char)) :
    width (textJoined pieces) = (pieces.map width).sum + (pieces.length - 1) := by
  cases pieces with
  | nil => rfl
  | cons piece rest =>
    rw [textJoined, width_append, width_textRest]
    simp only [List.map_cons, List.sum_cons, List.length_cons]
    omega

theorem width_fieldText {field : String × Json} (h : width (text field.2) = size field.2) :
    width (fieldText field) = fieldSize field := by
  have hcolon : width [':'] = 1 := rfl
  have hkey : width (quoted field.1) = quotedSize field.1 := width_toList _
  rw [fieldText, width_append, width_cons, h, hcolon, hkey, fieldSize]
  omega

/-- The canonical text is as long as the compact one. -/
theorem width_text (v : Json) : width (text v) = size v := by
  induction v using documents_induction with
  | null => rfl
  | bool value => cases value <;> rfl
  | num token => exact width_toList token
  | str value => exact width_toList _
  | arr items ih =>
    have hopen : width ['['] = 1 := rfl
    have hclose : width [']'] = 1 := rfl
    have hitems : (items.map text).map width = items.map size := by
      rw [List.map_map]
      exact List.map_congr_left ih
    rw [text_arr, List.cons_append, width_cons, width_append, width_textJoined, hitems, size_arr,
      List.length_map, hopen, hclose]
    omega
  | obj fields ih =>
    have hopen : width ['\x7b'] = 1 := rfl
    have hclose : width ['\x7d'] = 1 := rfl
    have hfields : ((sortByKey fields).map fieldText).map width =
        (sortByKey fields).map fieldSize := by
      rw [List.map_map]
      apply List.map_congr_left
      intro field hfield
      exact width_fieldText (ih field ((sortByKey_perm fields).mem_iff.mp hfield))
    rw [text_obj, List.cons_append, width_cons, width_append, width_textJoined, hfields, size_obj,
      ((sortByKey_perm fields).map fieldSize).sum_eq, List.length_map,
      (sortByKey_perm fields).length_eq, hopen, hclose]
    omega

/-- A document without numbers has a text of at least two bytes. -/
theorem two_le_size {v : Json} (h : NumberFree v) : 2 ≤ size v := by
  cases h with
  | null => decide
  | bool value => cases value <;> decide
  | num token h => exact h.elim
  | str value => exact two_le_quotedSize value
  | arr items => rw [size_arr]; omega
  | obj fields => rw [size_obj]; omega

theorem escapeChar_le (c : Char) : (escapeChar c).utf8ByteSize ≤ 6 * c.utf8Size := by
  have hpos := c.utf8Size_pos
  have hdigit : ∀ n < 16, (Nat.digitChar n).utf8Size = 1 := by decide
  unfold escapeChar
  split
  case h_8 =>
    split
    case isTrue hcontrol =>
      have hescape : ("\\u00" : String).utf8ByteSize = 4 := by decide
      rw [String.utf8ByteSize_append, hescape]
      show 4 + width [Nat.digitChar (c.toNat / 16), Nat.digitChar (c.toNat % 16)] ≤ _
      rw [width_cons, width_singleton, width_singleton, hdigit _ (by omega),
        hdigit _ (Nat.mod_lt _ (by decide))]
      omega
    case isFalse hplain =>
      rw [String.utf8ByteSize_singleton]
      omega
  -- the short escapes have two characters
  all_goals exact le_trans (b := 2) (by decide) (by omega)

/-- A decimal is as long as its digits. -/
theorem utf8ByteSize_repr (n : Nat) : n.repr.utf8ByteSize = (Nat.toDigits 10 n).length := by
  have hdigits : ∀ c ∈ n.repr.toList, c.utf8Size = 1 := by
    intro c hc
    rw [Nat.toList_repr] at hc
    have hdigit := Nat.isDigit_of_mem_toDigits (by decide) (by decide) hc
    rw [Char.utf8Size_eq_one_iff]
    simp only [Char.isDigit, Bool.and_eq_true, decide_eq_true_eq] at hdigit
    exact UInt32.le_trans hdigit.2 (by decide)
  rw [← String.ofList_toList (s := n.repr), Checksum.utf8ByteSize_ofList_ascii hdigits,
    Nat.toList_repr]

/-- A number below a power of ten has at most as many digits. -/
theorem repr_size {n e : Nat} (he : 0 < e) (h : n < 10 ^ e) : n.repr.utf8ByteSize ≤ e := by
  rw [utf8ByteSize_repr]
  exact (Nat.length_toDigits_le_iff (by decide) he).mpr h

/-- Quoting makes a text at most six times as long. -/
theorem quotedSize_le (value : String) : quotedSize value ≤ 6 * value.utf8ByteSize + 2 := by
  have hescape : ∀ chars : List Char, (escape chars).utf8ByteSize ≤ 6 * width chars := by
    intro chars
    induction chars with
    | nil => exact Nat.zero_le _
    | cons c rest ih =>
      have hc := escapeChar_le c
      rw [escape, String.utf8ByteSize_append, width_cons, width_singleton]
      omega
  have hvalue := hescape value.toList
  rw [width_toList] at hvalue
  rw [quotedSize_eq]
  omega

/-! ## Control characters -/

theorem printable_of_all {cs : List Char} (h : cs.all (fun d => decide (0x20 ≤ d.toNat)) = true) :
    ∀ d ∈ cs, 0x20 ≤ d.toNat := by
  simpa using h

theorem escapeChar_printable (c : Char) : ∀ d ∈ (escapeChar c).toList, 0x20 ≤ d.toNat := by
  have hdigit : ∀ n < 16, 0x20 ≤ (Nat.digitChar n).toNat := by decide
  intro d hd
  unfold escapeChar at hd
  split at hd
  all_goals try exact printable_of_all (by decide) d hd
  rename_i n _ _ _ _ _ _ _
  split at hd
  · rename_i hcontrol
    simp only [String.toList_append, String.toList_ofList, List.mem_append, List.mem_cons,
      List.not_mem_nil, or_false] at hd
    rcases hd with hfront | rfl | rfl
    · exact printable_of_all (by decide) d hfront
    · exact hdigit _ (by omega)
    · exact hdigit _ (Nat.mod_lt _ (by decide))
  · rename_i hplain
    rw [String.toList_singleton, List.mem_singleton] at hd
    rw [hd]
    omega

theorem quoted_printable (value : String) : ∀ d ∈ quoted value, 0x20 ≤ d.toNat := by
  have hescape : ∀ chars : List Char, ∀ d ∈ (escape chars).toList, 0x20 ≤ d.toNat := by
    intro chars
    induction chars with
    | nil => simp [escape]
    | cons c rest ih =>
      intro d hd
      rw [escape, String.toList_append, List.mem_append] at hd
      rcases hd with hhead | hrest
      · exact escapeChar_printable c d hhead
      · exact ih d hrest
  intro d hd
  rw [quoted_eq] at hd
  simp only [List.mem_cons, List.mem_append, List.not_mem_nil, or_false] at hd
  rcases hd with rfl | hd | rfl
  · decide
  · exact hescape _ d hd
  · decide

theorem textJoined_printable {pieces : List (List Char)}
    (h : ∀ piece ∈ pieces, ∀ d ∈ piece, 0x20 ≤ d.toNat) :
    ∀ d ∈ textJoined pieces, 0x20 ≤ d.toNat := by
  have hrest : ∀ pieces : List (List Char), (∀ piece ∈ pieces, ∀ d ∈ piece, 0x20 ≤ d.toNat) →
      ∀ d ∈ textRest pieces, 0x20 ≤ d.toNat := by
    intro pieces
    induction pieces with
    | nil => simp [textRest]
    | cons piece rest ih =>
      intro h d hd
      simp only [textRest, List.cons_append, List.mem_cons, List.mem_append] at hd
      rcases hd with rfl | hpiece | hrest
      · decide
      · exact h piece List.mem_cons_self d hpiece
      · exact ih (fun p hp => h p (List.mem_cons_of_mem piece hp)) d hrest
  cases pieces with
  | nil => simp [textJoined]
  | cons piece rest =>
    intro d hd
    rw [textJoined, List.mem_append] at hd
    rcases hd with hpiece | hlast
    · exact h piece List.mem_cons_self d hpiece
    · exact hrest rest (fun p hp => h p (List.mem_cons_of_mem piece hp)) d hlast

/-- A canonical text without numbers holds no control character. -/
theorem text_printable {v : Json} (h : NumberFree v) : ∀ d ∈ text v, 0x20 ≤ d.toNat := by
  induction v using documents_induction with
  | null => exact printable_of_all (by decide)
  | bool value => cases value <;> exact printable_of_all (by decide)
  | num token => cases h; contradiction
  | str value => exact quoted_printable value
  | arr items ih =>
    intro d hd
    rw [text_arr, List.cons_append, List.mem_cons, List.mem_append, List.mem_singleton] at hd
    rcases hd with rfl | hd | rfl
    · decide
    · refine textJoined_printable (fun piece hpiece => ?_) d hd
      obtain ⟨item, hitem, rfl⟩ := List.mem_map.mp hpiece
      exact ih item hitem (h.item hitem)
    · decide
  | obj fields ih =>
    intro d hd
    rw [text_obj, List.cons_append, List.mem_cons, List.mem_append, List.mem_singleton] at hd
    rcases hd with rfl | hd | rfl
    · decide
    · refine textJoined_printable (fun piece hpiece => ?_) d hd
      obtain ⟨field, hfield, rfl⟩ := List.mem_map.mp hpiece
      have hfield := (sortByKey_perm fields).mem_iff.mp hfield
      intro e he
      rw [fieldText, List.mem_append, List.mem_cons] at he
      rcases he with hkey | rfl | hvalue
      · exact quoted_printable field.1 e hkey
      · decide
      · exact ih field hfield (h.field hfield) e hvalue
    · decide

/-! ## Room enough -/

mutual

/-- How deep documents are nested inside a document. -/
def height : Json → Nat
  | .arr items => itemsHeight items
  | .obj fields => fieldsHeight fields
  | _ => 0

def itemsHeight : List Json → Nat
  | [] => 0
  | item :: rest => max (height item + 1) (itemsHeight rest)

def fieldsHeight : List (String × Json) → Nat
  | [] => 0
  | (_, value) :: rest => max (height value + 1) (fieldsHeight rest)

end

theorem height_item {items : List Json} {item : Json} (h : item ∈ items) :
    height item + 1 ≤ height (.arr items) := by
  rw [height.eq_def (.arr items)]
  induction items with
  | nil => cases h
  | cons first rest ih =>
    simp only [itemsHeight]
    rcases List.mem_cons.mp h with rfl | h
    · exact le_max_left _ _
    · exact le_max_of_le_right (ih h)

theorem height_field {fields : List (String × Json)} {field : String × Json} (h : field ∈ fields) :
    height field.2 + 1 ≤ height (.obj fields) := by
  rw [height.eq_def (.obj fields)]
  induction fields with
  | nil => cases h
  | cons first rest ih =>
    obtain ⟨key, value⟩ := first
    simp only [fieldsHeight]
    rcases List.mem_cons.mp h with rfl | h
    · exact le_max_left _ _
    · exact le_max_of_le_right (ih h)

section Room

variable {limit maxDepth : Nat}

variable (limit) in
/-- The writer succeeds if there is room for so many bytes, and writes as many. -/
def Needs (writer : Writer) (bytes : Nat) : Prop :=
  ∀ out : String, out.utf8ByteSize + bytes ≤ limit →
    ∃ out', writer out = .ok out' ∧ out'.utf8ByteSize = out.utf8ByteSize + bytes

theorem needs_extend (piece : String) : Needs limit (extend limit piece) piece.utf8ByteSize := by
  intro out hroom
  refine ⟨out ++ piece, if_pos (by omega), String.utf8ByteSize_append⟩

/-- One writer after another. -/
theorem Needs.bind {first second : Writer} {m n : Nat} (hfirst : Needs limit first m)
    (hsecond : Needs limit second n) :
    Needs limit (fun out => do
      let out ← first out
      second out) (m + n) := by
  intro out hroom
  obtain ⟨out₁, hout₁, hsize₁⟩ := hfirst out (by omega)
  obtain ⟨out₂, hout₂, hsize₂⟩ := hsecond out₁ (by omega)
  refine ⟨out₂, ?_, by omega⟩
  rw [bind_eq_ok]
  exact ⟨out₁, hout₁, hout₂⟩

theorem needs_rest {α : Type} {f : α → Writer} {g : α → Nat} {xs : List α}
    (h : ∀ x ∈ xs, Needs limit (f x) (g x)) :
    Needs limit (writeRest limit (xs.map f)) ((xs.map g).sum + xs.length) := by
  induction xs with
  | nil =>
    intro out _
    exact ⟨out, rfl, rfl⟩
  | cons x rest ih =>
    have hrest := ih fun y hy => h y (List.mem_cons_of_mem x hy)
    have hcomma : Needs limit (extend limit ",") 1 := needs_extend ","
    have hall := hcomma.bind ((h x List.mem_cons_self).bind hrest)
    intro out hroom
    simp only [List.map_cons, List.sum_cons, List.length_cons] at hroom ⊢
    obtain ⟨out', hout', hsize⟩ := hall out (by omega)
    exact ⟨out', hout', by omega⟩

theorem needs_joined {α : Type} {f : α → Writer} {g : α → Nat} {xs : List α}
    (h : ∀ x ∈ xs, Needs limit (f x) (g x)) :
    Needs limit (writeJoined limit (xs.map f)) ((xs.map g).sum + (xs.length - 1)) := by
  cases xs with
  | nil =>
    intro out _
    exact ⟨out, rfl, rfl⟩
  | cons x rest =>
    have hrest := needs_rest fun y hy => h y (List.mem_cons_of_mem x hy)
    have hall := (h x List.mem_cons_self).bind hrest
    intro out hroom
    simp only [List.map_cons, List.sum_cons, List.length_cons] at hroom ⊢
    obtain ⟨out', hout', hsize⟩ := hall out (by omega)
    exact ⟨out', hout', by omega⟩

/-- A document without numbers is written if there is room for its text, at its depth. -/
theorem needs_write {depth : Nat} {v : Json} (hfree : NumberFree v)
    (hdepth : depth + height v ≤ maxDepth) : Needs limit (write limit maxDepth depth v) (size v) := by
  have hdepth' : ¬ depth > maxDepth := by omega
  induction v using documents_induction generalizing depth with
  | null =>
    intro out hroom
    rw [write, if_neg hdepth']
    exact needs_extend "null" out hroom
  | bool value =>
    intro out hroom
    rw [write, if_neg hdepth']
    cases value
    · exact needs_extend "false" out hroom
    · exact needs_extend "true" out hroom
  | num token => cases hfree; contradiction
  | str value =>
    intro out hroom
    rw [write, if_neg hdepth']
    exact needs_extend (quote value) out hroom
  | arr items ih =>
    have hopen : Needs limit (extend limit "[") 1 := needs_extend "["
    have hclose : Needs limit (extend limit "]") 1 := needs_extend "]"
    have hitems : Needs limit (writeJoined limit (items.map (write limit maxDepth (depth + 1))))
        ((items.map size).sum + (items.length - 1)) := by
      apply needs_joined
      intro item hitem
      have hheight := height_item hitem
      exact ih item hitem (hfree.item hitem) (by omega) (by omega)
    intro out hroom
    rw [write, if_neg hdepth', itemWriters_eq]
    rw [size_arr] at hroom ⊢
    obtain ⟨out', hout', hsize⟩ := (hopen.bind (hitems.bind hclose)) out (by omega)
    exact ⟨out', hout', by omega⟩
  | obj fields ih =>
    have hopen : Needs limit (extend limit "\x7b") 1 := needs_extend "\x7b"
    have hclose : Needs limit (extend limit "\x7d") 1 := needs_extend "\x7d"
    have hfields : Needs limit (writeJoined limit
        ((sortByKey fields).map (fieldWriter limit maxDepth (depth + 1))))
        ((fields.map fieldSize).sum + (fields.length - 1)) := by
      rw [← ((sortByKey_perm fields).map fieldSize).sum_eq, ← (sortByKey_perm fields).length_eq]
      apply needs_joined
      intro field hfield
      have hfield := (sortByKey_perm fields).mem_iff.mp hfield
      have hheight := height_field hfield
      have hvalue : Needs limit (write limit maxDepth (depth + 1) field.2) (size field.2) :=
        ih field hfield (hfree.field hfield) (by omega) (by omega)
      have hcolon : Needs limit (extend limit ":") 1 := needs_extend ":"
      have hkey : Needs limit (extend limit (quote field.1)) (quotedSize field.1) :=
        needs_extend (quote field.1)
      have hall := hkey.bind (hcolon.bind hvalue)
      rw [← Nat.add_assoc] at hall
      exact hall
    -- every entry has more than four bytes, so the check on their number passes
    have hcount : 4 * fields.length ≤ (fields.map fieldSize).sum := by
      have hall : ∀ field ∈ fields, 4 ≤ fieldSize field := by
        intro field hfield
        have hvalue := two_le_size (hfree.field hfield)
        have hkey := two_le_quotedSize field.1
        unfold fieldSize
        omega
      have hsum := List.card_nsmul_le_sum (fields.map fieldSize) 4
        (List.forall_mem_map.mpr hall)
      rw [List.length_map, nsmul_eq_mul] at hsum
      exact (Nat.mul_comm _ _).le.trans hsum
    intro out hroom
    rw [size_obj] at hroom ⊢
    obtain ⟨out₁, hout₁, hsize₁⟩ := hopen out (by omega)
    obtain ⟨out₂, hout₂, hsize₂⟩ := (hfields.bind hclose) out₁ (by omega)
    refine ⟨out₂, ?_, by omega⟩
    rw [bind_eq_ok] at hout₂
    simp only [write, if_neg hdepth', sorted_fieldWriters, bind_eq_ok, require_eq_ok]
    exact ⟨out₁, hout₁, (), by omega, hout₂⟩

/-! ## What a written text shows -/

theorem extend_size {piece out out' : String} (h : extend limit piece out = .ok out')
    (hpiece : 0 < piece.utf8ByteSize) : out'.utf8ByteSize ≤ limit := by
  unfold extend at h
  split at h
  next hroom =>
    cases h
    rw [String.utf8ByteSize_append]
    omega
  next => cases h

/-- The last piece of a document is never empty, so the whole text fits. -/
theorem size_le_of_write {depth : Nat} {v : Json} {out out' : String}
    (h : write limit maxDepth depth v out = .ok out') : out'.utf8ByteSize ≤ limit := by
  cases v with
  | num token =>
    rw [write] at h
    cases h
  | null =>
    rw [write] at h
    split at h
    · cases h
    · exact extend_size h (by decide)
  | bool value =>
    rw [write] at h
    split at h
    · cases h
    · exact extend_size h (by cases value <;> decide)
  | str value =>
    rw [write] at h
    split at h
    · cases h
    · have hquoted := two_le_quotedSize value
      exact extend_size h (lt_of_lt_of_le Nat.zero_lt_two hquoted)
  | arr items =>
    rw [write] at h
    split at h
    · cases h
    · simp only [bind_eq_ok] at h
      obtain ⟨_, -, _, -, hclose⟩ := h
      exact extend_size hclose (by decide)
  | obj fields =>
    rw [write] at h
    split at h
    · cases h
    · simp only [bind_eq_ok] at h
      obtain ⟨_, -, -, -, _, -, hclose⟩ := h
      exact extend_size hclose (by decide)

theorem height_arr_le {items : List Json} {n : Nat} (h : ∀ item ∈ items, height item + 1 ≤ n) :
    height (.arr items) ≤ n := by
  rw [height]
  induction items with
  | nil => exact n.zero_le
  | cons item rest ih =>
    rw [List.forall_mem_cons] at h
    rw [itemsHeight]
    exact max_le h.1 (ih h.2)

theorem height_obj_le {fields : List (String × Json)} {n : Nat}
    (h : ∀ field ∈ fields, height field.2 + 1 ≤ n) : height (.obj fields) ≤ n := by
  rw [height]
  induction fields with
  | nil => exact n.zero_le
  | cons field rest ih =>
    rw [List.forall_mem_cons] at h
    rw [fieldsHeight]
    exact max_le h.1 (ih h.2)

/-- No part of a written document stands deeper than the bound. -/
theorem height_le_of_write {depth : Nat} {v : Json} {out out' : String}
    (h : write limit maxDepth depth v out = .ok out') : depth + height v ≤ maxDepth := by
  induction v using documents_induction generalizing depth out out' with
  | num token =>
    rw [write] at h
    cases h
  | null =>
    have hheight : height .null = 0 := by simp only [height]
    rw [write] at h
    split at h
    · cases h
    · omega
  | bool value =>
    have hheight : height (.bool value) = 0 := by simp only [height]
    rw [write] at h
    split at h
    · cases h
    · omega
  | str value =>
    have hheight : height (.str value) = 0 := by simp only [height]
    rw [write] at h
    split at h
    · cases h
    · omega
  | arr items ih =>
    rw [write] at h
    split at h
    · cases h
    · simp only [bind_eq_ok, itemWriters_eq] at h
      obtain ⟨_, -, _, hitems, -⟩ := h
      suffices height (.arr items) ≤ maxDepth - depth by omega
      apply height_arr_le
      intro item hitem
      obtain ⟨before, after, hwrite⟩ := writeJoined_mem hitems (List.mem_map_of_mem hitem)
      have hitem := ih item hitem hwrite
      omega
  | obj fields ih =>
    rw [write] at h
    split at h
    · cases h
    · simp only [bind_eq_ok, sorted_fieldWriters] at h
      obtain ⟨_, -, -, -, _, hfields, -⟩ := h
      suffices height (.obj fields) ≤ maxDepth - depth by omega
      apply height_obj_le
      intro field hfield
      have hmem : fieldWriter limit maxDepth (depth + 1) field ∈
          (sortByKey fields).map (fieldWriter limit maxDepth (depth + 1)) :=
        List.mem_map_of_mem ((sortByKey_perm fields).mem_iff.mpr hfield)
      obtain ⟨before, after, hwrite⟩ := writeJoined_mem hfields hmem
      simp only [fieldWriter, bind_eq_ok] at hwrite
      obtain ⟨_, -, _, -, hvalue⟩ := hwrite
      have hvalue := ih field hfield hvalue
      omega

/-- Writing a document into an empty buffer succeeds exactly if it holds no number, is not too
deep and its text fits. -/
theorem write_isOk_iff (v : Json) :
    (∃ out, write limit maxDepth 0 v "" = .ok out) ↔
      NumberFree v ∧ height v ≤ maxDepth ∧ width (text v) ≤ limit := by
  constructor
  · rintro ⟨out, h⟩
    have htext : out.toList = text v := by
      simpa using writes_write 0 v "" out h
    have hwidth : width (text v) = out.utf8ByteSize := by
      rw [← htext, width_toList]
    have hdepth := height_le_of_write h
    refine ⟨numberFree_of_write h, by omega, ?_⟩
    rw [hwidth]
    exact size_le_of_write h
  · rintro ⟨hfree, hheight, hwidth⟩
    rw [width_text] at hwidth
    have hneeds : Needs limit (write limit maxDepth 0 v) (size v) := needs_write hfree (by omega)
    obtain ⟨out, hout, -⟩ := hneeds "" (by simpa using hwidth)
    exact ⟨out, hout⟩

end Room

end CanonicalJson
