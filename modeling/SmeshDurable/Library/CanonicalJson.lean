import SmeshDurable.Library.Json
import SmeshDurable.Library.Transaction
import Mathlib.Data.List.Sort
import Mathlib.Tactic.IntervalCases

/-!
# Canonical JSON text

A canonical text sorts the entries of every object by the UTF-16 units of their keys and
holds no number. `write` produces it into a buffer of bounded size and depth; what it
writes is `text`, and a text can be read back in one way only: two documents whose texts
start the same are equal.
-/

namespace CanonicalJson

open Json Transaction

/-- Why a document has no canonical text within the bounds. -/
inductive Fault where
  | malformed
  | capacity
deriving DecidableEq

/-! ## Keys -/

/-- The UTF-16 units of a character. -/
def utf16 (c : Char) : List Nat :=
  if c.toNat < 0x10000 then [c.toNat]
  else [0xd800 + (c.toNat - 0x10000) / 0x400, 0xdc00 + (c.toNat - 0x10000) % 0x400]

def unitsLe : List Nat → List Nat → Bool
  | [], _ => true
  | _ :: _, [] => false
  | a :: as, b :: bs => a < b || (a == b && unitsLe as bs)

/-- The order in which the keys of an object are written. -/
def keyLe (a b : String) : Bool := unitsLe (a.toList.flatMap utf16) (b.toList.flatMap utf16)

def sortByKey {α : Type} (entries : List (String × α)) : List (String × α) :=
  entries.insertionSort fun a b => keyLe a.1 b.1 = true

theorem sortByKey_perm {α : Type} (entries : List (String × α)) :
    (sortByKey entries).Perm entries := List.perm_insertionSort _ _

theorem sortByKey_map {α β : Type} (f : String → α → β) (entries : List (String × α)) :
    sortByKey (entries.map fun entry => (entry.1, f entry.1 entry.2)) =
      (sortByKey entries).map fun entry => (entry.1, f entry.1 entry.2) := by
  symm
  apply List.map_insertionSort
  intro a _ b _
  rfl

/-! ## Writing -/

/-- A step that appends to the buffer. -/
abbrev Writer := String → Except Fault String

section Write

variable (limit maxDepth : Nat)

def extend (piece : String) : Writer := fun out =>
  if piece.utf8ByteSize ≤ limit - out.utf8ByteSize then .ok (out ++ piece) else .error .capacity

/-- The writers after the first, each behind a comma. -/
def writeRest : List Writer → Writer
  | [], out => .ok out
  | writer :: rest, out => do
      let out ← extend limit "," out
      let out ← writer out
      writeRest rest out

def writeJoined : List Writer → Writer
  | [], out => .ok out
  | writer :: rest, out => do
      let out ← writer out
      writeRest limit rest out

mutual

/-- Append the canonical text of a document that stands at a depth. -/
def write (depth : Nat) : Json → Writer
  | .null, out => if depth > maxDepth then .error .malformed else extend limit "null" out
  | .bool value, out =>
    if depth > maxDepth then .error .malformed
    else extend limit (if value then "true" else "false") out
  | .num _, _ => .error .malformed
  | .str value, out =>
    if depth > maxDepth then .error .malformed else extend limit (quote value) out
  | .arr items, out =>
    if depth > maxDepth then .error .malformed
    else do
      let out ← extend limit "[" out
      let out ← writeJoined limit (itemWriters (depth + 1) items) out
      extend limit "]" out
  | .obj fields, out =>
    if depth > maxDepth then .error .malformed
    else do
      let out ← extend limit "\x7b" out
      require (fields.length ≤ (limit - out.utf8ByteSize) / 4) .capacity
      let out ← writeJoined limit
        ((sortByKey (fieldWriters (depth + 1) fields)).map Prod.snd) out
      extend limit "\x7d" out

def itemWriters (depth : Nat) : List Json → List Writer
  | [] => []
  | item :: rest => write depth item :: itemWriters depth rest

def fieldWriters (depth : Nat) : List (String × Json) → List (String × Writer)
  | [] => []
  | (key, value) :: rest =>
    (key, fun out => do
      let out ← extend limit (quote key) out
      let out ← extend limit ":" out
      write depth value out) :: fieldWriters depth rest

end

end Write

/-! ## Text -/

/-- The pieces after the first, each behind a comma. -/
def textRest : List (List Char) → List Char
  | [] => []
  | piece :: rest => ',' :: piece ++ textRest rest

def textJoined : List (List Char) → List Char
  | [] => []
  | piece :: rest => piece ++ textRest rest

/-- A string in quotes. -/
def quoted (value : String) : List Char := (quote value).toList

mutual

/-- The canonical text of a document, whatever its size. -/
def text : Json → List Char
  | .null => "null".toList
  | .bool value => (if value then "true" else "false").toList
  | .num token => token.toList
  | .str value => quoted value
  | .arr items => '[' :: textJoined (itemTexts items) ++ [']']
  | .obj fields =>
    '\x7b' :: textJoined ((sortByKey (fieldTexts fields)).map Prod.snd) ++ ['\x7d']

def itemTexts : List Json → List (List Char)
  | [] => []
  | item :: rest => text item :: itemTexts rest

def fieldTexts : List (String × Json) → List (String × List Char)
  | [] => []
  | (key, value) :: rest => (key, quoted key ++ ':' :: text value) :: fieldTexts rest

end

theorem itemTexts_eq (items : List Json) : itemTexts items = items.map text := by
  induction items with
  | nil => rfl
  | cons item rest ih => rw [itemTexts, ih, List.map_cons]

/-- The text of one entry. -/
def fieldText (field : String × Json) : List Char := quoted field.1 ++ ':' :: text field.2

theorem fieldTexts_eq (fields : List (String × Json)) :
    fieldTexts fields = fields.map fun field => (field.1, fieldText field) := by
  induction fields with
  | nil => rfl
  | cons field rest ih => rw [fieldTexts, ih, List.map_cons, fieldText]

theorem text_arr (items : List Json) :
    text (.arr items) = '[' :: textJoined (items.map text) ++ [']'] := by
  rw [text, itemTexts_eq]

theorem text_obj (fields : List (String × Json)) :
    text (.obj fields) = '\x7b' :: textJoined ((sortByKey fields).map fieldText) ++ ['\x7d'] := by
  rw [text, fieldTexts_eq, sortByKey_map (fun key value => fieldText (key, value)), List.map_map]
  rfl

/-! ## What is written -/

/-- Every document inside a document, itself included, satisfies `p`. -/
inductive Everywhere (p : Json → Prop) : Json → Prop
  | null (h : p .null) : Everywhere p .null
  | bool (value) (h : p (.bool value)) : Everywhere p (.bool value)
  | num (token) (h : p (.num token)) : Everywhere p (.num token)
  | str (value) (h : p (.str value)) : Everywhere p (.str value)
  | arr (items) (h : p (.arr items)) (hitems : ∀ item ∈ items, Everywhere p item) :
      Everywhere p (.arr items)
  | obj (fields) (h : p (.obj fields)) (hfields : ∀ field ∈ fields, Everywhere p field.2) :
      Everywhere p (.obj fields)

/-- Induction over the documents inside a document. -/
@[elab_as_elim]
theorem documents_induction {P : Json → Prop} (null : P .null) (bool : ∀ value, P (.bool value))
    (num : ∀ token, P (.num token)) (str : ∀ value, P (.str value))
    (arr : ∀ items, (∀ item ∈ items, P item) → P (.arr items))
    (obj : ∀ fields, (∀ field ∈ fields, P field.2) → P (.obj fields)) (v : Json) : P v := by
  -- the recursor also goes through the lists of items and of entries
  refine @Json.rec P (fun items => ∀ item ∈ items, P item) (fun fields => ∀ field ∈ fields, P field.2)
    (fun field => P field.2) null bool num str arr obj ?_ ?_ ?_ ?_ ?_ v
  · simp
  · intro head tail hhead htail
    exact List.forall_mem_cons.mpr ⟨hhead, htail⟩
  · simp
  · intro head tail hhead htail
    exact List.forall_mem_cons.mpr ⟨hhead, htail⟩
  · intro key value hvalue
    exact hvalue

/-- The document holds no number. -/
def NumberFree : Json → Prop := Everywhere fun
  | .num _ => False
  | _ => True

/-- The entries of every object are listed by increasing key, none twice. -/
def SortedKeys : Json → Prop := Everywhere fun
  | .obj fields => (fields.map Prod.fst).Pairwise (· < ·)
  | _ => True

/-- The writer appends the given text. -/
def Writes (writer : Writer) (piece : List Char) : Prop :=
  ∀ out out', writer out = .ok out' → out'.toList = out.toList ++ piece

section Written

variable {limit maxDepth : Nat}

theorem writes_extend (piece : String) : Writes (extend limit piece) piece.toList := by
  intro out out' h
  unfold extend at h
  split at h
  · cases h
    exact String.toList_append
  · cases h

theorem writes_rest {writers : List Writer} {pieces : List (List Char)}
    (h : List.Forall₂ Writes writers pieces) :
    Writes (writeRest limit writers) (textRest pieces) := by
  induction h with
  | nil =>
    intro out out' hout
    cases hout
    exact (List.append_nil _).symm
  | cons hhead _ ih =>
    intro out out' hout
    simp only [writeRest, bind_eq_ok] at hout
    obtain ⟨out₁, hcomma, out₂, hpiece, hrest⟩ := hout
    rw [ih _ _ hrest, hhead _ _ hpiece, writes_extend _ _ _ hcomma]
    simp [textRest]

theorem writes_joined {writers : List Writer} {pieces : List (List Char)}
    (h : List.Forall₂ Writes writers pieces) :
    Writes (writeJoined limit writers) (textJoined pieces) := by
  cases h with
  | nil =>
    intro out out' hout
    cases hout
    exact (List.append_nil _).symm
  | cons hhead hrest =>
    intro out out' hout
    simp only [writeJoined, bind_eq_ok] at hout
    obtain ⟨out₁, hpiece, hout⟩ := hout
    rw [writes_rest hrest _ _ hout, hhead _ _ hpiece]
    simp [textJoined]

/-- A joined list is written only when each of its writers succeeds. -/
theorem writeRest_mem {writers : List Writer} {out out' : String}
    (h : writeRest limit writers out = .ok out') {writer : Writer} (hmem : writer ∈ writers) :
    ∃ before after, writer before = .ok after := by
  induction writers generalizing out with
  | nil => cases hmem
  | cons head rest ih =>
    simp only [writeRest, bind_eq_ok] at h
    obtain ⟨before, -, after, hhead, hrest⟩ := h
    rcases List.mem_cons.mp hmem with rfl | hmem
    · exact ⟨before, after, hhead⟩
    · exact ih hrest hmem

theorem writeJoined_mem {writers : List Writer} {out out' : String}
    (h : writeJoined limit writers out = .ok out') {writer : Writer} (hmem : writer ∈ writers) :
    ∃ before after, writer before = .ok after := by
  cases writers with
  | nil => cases hmem
  | cons head rest =>
    simp only [writeJoined, bind_eq_ok] at h
    obtain ⟨after, hhead, hrest⟩ := h
    rcases List.mem_cons.mp hmem with rfl | hmem
    · exact ⟨out, after, hhead⟩
    · exact writeRest_mem hrest hmem

theorem itemWriters_eq (depth : Nat) (items : List Json) :
    itemWriters limit maxDepth depth items = items.map (write limit maxDepth depth) := by
  induction items with
  | nil => rfl
  | cons item rest ih => rw [itemWriters, ih, List.map_cons]

variable (limit maxDepth) in
/-- The writer of one entry. -/
def fieldWriter (depth : Nat) (field : String × Json) : Writer := fun out => do
  let out ← extend limit (quote field.1) out
  let out ← extend limit ":" out
  write limit maxDepth depth field.2 out

theorem fieldWriters_eq (depth : Nat) (fields : List (String × Json)) :
    fieldWriters limit maxDepth depth fields =
      fields.map fun field => (field.1, fieldWriter limit maxDepth depth field) := by
  induction fields with
  | nil => rfl
  | cons field rest ih => rw [fieldWriters, ih, List.map_cons]; rfl

theorem sorted_fieldWriters (depth : Nat) (fields : List (String × Json)) :
    (sortByKey (fieldWriters limit maxDepth depth fields)).map Prod.snd =
      (sortByKey fields).map (fieldWriter limit maxDepth depth) := by
  rw [fieldWriters_eq, sortByKey_map (fun key value => fieldWriter limit maxDepth depth (key, value)),
    List.map_map]
  rfl

theorem writes_fieldWriter {depth : Nat} {field : String × Json}
    (h : Writes (write limit maxDepth depth field.2) (text field.2)) :
    Writes (fieldWriter limit maxDepth depth field) (fieldText field) := by
  intro out out' hout
  simp only [fieldWriter, bind_eq_ok] at hout
  obtain ⟨out₁, hkey, out₂, hcolon, hvalue⟩ := hout
  rw [h _ _ hvalue, writes_extend _ _ _ hcolon, writes_extend _ _ _ hkey]
  simp [fieldText, quoted]

theorem forall₂_writes {α : Type} {f : α → Writer} {g : α → List Char} {xs : List α}
    (h : ∀ x ∈ xs, Writes (f x) (g x)) : List.Forall₂ Writes (xs.map f) (xs.map g) := by
  rw [List.forall₂_map_left_iff, List.forall₂_map_right_iff, List.forall₂_same]
  exact h

/-- The writer appends the canonical text. -/
theorem writes_write (depth : Nat) (v : Json) : Writes (write limit maxDepth depth v) (text v) := by
  induction v using documents_induction generalizing depth with
  | null =>
    intro out out' hout
    rw [write] at hout
    split at hout
    · cases hout
    · exact writes_extend _ _ _ hout
  | bool value =>
    intro out out' hout
    rw [write] at hout
    split at hout
    · cases hout
    · exact writes_extend _ _ _ hout
  | num token =>
    intro out out' hout
    rw [write] at hout
    cases hout
  | str value =>
    intro out out' hout
    rw [write] at hout
    split at hout
    · cases hout
    · exact writes_extend _ _ _ hout
  | arr items ih =>
    intro out out' hout
    rw [write] at hout
    split at hout
    · cases hout
    · simp only [bind_eq_ok, itemWriters_eq] at hout
      obtain ⟨out₁, hopen, out₂, hitems, hclose⟩ := hout
      have hjoined : Writes (writeJoined limit (items.map (write limit maxDepth (depth + 1))))
          (textJoined (items.map text)) :=
        writes_joined (forall₂_writes fun item hitem => ih item hitem (depth + 1))
      rw [writes_extend _ _ _ hclose, hjoined _ _ hitems, writes_extend _ _ _ hopen, text_arr]
      simp
  | obj fields ih =>
    intro out out' hout
    rw [write] at hout
    split at hout
    · cases hout
    · simp only [bind_eq_ok, sorted_fieldWriters] at hout
      obtain ⟨out₁, hopen, -, -, out₂, hfields, hclose⟩ := hout
      have hjoined : Writes (writeJoined limit
          ((sortByKey fields).map (fieldWriter limit maxDepth (depth + 1))))
          (textJoined ((sortByKey fields).map fieldText)) := by
        apply writes_joined
        apply forall₂_writes
        intro field hfield
        apply writes_fieldWriter
        exact ih field ((sortByKey_perm fields).mem_iff.mp hfield) (depth + 1)
      rw [writes_extend _ _ _ hclose, hjoined _ _ hfields, writes_extend _ _ _ hopen, text_obj]
      simp

/-- A document with a canonical text holds no number. -/
theorem numberFree_of_write {depth : Nat} {v : Json} {out out' : String}
    (h : write limit maxDepth depth v out = .ok out') : NumberFree v := by
  induction v using documents_induction generalizing depth out out' with
  | null => exact .null trivial
  | bool value => exact .bool value trivial
  | num token =>
    rw [write] at h
    cases h
  | str value => exact .str value trivial
  | arr items ih =>
    refine .arr items trivial fun item hitem => ?_
    rw [write] at h
    split at h
    · cases h
    · simp only [bind_eq_ok, itemWriters_eq] at h
      obtain ⟨_, -, _, hitems, -⟩ := h
      obtain ⟨before, after, hwrite⟩ := writeJoined_mem hitems (List.mem_map_of_mem hitem)
      exact ih item hitem hwrite
  | obj fields ih =>
    refine .obj fields trivial fun field hfield => ?_
    rw [write] at h
    split at h
    · cases h
    · simp only [bind_eq_ok, sorted_fieldWriters] at h
      obtain ⟨_, -, -, -, _, hfields, -⟩ := h
      have hmem : fieldWriter limit maxDepth (depth + 1) field ∈
          (sortByKey fields).map (fieldWriter limit maxDepth (depth + 1)) :=
        List.mem_map_of_mem ((sortByKey_perm fields).mem_iff.mpr hfield)
      obtain ⟨before, after, hwrite⟩ := writeJoined_mem hfields hmem
      simp only [fieldWriter, bind_eq_ok] at hwrite
      obtain ⟨_, -, _, -, hvalue⟩ := hwrite
      exact ih field hfield hvalue

end Written

/-! ## Reading back -/

/-- The value of a hexadecimal digit. -/
def hexValue (c : Char) : Nat := if c.toNat < 0x3a then c.toNat - 0x30 else c.toNat - 0x57

/-- The first character of an escaped text, and what follows it. -/
def unescape : List Char → Option (Char × List Char)
  | [] => none
  | '\\' :: 'u' :: _ :: _ :: a :: b :: rest =>
    some (Char.ofNat (16 * hexValue a + hexValue b), rest)
  | '\\' :: 'n' :: rest => some ('\n', rest)
  | '\\' :: 'r' :: rest => some ('\r', rest)
  | '\\' :: 't' :: rest => some ('\t', rest)
  | '\\' :: 'b' :: rest => some ('\x08', rest)
  | '\\' :: 'f' :: rest => some ('\x0c', rest)
  | '\\' :: c :: rest => some (c, rest)
  | c :: rest => some (c, rest)

theorem unescape_escapeChar (c : Char) (rest : List Char) :
    unescape ((escapeChar c).toList ++ rest) = some (c, rest) := by
  obtain ⟨n, hn⟩ : ∃ n, c.toNat = n := ⟨_, rfl⟩
  have hc : c = Char.ofNat n := by rw [← hn, Char.ofNat_toNat]
  by_cases hcontrol : n < 0x20
  · subst hc
    interval_cases n <;> rfl
  · by_cases hquote : n = 0x22
    · subst hquote
      subst hc
      rfl
    · by_cases hback : n = 0x5c
      · subst hback
        subst hc
        rfl
      · -- any other character stands for itself
        have hplain : escapeChar c = String.singleton c := by
          unfold escapeChar
          split <;> first | omega | rfl | skip
          exact if_neg (by omega)
        rw [hplain, String.toList_singleton, List.singleton_append]
        have hne : c ≠ '\\' := by
          rintro rfl
          exact hback hn.symm
        unfold unescape
        split <;> simp_all
/-- Two texts that end at a quote are the same when what follows starts the same. -/
theorem escape_cancel {cs ds : List Char} {rest rest' : List Char}
    (h : (escape cs).toList ++ '"' :: rest = (escape ds).toList ++ '"' :: rest') :
    cs = ds ∧ rest = rest' := by
  have hquote : ∀ c : Char, ∀ tail tail' : List Char,
      '"' :: tail ≠ (escapeChar c).toList ++ tail' := by
    intro c tail tail' heq
    have hread := unescape_escapeChar c tail'
    rw [← heq] at hread
    have hc : c = '"' := (congrArg Prod.fst (Option.some.inj hread)).symm
    subst hc
    cases heq
  induction cs generalizing ds with
  | nil =>
    cases ds with
    | nil => exact ⟨rfl, List.tail_eq_of_cons_eq h⟩
    | cons d ds =>
      rw [escape, escape, String.toList_append, List.append_assoc] at h
      exact absurd h (hquote d _ _)
  | cons c cs ih =>
    cases ds with
    | nil =>
      rw [escape, escape, String.toList_append, List.append_assoc] at h
      exact absurd h.symm (hquote c _ _)
    | cons d ds =>
      simp only [escape, String.toList_append, List.append_assoc] at h
      have hread := congrArg unescape h
      rw [unescape_escapeChar, unescape_escapeChar] at hread
      obtain ⟨rfl, htail⟩ := Prod.mk.inj (Option.some.inj hread)
      obtain ⟨rfl, hrest⟩ := ih htail
      exact ⟨rfl, hrest⟩

theorem quoted_eq (value : String) :
    quoted value = '"' :: ((escape value.toList).toList ++ ['"']) := by
  rw [quoted, quote_eq]
  simp

theorem quoted_cancel {a b : String} {rest rest' : List Char}
    (h : quoted a ++ rest = quoted b ++ rest') : a = b ∧ rest = rest' := by
  simp only [quoted_eq, List.cons_append, List.append_assoc, List.nil_append, List.cons.injEq,
    true_and] at h
  obtain ⟨hlist, hrest⟩ := escape_cancel h
  exact ⟨String.toList_inj.mp hlist, hrest⟩

section Joined

variable {α : Type} {f : α → List Char} {close : Char} {P : List Char → Prop}

/-- What comes after a piece starts with a comma or with the closing character. -/
theorem textRest_tail (hcomma : ∀ tail, P (',' :: tail)) (hend : ∀ tail, P (close :: tail))
    (pieces : List (List Char)) (rest : List Char) : P (textRest pieces ++ close :: rest) := by
  cases pieces with
  | nil => exact hend rest
  | cons piece pieces => exact hcomma _

/-- The pieces of a list up to its closing character can be told apart. -/
theorem textRest_cancel (hclose : close ≠ ',') (hcomma : ∀ tail, P (',' :: tail))
    (hend : ∀ tail, P (close :: tail)) {xs ys : List α} {rest rest' : List Char}
    (hcancel : ∀ x ∈ xs, ∀ y ∈ ys, ∀ tail tail', P tail → P tail' → f x ++ tail = f y ++ tail' →
      x = y ∧ tail = tail')
    (h : textRest (xs.map f) ++ close :: rest = textRest (ys.map f) ++ close :: rest') :
    xs = ys ∧ rest = rest' := by
  induction xs generalizing ys with
  | nil =>
    cases ys with
    | nil => exact ⟨rfl, List.tail_eq_of_cons_eq h⟩
    | cons y ys => exact absurd (List.head_eq_of_cons_eq h) hclose
  | cons x xs ih =>
    cases ys with
    | nil => exact absurd (List.head_eq_of_cons_eq h).symm hclose
    | cons y ys =>
      simp only [List.map_cons, textRest, List.cons_append, List.append_assoc,
        List.cons.injEq, true_and] at h
      obtain ⟨rfl, htail⟩ := hcancel x List.mem_cons_self y List.mem_cons_self _ _
        (textRest_tail hcomma hend _ _) (textRest_tail hcomma hend _ _) h
      obtain ⟨rfl, hrest⟩ := ih (fun a ha b hb =>
        hcancel a (List.mem_cons_of_mem _ ha) b (List.mem_cons_of_mem _ hb)) htail
      exact ⟨rfl, hrest⟩

theorem textJoined_cancel (hclose : close ≠ ',') (hcomma : ∀ tail, P (',' :: tail))
    (hend : ∀ tail, P (close :: tail)) {xs ys : List α} {rest rest' : List Char}
    (hcancel : ∀ x ∈ xs, ∀ y ∈ ys, ∀ tail tail', P tail → P tail' → f x ++ tail = f y ++ tail' →
      x = y ∧ tail = tail')
    (hstart : ∀ x, x ∈ xs ∨ x ∈ ys → ∀ tail tail', f x ++ tail ≠ close :: tail')
    (h : textJoined (xs.map f) ++ close :: rest = textJoined (ys.map f) ++ close :: rest') :
    xs = ys ∧ rest = rest' := by
  cases xs with
  | nil =>
    cases ys with
    | nil => exact ⟨rfl, List.tail_eq_of_cons_eq h⟩
    | cons y ys =>
      rw [List.map_cons, textJoined, List.append_assoc] at h
      exact absurd h.symm (hstart y (.inr List.mem_cons_self) _ _)
  | cons x xs =>
    cases ys with
    | nil =>
      rw [List.map_cons, textJoined, List.append_assoc] at h
      exact absurd h (hstart x (.inl List.mem_cons_self) _ _)
    | cons y ys =>
      simp only [List.map_cons, textJoined, List.append_assoc] at h
      obtain ⟨rfl, htail⟩ := hcancel x List.mem_cons_self y List.mem_cons_self _ _
        (textRest_tail hcomma hend _ _) (textRest_tail hcomma hend _ _) h
      obtain ⟨rfl, hrest⟩ := textRest_cancel hclose hcomma hend (fun a ha b hb =>
        hcancel a (List.mem_cons_of_mem _ ha) b (List.mem_cons_of_mem _ hb)) htail
      exact ⟨rfl, hrest⟩

end Joined

/-- The character a text without numbers starts with. -/
def lead : Json → Char
  | .null => 'n'
  | .bool value => if value then 't' else 'f'
  | .num _ => '0'
  | .str _ => '"'
  | .arr _ => '['
  | .obj _ => '\x7b'

theorem text_lead {v : Json} (h : NumberFree v) : ∃ tail, text v = lead v :: tail := by
  cases h with
  | null _ => exact ⟨_, rfl⟩
  | bool value _ => cases value <;> exact ⟨_, rfl⟩
  | num token h => exact h.elim
  | str value _ => exact ⟨_, quoted_eq value⟩
  | arr items _ _ => exact ⟨_, text_arr items⟩
  | obj fields _ _ => exact ⟨_, text_obj fields⟩

theorem lead_eq {v w : Json} {rest rest' : List Char} (hv : NumberFree v) (hw : NumberFree w)
    (h : text v ++ rest = text w ++ rest') : lead v = lead w := by
  obtain ⟨tail, hv⟩ := text_lead hv
  obtain ⟨tail', hw⟩ := text_lead hw
  rw [hv, hw] at h
  exact List.head_eq_of_cons_eq h

theorem NumberFree.item {items : List Json} (h : NumberFree (.arr items)) {item : Json}
    (hitem : item ∈ items) : NumberFree item := by
  cases h with
  | arr _ _ hitems => exact hitems item hitem

theorem NumberFree.field {fields : List (String × Json)} (h : NumberFree (.obj fields))
    {field : String × Json} (hfield : field ∈ fields) : NumberFree field.2 := by
  cases h with
  | obj _ _ hfields => exact hfields field hfield

@[simp] theorem numberFree_null : NumberFree .null := .null trivial

@[simp] theorem numberFree_str (value : String) : NumberFree (.str value) := .str value trivial

@[simp] theorem numberFree_arr {items : List Json} :
    NumberFree (.arr items) ↔ ∀ item ∈ items, NumberFree item :=
  ⟨fun h _ hitem => h.item hitem, fun h => .arr items trivial h⟩

@[simp] theorem numberFree_obj {fields : List (String × Json)} :
    NumberFree (.obj fields) ↔ ∀ field ∈ fields, NumberFree field.2 :=
  ⟨fun h _ hfield => h.field hfield, fun h => .obj fields trivial h⟩

theorem SortedKeys.item {items : List Json} (h : SortedKeys (.arr items)) {item : Json}
    (hitem : item ∈ items) : SortedKeys item := by
  cases h with
  | arr _ _ hitems => exact hitems item hitem

theorem SortedKeys.field {fields : List (String × Json)} (h : SortedKeys (.obj fields))
    {field : String × Json} (hfield : field ∈ fields) : SortedKeys field.2 := by
  cases h with
  | obj _ _ hfields => exact hfields field hfield

theorem SortedKeys.keys {fields : List (String × Json)} (h : SortedKeys (.obj fields)) :
    (fields.map Prod.fst).Pairwise (· < ·) := by
  cases h with
  | obj _ hkeys _ => exact hkeys

/-- Sorted entries are determined by what they are written as. -/
theorem eq_of_sortByKey_eq {fields fields' : List (String × Json)}
    (hsorted : (fields.map Prod.fst).Pairwise (· < ·))
    (hsorted' : (fields'.map Prod.fst).Pairwise (· < ·))
    (h : sortByKey fields = sortByKey fields') : fields = fields' := by
  have hperm : fields.Perm fields' :=
    (sortByKey_perm fields).symm.trans (h ▸ sortByKey_perm fields')
  rw [List.pairwise_map] at hsorted hsorted'
  apply hperm.eq_of_pairwise _ hsorted hsorted'
  intro a b _ _ hlt hgt
  exact absurd hgt (String.lt_asymm hlt)

/-- The canonical texts of documents are read back in one way only. -/
theorem text_cancel {v w : Json} {rest rest' : List Char} (hv : NumberFree v) (hw : NumberFree w)
    (hsv : SortedKeys v) (hsw : SortedKeys w) (h : text v ++ rest = text w ++ rest') :
    v = w ∧ rest = rest' := by
  induction v using documents_induction generalizing w rest rest' with
  | null =>
    have hlead := lead_eq hv hw h
    cases w with
    | null => exact ⟨rfl, List.append_cancel_left h⟩
    | bool value => cases value <;> cases hlead
    | num token => cases hw; contradiction
    | _ => cases hlead
  | bool value =>
    have hlead := lead_eq hv hw h
    cases w with
    | bool value' =>
      cases value <;> cases value' <;> first
        | exact ⟨rfl, List.append_cancel_left h⟩
        | cases hlead
    | num token => cases hw; contradiction
    | _ => cases value <;> cases hlead
  | num token => cases hv; contradiction
  | str value =>
    have hlead := lead_eq hv hw h
    cases w with
    | str value' =>
      obtain ⟨rfl, hrest⟩ := quoted_cancel h
      exact ⟨rfl, hrest⟩
    | bool value => cases value <;> cases hlead
    | num token => cases hw; contradiction
    | _ => cases hlead
  | arr items ih =>
    have hlead := lead_eq hv hw h
    cases w with
    | arr items' =>
      rw [text_arr, text_arr] at h
      simp only [List.cons_append, List.append_assoc, List.nil_append, List.cons.injEq,
        true_and] at h
      have hcancel := textJoined_cancel (f := text) (P := fun _ => True) (by decide)
        (fun _ => trivial) (fun _ => trivial) (fun x hx y hy _ _ _ _ =>
          ih x hx (hv.item hx) (hw.item hy) (hsv.item hx) (hsw.item hy)) ?_ h
      · exact ⟨congrArg _ hcancel.1, hcancel.2⟩
      · intro x hx tail tail' heq
        obtain ⟨front, hfront⟩ := text_lead (hx.elim hv.item hw.item)
        rw [hfront] at heq
        have hhead := List.head_eq_of_cons_eq heq
        cases x with
        | bool value => cases value <;> cases hhead
        | _ => cases hhead
    | bool value => cases value <;> cases hlead
    | num token => cases hw; contradiction
    | _ => cases hlead
  | obj fields ih =>
    have hlead := lead_eq hv hw h
    cases w with
    | obj fields' =>
      rw [text_obj, text_obj] at h
      simp only [List.cons_append, List.append_assoc, List.nil_append, List.cons.injEq,
        true_and] at h
      have hcancel := textJoined_cancel (f := fieldText) (P := fun _ => True) (by decide)
        (fun _ => trivial) (fun _ => trivial) ?_ ?_ h
      · exact ⟨congrArg _ (eq_of_sortByKey_eq hsv.keys hsw.keys hcancel.1), hcancel.2⟩
      · intro x hx y hy tail tail' _ _ heq
        have hx := (sortByKey_perm _).mem_iff.mp hx
        have hy := (sortByKey_perm _).mem_iff.mp hy
        simp only [fieldText, List.append_assoc] at heq
        obtain ⟨hkey, heq⟩ := quoted_cancel heq
        obtain ⟨hvalue, htail⟩ := ih x hx (hv.field hx) (hw.field hy) (hsv.field hx)
          (hsw.field hy) (List.tail_eq_of_cons_eq heq)
        exact ⟨Prod.ext hkey hvalue, htail⟩
      · intro x _ tail tail' heq
        rw [fieldText, quoted_eq] at heq
        cases List.head_eq_of_cons_eq heq
    | bool value => cases value <;> cases hlead
    | num token => cases hw; contradiction
    | _ => cases hlead

/-- Documents with one canonical text are equal. -/
theorem text_injective {v w : Json} (hv : NumberFree v) (hw : NumberFree w) (hsv : SortedKeys v)
    (hsw : SortedKeys w) (h : text v = text w) : v = w := by
  have hcancel : text v ++ [] = text w ++ [] := by rw [h]
  exact (text_cancel hv hw hsv hsw hcancel).1

end CanonicalJson
