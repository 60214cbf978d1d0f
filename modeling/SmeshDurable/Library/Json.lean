import Mathlib.Algebra.BigOperators.Group.List.Basic
import Mathlib.Algebra.GroupWithZero.Nat

/-!
# Compact JSON documents

JSON values with their compact text, the form a serializer without whitespace
writes. Objects keep their entries in emission order, numbers keep the token
they are printed as. `size` is the length of the text in bytes; it does not
depend on the order in which the entries of an object are written, and the
lemmas below compute it for objects and arrays from the sizes of their parts.
-/

/-- A JSON document whose objects list their entries in emission order. -/
inductive Json where
  | null
  | bool (value : Bool)
  | num (token : String)
  | str (text : String)
  | arr (items : List Json)
  | obj (fields : List (String × Json))

namespace Json

/-- A natural number, as it is printed. -/
def number (n : Nat) : Json := .num (toString n)

theorem repr_injective : Function.Injective Nat.repr := by
  intro a b h
  have hdigits : Nat.toDigits 10 a = Nat.toDigits 10 b := by
    rw [← Nat.toList_repr, ← Nat.toList_repr, h]
  have hvalue := congrArg (Nat.ofDigitChars 10 · 0) hdigits
  simpa only [Nat.ofDigitChars_toDigits (show 1 < 10 by decide) (Nat.le_refl 10)] using hvalue

theorem number_injective : Function.Injective number := fun _ _ h => repr_injective (Json.num.inj h)

mutual

/-- Structural comparison; the arrays and objects recurse through their lists. -/
def beq : Json → Json → Bool
  | null, null => true
  | bool a, bool b => a == b
  | num a, num b => a == b
  | str a, str b => a == b
  | arr xs, arr ys => beqItems xs ys
  | obj fs, obj gs => beqFields fs gs
  | _, _ => false

def beqItems : List Json → List Json → Bool
  | [], [] => true
  | x :: xs, y :: ys => beq x y && beqItems xs ys
  | _, _ => false

def beqFields : List (String × Json) → List (String × Json) → Bool
  | [], [] => true
  | (k, x) :: xs, (l, y) :: ys => k == l && beq x y && beqFields xs ys
  | _, _ => false

end

mutual

theorem eq_of_beq : ∀ {x y : Json}, beq x y = true → x = y
  | null, y, h => by cases y <;> simp_all [beq]
  | bool a, y, h => by cases y <;> simp_all [beq]
  | num a, y, h => by cases y <;> simp_all [beq]
  | str a, y, h => by cases y <;> simp_all [beq]
  | arr xs, y, h => by
      cases y with
      | arr ys => rw [eq_of_beqItems (show beqItems xs ys = true by simpa [beq] using h)]
      | _ => simp [beq] at h
  | obj fs, y, h => by
      cases y with
      | obj gs => rw [eq_of_beqFields (show beqFields fs gs = true by simpa [beq] using h)]
      | _ => simp [beq] at h

theorem eq_of_beqItems : ∀ {xs ys : List Json}, beqItems xs ys = true → xs = ys
  | [], ys, h => by cases ys <;> simp_all [beqItems]
  | x :: xs, ys, h => by
      cases ys with
      | nil => simp [beqItems] at h
      | cons y ys =>
        simp only [beqItems, Bool.and_eq_true] at h
        rw [eq_of_beq h.1, eq_of_beqItems h.2]

theorem eq_of_beqFields : ∀ {fs gs : List (String × Json)}, beqFields fs gs = true → fs = gs
  | [], gs, h => by cases gs <;> simp_all [beqFields]
  | (k, x) :: fs, gs, h => by
      cases gs with
      | nil => simp [beqFields] at h
      | cons g gs =>
        obtain ⟨l, y⟩ := g
        simp only [beqFields, Bool.and_eq_true, beq_iff_eq] at h
        rw [h.1.1, eq_of_beq h.1.2, eq_of_beqFields h.2]

end

mutual

theorem beq_self : ∀ x : Json, beq x x = true
  | null => rfl
  | bool _ => by simp [beq]
  | num _ => by simp [beq]
  | str _ => by simp [beq]
  | arr xs => by simp [beq, beqItems_self xs]
  | obj fs => by simp [beq, beqFields_self fs]

theorem beqItems_self : ∀ xs : List Json, beqItems xs xs = true
  | [] => rfl
  | x :: xs => by simp [beqItems, beq_self x, beqItems_self xs]

theorem beqFields_self : ∀ fs : List (String × Json), beqFields fs fs = true
  | [] => rfl
  | (_, x) :: fs => by simp [beqFields, beq_self x, beqFields_self fs]

end

instance : DecidableEq Json := fun x y =>
  if h : beq x y = true then isTrue (eq_of_beq h)
  else isFalse fun heq => h (heq ▸ beq_self x)

/-! ## Text -/

/-- The escape sequence of one character inside a JSON string: the short escapes,
`\\u00XX` for the other control characters, and the character itself otherwise. -/
def escapeChar (c : Char) : String :=
  match c.toNat with
  | 0x22 => "\\\""
  | 0x5c => "\\\\"
  | 0x0a => "\\n"
  | 0x0d => "\\r"
  | 0x09 => "\\t"
  | 0x08 => "\\b"
  | 0x0c => "\\f"
  | n => if n < 0x20 then
      "\\u00" ++ String.ofList [Nat.digitChar (n / 16), Nat.digitChar (n % 16)]
    else String.singleton c

def escape : List Char → String
  | [] => ""
  | c :: cs => escapeChar c ++ escape cs

/-- A byte that needs no escape. -/
def isPlain (byte : UInt8) : Bool := 0x20 ≤ byte && byte != 0x22 && byte != 0x5c

/-- A string in quotes; a text without bytes to escape is written as it is. -/
def quote (text : String) : String :=
  if text.toUTF8.data.toList.all isPlain then "\"" ++ text ++ "\""
  else "\"" ++ escape text.toList ++ "\""

mutual

/-- The compact text of a document. -/
def render : Json → String
  | null => "null"
  | bool b => if b then "true" else "false"
  | num token => token
  | str text => quote text
  | arr items => "[" ++ renderItems items ++ "]"
  | obj fields => "\x7b" ++ renderFields fields ++ "\x7d"

def renderItems : List Json → String
  | [] => ""
  | [x] => render x
  | x :: xs => render x ++ "," ++ renderItems xs

def renderFields : List (String × Json) → String
  | [] => ""
  | [(k, x)] => quote k ++ ":" ++ render x
  | (k, x) :: fs => quote k ++ ":" ++ render x ++ "," ++ renderFields fs

end

/-- Length of the compact text in bytes. -/
def size (j : Json) : Nat := (render j).utf8ByteSize

/-- Length in bytes of a string once quoted and escaped. -/
def quotedSize (text : String) : Nat := (quote text).utf8ByteSize

/-- Length in bytes of one entry `"key":value`. -/
def fieldSize (field : String × Json) : Nat := quotedSize field.1 + 1 + size field.2

theorem size_str (text : String) : size (.str text) = quotedSize text := rfl

theorem size_null : size .null = 4 := rfl

/-- The bytes of a plain character are plain, so it is its own escape sequence. -/
theorem escapeChar_of_isPlain {c : Char}
    (h : (String.utf8EncodeChar c).all isPlain = true) : escapeChar c = String.singleton c := by
  have hplain : 0x20 ≤ c.toNat ∧ c.toNat ≠ 0x22 ∧ c.toNat ≠ 0x5c := by
    by_cases hascii : c.toNat ≤ 0x7f
    · -- a character below 0x80 is its own and only byte
      have hbyte : String.utf8EncodeChar c = [UInt8.ofNat c.toNat] := if_pos hascii
      rw [hbyte, List.all_cons, List.all_nil, Bool.and_true] at h
      simp only [isPlain, Bool.and_eq_true, decide_eq_true_eq, bne_iff_ne, ne_eq,
        UInt8.le_iff_toNat_le, UInt8.toNat_ofNat', ← UInt8.toNat_inj] at h
      have hmod : c.toNat % 2 ^ 8 = c.toNat := Nat.mod_eq_of_lt (by omega)
      rw [hmod] at h
      exact ⟨h.1.1, h.1.2, h.2⟩
    · omega
  obtain ⟨hcontrol, hquote, hbackslash⟩ := hplain
  unfold escapeChar
  split <;> first | omega | rfl | skip
  exact if_neg (by omega)

theorem escape_of_isPlain {chars : List Char}
    (h : (chars.flatMap String.utf8EncodeChar).all isPlain = true) :
    escape chars = String.ofList chars := by
  induction chars with
  | nil => rfl
  | cons c rest ih =>
    rw [List.flatMap_cons, List.all_append, Bool.and_eq_true] at h
    rw [escape, escapeChar_of_isPlain h.1, ih h.2, String.ofList_cons]

/-- Writing a plain text as it is makes no difference. -/
theorem quote_eq (text : String) : quote text = "\"" ++ escape text.toList ++ "\"" := by
  rw [quote]
  split
  case isTrue hplain =>
    have hbytes : text.toUTF8.data.toList = text.toList.flatMap String.utf8EncodeChar := by
      conv_lhs => rw [← String.ofList_toList (s := text)]
      rw [String.toUTF8_eq_toByteArray, String.toByteArray_ofList, List.utf8Encode,
        List.data_toByteArray]
    rw [hbytes] at hplain
    rw [escape_of_isPlain hplain, String.ofList_toList]
  case isFalse => rfl

theorem quotedSize_eq (text : String) :
    quotedSize text = (escape text.toList).utf8ByteSize + 2 := by
  simp only [quotedSize, quote_eq, String.utf8ByteSize_append]
  change 1 + _ + 1 = _
  omega

theorem escape_append (xs ys : List Char) : escape (xs ++ ys) = escape xs ++ escape ys := by
  induction xs with
  | nil => simp [escape]
  | cons c cs ih => simp only [List.cons_append, escape, ih, String.append_assoc]

/-- Two texts joined share one pair of quotes. -/
theorem quotedSize_append (a b : String) :
    quotedSize (a ++ b) + 2 = quotedSize a + quotedSize b := by
  simp only [quotedSize_eq, String.toList_append, escape_append, String.utf8ByteSize_append]
  omega

theorem two_le_quotedSize (text : String) : 2 ≤ quotedSize text := by
  rw [quotedSize_eq]; omega

theorem renderItems_size (items : List Json) :
    (renderItems items).utf8ByteSize = (items.map size).sum + (items.length - 1) := by
  induction items with
  | nil => rfl
  | cons x xs ih =>
    cases xs with
    | nil => simp [renderItems, size]
    | cons y ys =>
      rw [renderItems]
      · simp only [String.utf8ByteSize_append, ih, List.map_cons, List.sum_cons,
          List.length_cons, size]
        have hcomma : (",").utf8ByteSize = 1 := rfl
        omega
      · simp

theorem renderFields_size (fields : List (String × Json)) :
    (renderFields fields).utf8ByteSize =
      (fields.map fieldSize).sum + (fields.length - 1) := by
  have hcolon : (":").utf8ByteSize = 1 := rfl
  have hcomma : (",").utf8ByteSize = 1 := rfl
  induction fields with
  | nil => rfl
  | cons field fields ih =>
    obtain ⟨k, x⟩ := field
    cases fields with
    | nil => simp [renderFields, fieldSize, quotedSize, size, hcolon]
    | cons g gs =>
      rw [renderFields]
      · simp only [String.utf8ByteSize_append, ih, List.map_cons, List.sum_cons,
          List.length_cons, fieldSize, quotedSize, size]
        omega
      · simp

theorem size_arr (items : List Json) :
    size (.arr items) = (items.map size).sum + (items.length - 1) + 2 := by
  have hopen : ("[").utf8ByteSize = 1 := rfl
  have hclose : ("]").utf8ByteSize = 1 := rfl
  simp only [size, render, String.utf8ByteSize_append, renderItems_size]
  rw [hopen, hclose]
  have : (List.map (fun j => j.render.utf8ByteSize) items).sum = (items.map size).sum := rfl
  omega

theorem size_obj (fields : List (String × Json)) :
    size (.obj fields) = (fields.map fieldSize).sum + (fields.length - 1) + 2 := by
  have hopen : ("\x7b").utf8ByteSize = 1 := rfl
  have hclose : ("\x7d").utf8ByteSize = 1 := rfl
  simp only [size, render, String.utf8ByteSize_append, renderFields_size]
  omega

/-- The order in which an object's entries are written does not change its size. -/
theorem size_obj_perm {fields fields' : List (String × Json)} (h : fields.Perm fields') :
    size (.obj fields) = size (.obj fields') := by
  rw [size_obj, size_obj, (h.map fieldSize).sum_eq, h.length_eq]

/-- An object with a single entry: the braces, the quoted key and the colon. -/
theorem size_obj_singleton (key : String) (value : Json) :
    size (.obj [(key, value)]) = quotedSize key + size value + 3 := by
  rw [size_obj]
  simp [fieldSize]
  omega

/-! ## Canonical form -/

/-- Insertion of an entry into entries sorted by key. -/
def insertField (field : String × Json) : List (String × Json) → List (String × Json)
  | [] => [field]
  | g :: gs => if field.1 < g.1 then field :: g :: gs else g :: insertField field gs

def sortFields (fields : List (String × Json)) : List (String × Json) :=
  fields.foldr insertField []

mutual

/-- The document with the entries of every object sorted by key. -/
def canonical : Json → Json
  | arr items => .arr (canonicalItems items)
  | obj fields => .obj (sortFields (canonicalFields fields))
  | j => j

def canonicalItems : List Json → List Json
  | [] => []
  | x :: xs => canonical x :: canonicalItems xs

def canonicalFields : List (String × Json) → List (String × Json)
  | [] => []
  | (k, x) :: fs => (k, canonical x) :: canonicalFields fs

end

end Json
