import Mathlib.Data.List.Induction
import Mathlib.Data.List.Infix

/-!
# JSON pointers

A pointer names a place in a document by the tokens on the way to it. A slash stands before every
token, and inside a token a tilde and a slash are escaped. Writing and reading undo each other,
and a pointer is above another exactly if the text of the one is followed by a slash in the other.
-/

namespace JsonPointer

/-! ## Tokens -/

/-- Tildes are escaped first, then slashes. -/
def encodeToken (token : List Char) : List Char :=
  (token.flatMap fun c => if c = '~' then ['~', '0'] else [c]).flatMap fun c =>
    if c = '/' then ['~', '1'] else [c]

/-- Replace two characters that stand next to each other, from the left. -/
def replacePair (first second new : Char) : List Char → List Char
  | a :: b :: rest =>
    if a = first ∧ b = second then new :: replacePair first second new rest
    else a :: replacePair first second new (b :: rest)
  | rest => rest

/-- Slashes are restored first, then tildes. -/
def decodeToken (token : List Char) : List Char :=
  replacePair '~' '0' '~' (replacePair '~' '1' '/' token)

/-- Every tilde starts one of the two escapes. -/
def escapes : List Char → Bool
  | [] => true
  | [c] => c ≠ '~'
  | c :: d :: rest =>
    if c = '~' then (d = '0' ∨ d = '1') && escapes rest else escapes (d :: rest)

@[simp] theorem encodeToken_nil : encodeToken [] = [] := rfl

theorem encodeToken_cons (c : Char) (token : List Char) :
    encodeToken (c :: token) =
      (if c = '~' then ['~', '0'] else if c = '/' then ['~', '1'] else [c]) ++ encodeToken token := by
  rw [encodeToken, List.flatMap_cons, List.flatMap_append]
  congr 1
  split
  · decide
  · rw [List.flatMap_singleton]

theorem replacePair_cons_of_ne {first second new c : Char} (h : c ≠ first) (rest : List Char) :
    replacePair first second new (c :: rest) = c :: replacePair first second new rest := by
  cases rest with
  | nil => rfl
  | cons d rest => rw [replacePair, if_neg fun hpair => h hpair.1]

@[simp] theorem decodeToken_nil : decodeToken [] = [] := rfl

theorem decodeToken_tilde (rest : List Char) :
    decodeToken ('~' :: '0' :: rest) = '~' :: decodeToken rest := by
  have hslashes : replacePair '~' '1' '/' ('~' :: '0' :: rest) =
      '~' :: '0' :: replacePair '~' '1' '/' rest := by
    rw [replacePair, if_neg (by decide), replacePair_cons_of_ne (by decide)]
  rw [decodeToken, hslashes, replacePair, if_pos (by decide), decodeToken]

theorem decodeToken_slash (rest : List Char) :
    decodeToken ('~' :: '1' :: rest) = '/' :: decodeToken rest := by
  rw [decodeToken, replacePair, if_pos (by decide), replacePair_cons_of_ne (by decide), decodeToken]

theorem decodeToken_cons {c : Char} (h : c ≠ '~') (rest : List Char) :
    decodeToken (c :: rest) = c :: decodeToken rest := by
  rw [decodeToken, replacePair_cons_of_ne h, replacePair_cons_of_ne h, decodeToken]

theorem decodeToken_encodeToken (token : List Char) : decodeToken (encodeToken token) = token := by
  induction token with
  | nil => rfl
  | cons c token ih =>
    rw [encodeToken_cons]
    split
    next htilde => rw [List.cons_append, List.cons_append, List.nil_append, decodeToken_tilde, ih, htilde]
    next htilde =>
      split
      next hslash => rw [List.cons_append, List.cons_append, List.nil_append, decodeToken_slash, ih, hslash]
      next => rw [List.cons_append, List.nil_append, decodeToken_cons htilde, ih]

theorem encodeToken_injective : Function.Injective encodeToken :=
  Function.LeftInverse.injective decodeToken_encodeToken

theorem slash_notMem_encodeToken (token : List Char) : '/' ∉ encodeToken token := by
  induction token with
  | nil => exact List.not_mem_nil
  | cons c token ih =>
    rw [encodeToken_cons, List.mem_append, not_or]
    refine ⟨?_, ih⟩
    split
    · decide
    · split
      · decide
      · rw [List.mem_singleton]
        exact fun h => absurd h.symm ‹_›

theorem escapes_cons_of_ne {c : Char} (h : c ≠ '~') (rest : List Char) :
    escapes (c :: rest) = escapes rest := by
  cases rest with
  | nil => simpa [escapes] using h
  | cons d rest => rw [escapes, if_neg h]

theorem escapes_encodeToken_append (token rest : List Char) :
    escapes (encodeToken token ++ rest) = escapes rest := by
  induction token with
  | nil => rfl
  | cons c token ih =>
    rw [encodeToken_cons, List.append_assoc]
    split
    · simpa [escapes] using ih
    · split
      · simpa [escapes] using ih
      · rw [List.cons_append, List.nil_append, escapes_cons_of_ne ‹_›, ih]

/-! ## Pointers -/

def encode (tokens : List (List Char)) : List Char := tokens.flatMap fun token => '/' :: encodeToken token

/-- The text before the first slash is dropped unread. -/
def decode : List Char → List (List Char)
  | [] => []
  | _ :: rest => (rest.splitOn '/').map decodeToken

/-- The empty pointer, or slashes and tokens whose tildes are escapes. -/
def Valid (pointer : List Char) : Prop :=
  pointer = [] ∨ (pointer.head? = some '/' ∧ escapes pointer = true)

@[simp] theorem encode_nil : encode [] = [] := rfl

theorem encode_cons (token : List Char) (tokens : List (List Char)) :
    encode (token :: tokens) = '/' :: (encodeToken token ++ encode tokens) := rfl

theorem encode_append (tokens more : List (List Char)) :
    encode (tokens ++ more) = encode tokens ++ encode more := List.flatMap_append

theorem escapes_encode (tokens : List (List Char)) : escapes (encode tokens) = true := by
  induction tokens with
  | nil => rfl
  | cons token tokens ih =>
    rw [encode_cons, escapes_cons_of_ne (by decide), escapes_encodeToken_append, ih]

theorem valid_encode (tokens : List (List Char)) : Valid (encode tokens) := by
  cases tokens with
  | nil => exact .inl rfl
  | cons token tokens => exact .inr ⟨rfl, escapes_encode _⟩

/-- Reading what was written gives the tokens. -/
theorem decode_encode (tokens : List (List Char)) : decode (encode tokens) = tokens := by
  cases tokens with
  | nil => rfl
  | cons token tokens =>
    have hsplit : (encodeToken token ++ encode tokens).splitOn '/' =
        (token :: tokens).map encodeToken := by
      induction tokens generalizing token with
      | nil =>
        rw [encode_nil, List.append_nil, List.splitOn_eq_singleton (slash_notMem_encodeToken token)]
        rfl
      | cons next tokens ih =>
        rw [encode_cons, List.splitOn_append_cons_self_of_not_mem (slash_notMem_encodeToken token),
          ih, List.map_cons (a := token)]
    rw [encode_cons, decode, hsplit, List.map_map]
    exact List.map_id'' (fun t => decodeToken_encodeToken t) _

theorem splitOn_append_of_notMem {piece : List Char} (h : '/' ∉ piece) (rest : List Char) :
    (piece ++ rest).splitOn '/' = (rest.splitOn '/').modifyHead (piece ++ ·) := by
  induction piece with
  | nil => exact (List.modifyHead_id ▸ rfl)
  | cons c piece ih =>
    rw [List.mem_cons, not_or] at h
    rw [List.cons_append, List.splitOn_cons_eq_if_modifyHead, ih h.2,
      if_neg (by simpa using Ne.symm h.1), List.modifyHead_modifyHead]
    rfl

/-- A piece without slashes that reads as some text, and that this text is written as, only adds to
the first token of a split. -/
theorem encode_split_append (piece plain : List Char) {rest : List Char} (hslash : '/' ∉ piece)
    (hdecode : ∀ token, decodeToken (piece ++ token) = plain ++ decodeToken token)
    (hencode : ∀ token, encodeToken (plain ++ token) = piece ++ encodeToken token)
    (h : encode ((rest.splitOn '/').map decodeToken) = '/' :: rest) :
    encode (((piece ++ rest).splitOn '/').map decodeToken) = '/' :: (piece ++ rest) := by
  rw [splitOn_append_of_notMem hslash]
  obtain ⟨head, tail, hsplit⟩ := List.exists_cons_of_ne_nil (List.splitOn_ne_nil '/' rest)
  rw [hsplit, List.map_cons, encode_cons, List.cons.injEq] at h
  rw [hsplit, List.modifyHead_cons, List.map_cons, encode_cons, hdecode, hencode, List.append_assoc,
    h.2]

/-- Writing the tokens that were read gives the text back. -/
theorem encode_split {rest : List Char} (h : escapes rest = true) :
    encode ((rest.splitOn '/').map decodeToken) = '/' :: rest := by
  -- A character that is no tilde is a token boundary or a piece of its own.
  have hplain : ∀ {c : Char} {rest : List Char}, c ≠ '~' →
      encode ((rest.splitOn '/').map decodeToken) = '/' :: rest →
      encode (((c :: rest).splitOn '/').map decodeToken) = '/' :: c :: rest := by
    intro c rest htilde h
    by_cases hslash : c = '/'
    · rw [List.splitOn_cons_eq_if_modifyHead, if_pos (by simpa using hslash), List.map_cons, encode_cons,
        decodeToken_nil, encodeToken_nil, List.nil_append, h, hslash]
    · apply encode_split_append [c] [c] _ _ _ h
      · simpa using Ne.symm hslash
      · exact fun token => decodeToken_cons htilde token
      · intro token
        rw [List.cons_append, List.nil_append, encodeToken_cons, if_neg htilde, if_neg hslash]
  fun_induction escapes rest with
  | case1 => rfl
  | case2 c => exact hplain (by simpa using h) rfl
  | case3 d rest ih =>
    rw [Bool.and_eq_true, decide_eq_true_eq] at h
    obtain ⟨rfl | rfl, hrest⟩ := h
    · exact encode_split_append ['~', '0'] ['~'] (by decide)
        decodeToken_tilde (fun token => encodeToken_cons '~' token) (ih hrest)
    · exact encode_split_append ['~', '1'] ['/'] (by decide)
        decodeToken_slash (fun token => encodeToken_cons '/' token) (ih hrest)
  | case4 c d rest hne ih => exact hplain hne (ih h)

theorem encode_decode {pointer : List Char} (h : Valid pointer) : encode (decode pointer) = pointer := by
  obtain rfl | ⟨hhead, hescapes⟩ := h
  · rfl
  · obtain ⟨rest, rfl⟩ := List.head?_eq_some_iff.mp hhead
    rw [escapes_cons_of_ne (by decide)] at hescapes
    exact encode_split hescapes

/-- The text is empty or starts with a slash. -/
def AtBoundary (text : List Char) : Prop := ∀ c ∈ text.head?, c = '/'

theorem atBoundary_encode (tokens : List (List Char)) : AtBoundary (encode tokens) := by
  cases tokens <;> simp [AtBoundary, encode_cons]

/-- An encoded token ends where the next one starts. -/
theorem encodeToken_append_inj {token other rest rest' : List Char}
    (h : encodeToken token ++ rest = encodeToken other ++ rest') (hrest : AtBoundary rest)
    (hrest' : AtBoundary rest') : encodeToken token = encodeToken other ∧ rest = rest' := by
  have hsplit : ∀ (token : List Char) {rest : List Char}, AtBoundary rest →
      (encodeToken token ++ rest).takeWhile (· ≠ '/') = encodeToken token := by
    intro token rest hrest
    have hall : ∀ c ∈ encodeToken token, decide (c ≠ '/') = true := by
      intro c hc
      rw [decide_eq_true_eq]
      rintro rfl
      exact slash_notMem_encodeToken token hc
    rw [List.takeWhile_append_of_pos hall]
    cases rest with
    | nil => simp
    | cons c rest => simp [hrest c (by simp)]
  have htoken : encodeToken token = encodeToken other := by
    rw [← hsplit token hrest, h, hsplit other hrest']
  rw [htoken] at h
  exact ⟨htoken, List.append_cancel_left h⟩

/-- A pointer is above another exactly if a slash follows its text there. -/
theorem encode_eq_append_iff {above tokens : List (List Char)} :
    (∃ rest, encode tokens = encode above ++ '/' :: rest) ↔ above <+: tokens ∧ above ≠ tokens := by
  constructor
  · rintro ⟨rest, h⟩
    induction above generalizing tokens with
    | nil =>
      have hne : [] ≠ tokens := by
        rintro rfl
        cases h
      exact And.intro List.nil_prefix hne
    | cons token above ih =>
      cases tokens with
      | nil => cases h
      | cons other tokens =>
        rw [encode_cons, encode_cons, List.cons_append, List.cons.injEq, List.append_assoc] at h
        have hboundary : AtBoundary (encode above ++ '/' :: rest) := by
          cases above <;> simp [AtBoundary, encode_cons]
        obtain ⟨htoken, hrest⟩ := encodeToken_append_inj h.2 (atBoundary_encode tokens) hboundary
        obtain rfl := encodeToken_injective htoken
        obtain ⟨habove, hne⟩ := ih hrest
        refine ⟨List.cons_prefix_cons.mpr ⟨rfl, habove⟩, fun heq => hne ?_⟩
        exact (List.cons.inj heq).2
  · rintro ⟨⟨more, rfl⟩, hne⟩
    cases more with
    | nil => exact absurd (List.append_nil above).symm hne
    | cons token more => exact ⟨encodeToken token ++ encode more, by rw [encode_append, encode_cons]⟩

/-! ## Array indices -/

theorem digitChar_of_isDigit {c : Char} (h : c.isDigit = true) :
    c.toNat - '0'.toNat < 10 ∧ Nat.digitChar (c.toNat - '0'.toNat) = c := by
  have hrange : 48 ≤ c.toNat ∧ c.toNat ≤ 57 := Char.isDigit_iff_toNat.mp h
  have hdigits : ∀ d < 10, Nat.digitChar d = Char.ofNat (48 + d) := by decide
  have hzero : '0'.toNat = 48 := rfl
  refine ⟨by omega, ?_⟩
  rw [hdigits _ (by omega), hzero, Nat.add_sub_cancel' hrange.1, Char.ofNat_toNat]

/-- Digits without a leading zero are the digits of their value. -/
theorem toDigits_ofDigitChars {digits : List Char} (hdigits : digits.all Char.isDigit = true)
    (hne : digits ≠ []) (hlead : digits.head? = some '0' → digits = ['0']) :
    Nat.toDigits 10 (Nat.ofDigitChars 10 digits 0) = digits := by
  induction digits using List.reverseRecOn with
  | nil => exact absurd rfl hne
  | append_singleton digits c ih =>
    rw [List.all_append, Bool.and_eq_true, List.all_cons, Bool.and_eq_true] at hdigits
    obtain ⟨hdigits, hc, -⟩ := hdigits
    obtain ⟨hlt, hchar⟩ := digitChar_of_isDigit hc
    have hvalue : Nat.ofDigitChars 10 (digits ++ [c]) 0 =
        10 * Nat.ofDigitChars 10 digits 0 + (c.toNat - '0'.toNat) := by
      simp [Nat.ofDigitChars_eq_foldl]
    rw [hvalue]
    by_cases hnil : digits = []
    · subst hnil
      change Nat.toDigits 10 (10 * 0 + _) = _
      rw [Nat.mul_zero, Nat.zero_add, Nat.toDigits_of_lt_base hlt, hchar, List.nil_append]
    · have hhead : digits.head? ≠ some '0' := by
        intro hzero
        have hall := hlead (by rw [List.head?_append_of_ne_nil _ hnil, hzero])
        rw [← List.nil_append ['0']] at hall
        exact hnil (List.append_inj_left' hall rfl)
      have ih := ih hdigits hnil fun hzero => absurd hzero hhead
      have hpos : Nat.ofDigitChars 10 digits 0 ≠ 0 := by
        intro hzero
        rw [hzero] at ih
        exact hhead (by rw [← ih]; rfl)
      rw [Nat.toDigits_of_base_le (by omega) (by omega)]
      have hquot : (10 * Nat.ofDigitChars 10 digits 0 + (c.toNat - '0'.toNat)) / 10 =
          Nat.ofDigitChars 10 digits 0 := by omega
      have hrem : (10 * Nat.ofDigitChars 10 digits 0 + (c.toNat - '0'.toNat)) % 10 =
          c.toNat - '0'.toNat := by omega
      rw [hquot, hrem, ih, hchar]

end JsonPointer
