import Mathlib.Algebra.GroupWithZero.Nat
import Mathlib.Algebra.Order.Group.Nat
import Mathlib.Data.List.DropRight

/-!
# Web addresses

How a lenient reader takes a text of ASCII characters without control characters, percent signs and
backslashes as an address. Blanks around the text are dropped, the scheme and the host are written
in lower case, slashes after the scheme may be missing, hosts that end in a number are read as
addresses of four bytes, and dot segments of the path are resolved. Only the scheme `https` is read
here; other schemes, addresses in brackets and the names of domains in other scripts are left open.
-/

namespace WebUrl

abbrev Text := List Char

structure Url where
  scheme : Text
  username : Text
  password : Option Text
  host : Option Text
  path : Text
  query : Option Text
  fragment : Option Text
deriving DecidableEq

class Environment where
  /-- An address of another scheme. -/
  otherScheme : Text → Text → Option Url
  /-- The normal form of an address in brackets. -/
  bracketed : Text → Option Text
  /-- The normal form of a domain with a label of another script. -/
  punycode : Text → Option Text

/-! ## The scheme -/

def lower (text : Text) : Text := text.map Char.toLower

def strip (text : Text) : Text := (text.dropWhile (· = ' ')).rdropWhile (· = ' ')

def schemeChar (c : Char) : Bool := c.isAlphanum || c = '+' || c = '-' || c = '.'

/-- The scheme in lower case, and what follows its colon. -/
def readScheme (text : Text) : Option (Text × Text) :=
  match text.takeWhile schemeChar, text.dropWhile schemeChar with
  | first :: rest, ':' :: after => if first.isAlpha then some (lower (first :: rest), after) else none
  | _, _ => none

/-! ## The host -/

def digitValue (c : Char) : Nat :=
  if c.isDigit then c.toNat - 48
  else if 'a' ≤ c && c ≤ 'f' then c.toNat - 87
  else if 'A' ≤ c && c ≤ 'F' then c.toNat - 55
  else 16

def readDigits (radix : Nat) (text : Text) : Option Nat :=
  if text.all fun c => digitValue c < radix then
    some (text.foldl (fun n c => n * radix + digitValue c) 0)
  else none

/-- A number of an address: hexadecimal after `0x`, octal after `0`, else decimal. -/
def readNumber : Text → Option Nat
  | [] => none
  | '0' :: 'x' :: rest => readDigits 16 rest
  | '0' :: 'X' :: rest => readDigits 16 rest
  | '0' :: rest => readDigits 8 rest
  | text => readDigits 10 text

/-- The parts of a host; a dot at the end counts for nothing. -/
def hostParts (host : Text) : List Text :=
  let parts := host.splitOn '.'
  if 1 < parts.length ∧ parts.getLast? = some [] then parts.dropLast else parts

def endsInNumber (host : Text) : Bool :=
  match (hostParts host).getLast? with
  | some last => last ≠ [] && (last.all Char.isDigit || (readNumber last).isSome)
  | none => false

def decimal (n : Nat) : Text := Nat.toDigits 10 n

/-- The four bytes of an address in decimal. -/
def writeIpv4 (address : Nat) : Text :=
  ['.'].intercalate ([address / 256 ^ 3, address / 256 ^ 2, address / 256, address].map
    fun n => decimal (n % 256))

/-- Up to four numbers, the last one filling all the bytes that are left. -/
def readIpv4 (host : Text) : Option Text := do
  let numbers ← (hostParts host).mapM readNumber
  let last ← numbers.getLast?
  if numbers.length ≤ 4 ∧ numbers.dropLast.all (· ≤ 255) ∧ last < 256 ^ (5 - numbers.length) then
    some (writeIpv4 (last + (numbers.dropLast.zipIdx.map fun n => n.1 * 256 ^ (3 - n.2)).sum))
  else none

/-- Whether a text is the decimal form of four bytes. -/
def isIpv4 (text : Text) : Bool :=
  match text.splitOn '.' with
  | [a, b, c, d] => [a, b, c, d].all fun part => (List.range 256).any fun n => part = decimal n
  | _ => false

section Host

variable [Environment]

def domainToAscii (domain : Text) : Option Text :=
  if (domain.splitOn '.').any fun label => lower (label.take 4) = ['x', 'n', '-', '-'] then
    Environment.punycode domain
  else some (lower domain)

def forbidden (c : Char) : Bool :=
  c.toNat ≤ 0x20 || c.toNat = 0x7f ||
    ['#', '/', ':', '<', '>', '?', '@', '[', '\\', ']', '^', '|', '%'].contains c

def readDomain (text : Text) : Option Text := do
  let domain ← domainToAscii text
  if domain = [] ∨ domain.any forbidden then none
  else if endsInNumber domain then readIpv4 domain
  else some domain

def readHost : Text → Option Text
  | '[' :: rest =>
    if rest.getLast? = some ']' then
      (Environment.bracketed rest.dropLast).map fun address => '[' :: address ++ [']']
    else none
  | text => readDomain text

end Host

/-- The host before a colon outside of brackets, and the port after it. -/
def splitPort (inside : Bool) : Text → Text × Option Text
  | [] => ([], none)
  | c :: rest =>
    if c = ':' ∧ inside = false then ([], some rest)
    else
      let (host, port) := splitPort (if c = '[' then true else if c = ']' then false else inside) rest
      (c :: host, port)

def validPort : Option Text → Bool
  | none => true
  | some digits => digits.all Char.isDigit && (readDigits 10 digits).any fun port => port ≤ 65535

/-! ## The path -/

/-- The characters that are written as percent signs and digits in a path, by the present standard.
The locked version of the parser differs in the caret, which it leaves as it is, so that a path
with a caret is its own written form there. -/
def escaped (c : Char) : Bool :=
  c.toNat ≤ 0x20 || 0x7f ≤ c.toNat || ['"', '#', '<', '>', '?', '^', '`', '\x7b', '\x7d'].contains c

def upperHex (n : Nat) : Char := if n < 10 then Char.ofNat (48 + n) else Char.ofNat (55 + n)

def encodeChar (c : Char) : Text :=
  if escaped c then ['%', upperHex (c.toNat / 16 % 16), upperHex (c.toNat % 16)] else [c]

/-- Segments are appended; one dot stands for the same directory and two dots for the one above. -/
def walkSegments : List Text → List Text → List Text
  | out, [] => out
  | out, [last] =>
    if last = ['.', '.'] then out.dropLast ++ [[]]
    else if last = ['.'] then out ++ [[]]
    else out ++ [last.flatMap encodeChar]
  | out, segment :: rest =>
    if segment = ['.', '.'] then walkSegments out.dropLast rest
    else if segment = ['.'] then walkSegments out rest
    else walkSegments (out ++ [segment.flatMap encodeChar]) rest

/-- The path of a text that is empty or starts with a slash. -/
def readPath (text : Text) : Text :=
  '/' :: ['/'].intercalate (walkSegments [] ((text.drop 1).splitOn '/'))

/-! ## Addresses -/

def authorityChar (c : Char) : Bool := c ≠ '/' && c ≠ '?' && c ≠ '#'

/-- What follows the first of some character, if there is one. -/
def after? (c : Char) (text : Text) : Option Text :=
  match text.dropWhile (· ≠ c) with
  | [] => none
  | _ :: rest => some rest

variable [Environment]

def readAuthority (text : Text) : Option Url := do
  let text := text.dropWhile (· = '/')
  let authority := text.takeWhile authorityChar
  let tail := text.dropWhile authorityChar
  let parts := authority.splitOn '@'
  let credentials := ['@'].intercalate parts.dropLast
  let (hostText, port) := splitPort false (parts.getLastD [])
  if hostText = [] ∨ validPort port = false then none
  let host ← readHost hostText
  let beforeFragment := tail.takeWhile (· ≠ '#')
  some
    { scheme := ['h', 't', 't', 'p', 's']
      username := credentials.takeWhile (· ≠ ':')
      password := (after? ':' credentials).filter (· ≠ [])
      host := some host
      path := readPath (beforeFragment.takeWhile (· ≠ '?'))
      query := after? '?' beforeFragment
      fragment := after? '#' tail }

def parse (input : Text) : Option Url := do
  let (scheme, rest) ← readScheme (strip input)
  if scheme = ['h', 't', 't', 'p', 's'] then readAuthority rest
  else (Environment.otherScheme scheme rest).map fun url => { url with scheme }

/-! ## Four bytes -/

omit [Environment] in
theorem isIpv4_writeIpv4 (address : Nat) : isIpv4 (writeIpv4 address) = true := by
  have hdots : ∀ n ∈ List.range 256, '.' ∉ decimal n := by decide +kernel
  have hbyte (n : Nat) : n % 256 ∈ List.range 256 := List.mem_range.mpr (Nat.mod_lt _ (by decide))
  have hsplit : (writeIpv4 address).splitOn '.' = [address / 256 ^ 3, address / 256 ^ 2,
      address / 256, address].map fun n => decimal (n % 256) := by
    apply List.splitOn_intercalate
    · intro part hpart
      obtain ⟨n, -, rfl⟩ := List.mem_map.mp hpart
      exact hdots _ (hbyte n)
    · simp
  rw [isIpv4, hsplit]
  simp only [List.map_cons, List.map_nil, List.all_cons, List.all_nil, Bool.and_true,
    Bool.and_eq_true, List.any_eq_true, decide_eq_true_eq]
  exact ⟨⟨_, hbyte _, rfl⟩, ⟨_, hbyte _, rfl⟩, ⟨_, hbyte _, rfl⟩, ⟨_, hbyte _, rfl⟩⟩

/-- A host that ends in a number is read as four bytes, or not at all. -/
theorem isIpv4_of_readDomain {text host : Text} (h : readDomain text = some host) :
    isIpv4 host = true ∨ domainToAscii text = some host ∧ endsInNumber host = false ∧
      host ≠ [] ∧ ∀ c ∈ host, forbidden c = false := by
  simp only [readDomain, Option.bind_eq_bind, Option.bind_eq_some_iff] at h
  obtain ⟨domain, hdomain, h⟩ := h
  split at h
  · cases h
  next hgood =>
    rw [not_or, List.any_eq_true] at hgood
    split at h
    next hnumber =>
      left
      simp only [readIpv4, Option.bind_eq_bind, Option.bind_eq_some_iff] at h
      obtain ⟨numbers, -, last, -, h⟩ := h
      split at h
      · cases h
        exact isIpv4_writeIpv4 _
      · cases h
    next hnumber =>
      cases h
      refine .inr ⟨hdomain, by simpa using hnumber, hgood.1, fun c hc => ?_⟩
      by_contra hforbidden
      exact hgood.2 ⟨c, hc, by simpa using hforbidden⟩

/-! ## Paths -/

omit [Environment] in
theorem encodeChar_chars {c d : Char} (h : d ∈ encodeChar c) : d = '%' ∨ escaped d = false := by
  unfold encodeChar at h
  split at h
  next =>
    have hhex : ∀ n ∈ List.range 16, escaped (upperHex n) = false := by decide +kernel
    have hdigit (n : Nat) : escaped (upperHex (n % 16)) = false :=
      hhex _ (List.mem_range.mpr (Nat.mod_lt _ (by decide)))
    simp only [List.mem_cons, List.not_mem_nil, or_false] at h
    rcases h with rfl | rfl | rfl
    · exact .inl rfl
    · exact .inr (hdigit _)
    · exact .inr (hdigit _)
  next hplain =>
    rw [List.mem_singleton.mp h]
    exact .inr (by simpa using hplain)

omit [Environment] in
/-- What is written for segments has no character that would have to be escaped. -/
theorem walkSegments_chars {out segments : List Text}
    (hout : ∀ text ∈ out, ∀ d ∈ text, d = '%' ∨ escaped d = false) :
    ∀ text ∈ walkSegments out segments, ∀ d ∈ text, d = '%' ∨ escaped d = false := by
  have hencoded (segment : Text) : ∀ d ∈ segment.flatMap encodeChar, d = '%' ∨ escaped d = false := by
    intro d hd
    obtain ⟨c, -, hd⟩ := List.mem_flatMap.mp hd
    exact encodeChar_chars hd
  have hdrop {out : List Text} (hout : ∀ text ∈ out, ∀ d ∈ text, d = '%' ∨ escaped d = false) :
      ∀ text ∈ out.dropLast, ∀ d ∈ text, d = '%' ∨ escaped d = false :=
    fun text htext => hout text (List.dropLast_subset out htext)
  have happend {out : List Text} {new : Text}
      (hout : ∀ text ∈ out, ∀ d ∈ text, d = '%' ∨ escaped d = false)
      (hnew : ∀ d ∈ new, d = '%' ∨ escaped d = false) :
      ∀ text ∈ out ++ [new], ∀ d ∈ text, d = '%' ∨ escaped d = false := by
    rw [List.forall_mem_append, List.forall_mem_singleton]
    exact ⟨hout, hnew⟩
  fun_induction walkSegments out segments with
  | case1 out => exact hout
  | case2 out => exact happend (hdrop hout) nofun
  | case3 out => exact happend hout nofun
  | case4 out last => exact happend hout (hencoded last)
  | case5 out rest hrest ih => exact ih (hdrop hout)
  | case6 out rest hrest hdots ih => exact ih hout
  | case7 out segment rest hrest hdots hdot ih => exact ih (happend hout (hencoded segment))

omit [Environment] in
theorem mem_intercalate {sep c : Char} {parts : List Text} (h : c ∈ [sep].intercalate parts) :
    c = sep ∨ ∃ part ∈ parts, c ∈ part := by
  induction parts with
  | nil => cases h
  | cons part rest ih =>
    by_cases hrest : rest = []
    · subst hrest
      rw [List.intercalate_singleton] at h
      exact .inr ⟨part, List.mem_cons_self, h⟩
    · rw [List.intercalate_cons_of_ne_nil hrest, List.mem_append, List.mem_append,
        List.mem_singleton] at h
      rcases h with (hpart | rfl) | h
      · exact .inr ⟨part, List.mem_cons_self, hpart⟩
      · exact .inl rfl
      · rcases ih h with rfl | ⟨part', hmem, hc⟩
        · exact .inl rfl
        · exact .inr ⟨part', List.mem_cons_of_mem _ hmem, hc⟩

omit [Environment] in
/-- The parts of a text hold its characters but the separators. -/
theorem mem_of_mem_splitOn {sep c : Char} {text part : Text} (hpart : part ∈ text.splitOn sep)
    (hc : c ∈ part) : c ∈ text := by
  have hjoined {parts : List Text} (hpart : part ∈ parts) : c ∈ [sep].intercalate parts := by
    induction parts with
    | nil => cases hpart
    | cons first rest ih =>
      by_cases hrest : rest = []
      · subst hrest
        rw [List.intercalate_singleton, ← List.mem_singleton.mp hpart]
        exact hc
      · rw [List.intercalate_cons_of_ne_nil hrest, List.mem_append, List.mem_append]
        rcases List.mem_cons.mp hpart with rfl | hpart
        · exact .inl (.inl hc)
        · exact .inr (ih hpart)
  have hmem := hjoined hpart
  rwa [List.intercalate_splitOn] at hmem

omit [Environment] in
theorem mem_splitOn_of_mem {sep c : Char} {text : Text} (hc : c ∈ text) :
    c = sep ∨ ∃ part ∈ text.splitOn sep, c ∈ part := by
  apply mem_intercalate
  rwa [List.intercalate_splitOn]

omit [Environment] in
theorem readPath_chars {text : Text} : ∀ c ∈ readPath text, c = '%' ∨ escaped c = false := by
  intro c hc
  rcases List.mem_cons.mp hc with rfl | hc
  · exact .inr (by decide)
  · rcases mem_intercalate hc with rfl | ⟨part, hpart, hc⟩
    · exact .inr (by decide)
    · exact walkSegments_chars (by simp) part hpart c hc

omit [Environment] in
theorem walkSegments_plain {out segments : List Text}
    (hplain : ∀ segment ∈ segments, segment ≠ ['.', '.'] ∧ segment ≠ ['.'] ∧
      ∀ c ∈ segment, escaped c = false) : walkSegments out segments = out ++ segments := by
  have hencode {segment : Text} (h : ∀ c ∈ segment, escaped c = false) :
      segment.flatMap encodeChar = segment := by
    induction segment with
    | nil => rfl
    | cons c rest ih =>
      rw [List.forall_mem_cons] at h
      rw [List.flatMap_cons, ih h.2, encodeChar, if_neg (by simp [h.1])]
      rfl
  fun_induction walkSegments out segments with
  | case1 out => rw [List.append_nil]
  | case2 out => exact absurd rfl (hplain _ List.mem_cons_self).1
  | case3 out => exact absurd rfl (hplain _ List.mem_cons_self).2.1
  | case4 out last => rw [hencode (hplain _ List.mem_cons_self).2.2]
  | case5 out rest hrest ih => exact absurd rfl (hplain _ List.mem_cons_self).1
  | case6 out rest hrest hdots ih => exact absurd rfl (hplain _ List.mem_cons_self).2.1
  | case7 out segment rest hrest hdots hdot ih =>
    rw [List.forall_mem_cons] at hplain
    rw [ih hplain.2, hencode hplain.1.2.2, List.append_assoc]
    rfl

omit [Environment] in
/-- A path without dot segments in which nothing has to be escaped is read as it is. -/
theorem readPath_eq {text : Text} (hslash : text.head? = some '/')
    (hplain : ∀ c ∈ text, escaped c = false)
    (hdots : ∀ segment ∈ text.splitOn '/', segment ≠ ['.'] ∧ segment ≠ ['.', '.']) :
    readPath text = text := by
  obtain ⟨rest, rfl⟩ := List.head?_eq_some_iff.mp hslash
  have hsplit : ('/' :: rest).splitOn '/' = [] :: rest.splitOn '/' := by
    rw [List.splitOn_cons_eq_if_modifyHead, if_pos (by decide)]
  rw [hsplit, List.forall_mem_cons] at hdots
  rw [readPath, List.drop_one, List.tail_cons, walkSegments_plain, List.nil_append,
    List.intercalate_splitOn]
  intro segment hsegment
  refine ⟨(hdots.2 segment hsegment).2, (hdots.2 segment hsegment).1, fun c hc => ?_⟩
  exact hplain c (List.mem_cons_of_mem _ (mem_of_mem_splitOn hsegment hc))

/-! ## Whole addresses -/

/-- The characters of a domain name. -/
def domainChar (c : Char) : Bool := c.isLower || c.isDigit || c = '-' || c = '.'

omit [Environment] in
theorem isUpper_iff {c : Char} : c.isUpper = true ↔ 65 ≤ c.toNat ∧ c.toNat ≤ 90 := by
  change decide (c.val ≥ 'A'.val ∧ c.val ≤ 'Z'.val) = true ↔ _
  rw [decide_eq_true_eq]
  exact Iff.rfl

omit [Environment] in
theorem isLower_iff {c : Char} : c.isLower = true ↔ 97 ≤ c.toNat ∧ c.toNat ≤ 122 := by
  change (decide (c.val ≥ 'a'.val) && decide (c.val ≤ 'z'.val)) = true ↔ _
  rw [Bool.and_eq_true, decide_eq_true_eq, decide_eq_true_eq]
  exact Iff.rfl

omit [Environment] in
theorem isAlpha_iff {c : Char} : c.isAlpha = true ↔ c.isUpper = true ∨ c.isLower = true :=
  Bool.or_eq_true_iff

omit [Environment] in
theorem toLower_eq_self {c : Char} (h : ¬ c.isUpper = true) : c.toLower = c :=
  dif_neg fun hrange => h (decide_eq_true hrange)

omit [Environment] in
theorem domain_facts {c : Char} (h : domainChar c = true) :
    ¬ c.isUpper = true ∧ forbidden c = false ∧ 0x20 < c.toNat ∧ c.toNat < 0x7f ∧ c ≠ '\\' := by
  have hlt : c.toNat < 128 := by
    simp only [domainChar, Bool.or_eq_true, isLower_iff, Char.isDigit_iff_toNat, decide_eq_true_eq] at h
    rcases h with ((hlower | hdigit) | rfl) | rfl
    · omega
    · exact lt_of_le_of_lt hdigit.2 (by decide)
    · decide
    · decide
  have hall : ∀ n ∈ List.range 128, domainChar (Char.ofNat n) = true →
      ¬ (Char.ofNat n).isUpper = true ∧ forbidden (Char.ofNat n) = false ∧
        0x20 < (Char.ofNat n).toNat ∧ (Char.ofNat n).toNat < 0x7f ∧ Char.ofNat n ≠ '\\' := by
    decide +kernel
  have hc := hall c.toNat (List.mem_range.mpr hlt)
  rw [Char.ofNat_toNat] at hc
  exact hc h

omit [Environment] in
theorem not_mem_of_domain {host : Text} (h : ∀ c ∈ host, domainChar c = true) {c : Char}
    (hc : domainChar c = false) : c ∉ host := by
  intro hmem
  rw [h c hmem] at hc
  cases hc

omit [Environment] in
/-- Names of domains are in lower case. -/
theorem lower_domain {host : Text} (h : ∀ c ∈ host, domainChar c = true) : lower host = host := by
  have hsame : host.map Char.toLower = host.map id := by
    apply List.map_congr_left
    intro c hc
    exact toLower_eq_self (domain_facts (h c hc)).1
  rw [lower, hsame, List.map_id]

theorem readHost_of_domain {host : Text} (h : ∀ c ∈ host, domainChar c = true) :
    readHost host = readDomain host := by
  rw [readHost]
  rintro rest rfl
  exact not_mem_of_domain h (by decide : domainChar '[' = false) List.mem_cons_self

omit [Environment] in
theorem splitPort_domain {host port : Text} (h : ∀ c ∈ host, domainChar c = true) :
    splitPort false (host ++ ':' :: port) = (host, some port) := by
  induction host with
  | nil => rfl
  | cons c rest ih =>
    rw [List.forall_mem_cons] at h
    have hc : c ≠ ':' ∧ c ≠ '[' ∧ c ≠ ']' := by
      refine ⟨?_, ?_, ?_⟩ <;>
      · rintro rfl
        exact absurd h.1 (by decide)
    simp only [List.cons_append, splitPort, hc.1, hc.2.1, hc.2.2, false_and, if_false, ih h.2]

omit [Environment] in
/-- The decimal digits of a number are read back. -/
theorem decimal_digits (n : Nat) :
    (∀ c ∈ decimal n, c.isDigit = true ∧ digitValue c < 10) ∧
      (decimal n).foldl (fun n c => n * 10 + digitValue c) 0 = n := by
  have hdigit : ∀ d ∈ List.range 10, (Nat.digitChar d).isDigit = true ∧
      digitValue (Nat.digitChar d) = d := by decide
  induction n using Nat.strongRecOn with
  | ind n ih =>
    unfold decimal
    by_cases hn : n < 10
    · obtain ⟨hisDigit, hvalue⟩ := hdigit n (List.mem_range.mpr hn)
      rw [Nat.toDigits_of_lt_base hn, List.forall_mem_singleton, hvalue]
      exact ⟨⟨hisDigit, hn⟩, by simp [hvalue]⟩
    · obtain ⟨hfront, hvalues⟩ := ih (n / 10) (by omega)
      obtain ⟨hisDigit, hvalue⟩ := hdigit (n % 10) (List.mem_range.mpr (by omega))
      rw [Nat.toDigits_of_base_le (by omega) (by omega), List.forall_mem_append,
        List.forall_mem_singleton, List.foldl_append, List.foldl_cons, List.foldl_nil, hvalue]
      unfold decimal at hfront hvalues
      rw [hvalues]
      exact ⟨⟨hfront, hisDigit, by omega⟩, by omega⟩

omit [Environment] in
theorem readDigits_decimal (n : Nat) : readDigits 10 (decimal n) = some n := by
  obtain ⟨hdigits, hvalue⟩ := decimal_digits n
  rw [readDigits, if_pos, hvalue]
  rw [List.all_eq_true]
  exact fun c hc => by simpa using (hdigits c hc).2

omit [Environment] in
theorem validPort_decimal {port : Nat} (h : port ≤ 65535) : validPort (some (decimal port)) = true := by
  rw [validPort, readDigits_decimal, Bool.and_eq_true, List.all_eq_true]
  exact ⟨fun c hc => ((decimal_digits port).1 c hc).1, by simpa using h⟩

omit [Environment] in
theorem after?_eq_none {c : Char} {text : Text} (h : c ∉ text) : after? c text = none := by
  have hall : text.dropWhile (· ≠ c) = [] := by
    rw [List.dropWhile_eq_nil_iff]
    intro d hd
    rw [decide_eq_true_eq]
    rintro rfl
    exact h hd
  rw [after?, hall]

omit [Environment] in
theorem takeWhile_ne {c : Char} {text : Text} (h : c ∉ text) : text.takeWhile (· ≠ c) = text := by
  rw [List.takeWhile_eq_self_iff]
  intro d hd
  rw [decide_eq_true_eq]
  rintro rfl
  exact h hd

omit [Environment] in
theorem strip_eq {text : Text} (hhead : text.head? ≠ some ' ') (hlast : text.getLast? ≠ some ' ') :
    strip text = text := by
  have hdrop : text.dropWhile (· = ' ') = text := by
    cases text with
    | nil => rfl
    | cons c rest =>
      apply List.dropWhile_cons_of_neg
      simpa using hhead
  rw [strip, hdrop, List.rdropWhile_eq_self_iff]
  intro hne hblank
  rw [decide_eq_true_eq] at hblank
  rw [List.getLast?_eq_some_getLast hne, hblank] at hlast
  exact hlast rfl

/-- An address in its normal form is read part by part. -/
theorem parse_normal {host path : Text} {port : Nat} (hhost : host ≠ [])
    (hdomain : ∀ c ∈ host, domainChar c = true) (hport : port ≤ 65535)
    (hslash : path.head? = some '/') (hplain : ∀ c ∈ path, escaped c = false) :
    parse (['h', 't', 't', 'p', 's', ':', '/', '/'] ++ host ++ ':' :: decimal port ++ path) =
      (readHost host).map fun host =>
        { scheme := ['h', 't', 't', 'p', 's'], username := [], password := none
          host := some host, path := readPath path, query := none, fragment := none } := by
  obtain ⟨rest, rfl⟩ := List.head?_eq_some_iff.mp hslash
  have hunescaped {c : Char} (hc : escaped c = true) : c ∉ '/' :: rest := by
    intro hmem
    rw [hplain c hmem] at hc
    cases hc
  have hstrip : strip (['h', 't', 't', 'p', 's', ':', '/', '/'] ++ host ++ ':' :: decimal port ++
      '/' :: rest) = ['h', 't', 't', 'p', 's', ':', '/', '/'] ++ host ++ ':' :: decimal port ++
      '/' :: rest := by
    apply strip_eq
    · simp
    · rw [List.getLast?_append_of_ne_nil _ (List.cons_ne_nil _ _)]
      intro hlast
      exact hunescaped (by decide) (List.mem_of_getLast? hlast)
  have hkind : ∀ c ∈ host ++ ':' :: decimal port, domainChar c = true ∨ c = ':' := by
    intro c hc
    rcases List.mem_append.mp hc with hc | hc
    · exact .inl (hdomain c hc)
    · rcases List.mem_cons.mp hc with rfl | hc
      · exact .inr rfl
      · have hdigit := ((decimal_digits port).1 c hc).1
        exact .inl (by simp [domainChar, hdigit])
  have hauthority : ∀ c ∈ host ++ ':' :: decimal port, authorityChar c = true := by
    intro c hc
    have hc := hkind c hc
    simp only [authorityChar, Bool.and_eq_true, decide_eq_true_eq, ne_eq]
    refine ⟨⟨?_, ?_⟩, ?_⟩ <;>
    · rintro rfl
      revert hc
      decide
  have hat : '@' ∉ host ++ ':' :: decimal port := fun hmem => absurd (hkind '@' hmem) (by decide)
  have hscheme : readScheme (['h', 't', 't', 'p', 's', ':', '/', '/'] ++ host ++
      ':' :: decimal port ++ '/' :: rest) =
      some (['h', 't', 't', 'p', 's'], '/' :: '/' :: (host ++ ':' :: decimal port) ++ '/' :: rest) := by
    rw [List.append_assoc _ host]
    rfl
  have hslashes : ('/' :: '/' :: (host ++ ':' :: decimal port) ++ '/' :: rest).dropWhile (· = '/') =
      host ++ ':' :: decimal port ++ '/' :: rest := by
    obtain ⟨c, front, rfl⟩ := List.exists_cons_of_ne_nil hhost
    have hc : c ≠ '/' := by
      rintro rfl
      exact not_mem_of_domain hdomain (by decide) List.mem_cons_self
    simp [hc]
  have hread : (host ++ ':' :: decimal port ++ '/' :: rest).takeWhile authorityChar =
      host ++ ':' :: decimal port ∧
      (host ++ ':' :: decimal port ++ '/' :: rest).dropWhile authorityChar = '/' :: rest := by
    rw [List.takeWhile_append_of_pos hauthority, List.dropWhile_append_of_pos hauthority,
      List.takeWhile_cons_of_neg (by decide), List.dropWhile_cons_of_neg (by decide),
      List.append_nil]
    exact ⟨rfl, rfl⟩
  rw [parse, hstrip, hscheme, Option.bind_eq_bind, Option.bind_some]
  dsimp only
  rw [if_pos rfl, readAuthority]
  dsimp only
  rw [hslashes, hread.1, hread.2, List.splitOn_eq_singleton hat, List.getLastD_cons,
    List.getLastD_nil, splitPort_domain hdomain]
  dsimp only
  rw [if_neg (by simp [hhost, validPort_decimal hport]), takeWhile_ne (hunescaped (by decide)),
    takeWhile_ne (hunescaped (by decide)), after?_eq_none (hunescaped (by decide)),
    after?_eq_none (hunescaped (by decide))]
  cases readHost host with
  | none => rfl
  | some host => rfl

theorem readAuthority_path {text : Text} {url : Url} (h : readAuthority text = some url) :
    ∃ tail, url.path = readPath tail := by
  simp only [readAuthority, Option.bind_eq_bind] at h
  split at h
  · cases h
  · obtain ⟨host, -, h⟩ := Option.bind_eq_some_iff.mp h
    cases h
    exact ⟨_, rfl⟩

/-- Whatever stands in a path did not have to be escaped, or has been. -/
theorem parse_path_chars {input : Text} {url : Url} (h : parse input = some url)
    (hscheme : url.scheme = ['h', 't', 't', 'p', 's']) :
    ∀ c ∈ url.path, c = '%' ∨ escaped c = false := by
  simp only [parse, Option.bind_eq_bind, Option.bind_eq_some_iff] at h
  obtain ⟨⟨scheme, rest⟩, -, h⟩ := h
  dsimp only at h
  split at h
  next =>
    obtain ⟨tail, hpath⟩ := readAuthority_path h
    rw [hpath]
    exact readPath_chars
  next hhttps =>
    obtain ⟨other, -, rfl⟩ := Option.map_eq_some_iff.mp h
    exact absurd hscheme hhttps

/-! ## Missing slashes -/

omit [Environment] in
theorem readScheme_eq_some {text scheme rest : Text} (h : readScheme text = some (scheme, rest)) :
    ∃ raw, text = raw ++ ':' :: rest ∧ lower raw = scheme := by
  unfold readScheme at h
  split at h
  next first raw after htake hdrop =>
    split at h
    · cases h
      refine ⟨first :: raw, ?_, rfl⟩
      rw [← htake, ← hdrop, List.takeWhile_append_dropWhile]
    · cases h
  next => cases h

omit [Environment] in
theorem strip_sublist (text : Text) : (strip text).Sublist text :=
  (List.rdropWhile_prefix _ _).sublist.trans (List.dropWhile_sublist _)

/-- A single character after the colon is the host. -/
theorem readAuthority_char {c : Char} (h : c ∉ ['/', '?', '#', '@', ':']) :
    readAuthority [c] = (readHost [c]).map fun host =>
      { scheme := ['h', 't', 't', 'p', 's'], username := [], password := none
        host := some host, path := ['/'], query := none, fragment := none } := by
  simp only [List.mem_cons, List.not_mem_nil, or_false, not_or] at h
  obtain ⟨hslash, hquery, hfragment, hat, hcolon⟩ := h
  have hauthority : authorityChar c = true := by
    simp [authorityChar, hslash, hquery, hfragment]
  have hport : splitPort false [c] = ([c], none) := by
    simp only [splitPort, hcolon, false_and, if_false]
  rw [readAuthority]
  dsimp only
  rw [List.dropWhile_cons_of_neg (by simpa using hslash), List.takeWhile_cons_of_pos hauthority,
    List.dropWhile_cons_of_pos hauthority, List.takeWhile_nil, List.dropWhile_nil,
    List.splitOn_eq_singleton (by simpa using Ne.symm hat), List.getLastD_cons, List.getLastD_nil,
    hport]
  cases readHost [c] with
  | none => rfl
  | some host => rfl

theorem readAuthority_singleton {c : Char} {url : Url} (h : readAuthority [c] = some url) :
    ∃ host, readHost [c] = some host ∧ url.host = some host := by
  by_cases hspecial : c ∈ ['/', '?', '#', '@', ':']
  · simp only [List.mem_cons, List.not_mem_nil, or_false] at hspecial
    rcases hspecial with rfl | rfl | rfl | rfl | rfl <;> cases h
  · rw [readAuthority_char hspecial, Option.map_eq_some_iff] at h
    obtain ⟨host, hhost, rfl⟩ := h
    exact ⟨host, hhost, rfl⟩

omit [Environment] in
theorem isAlpha_of_toLower {c : Char} (h : c.toLower.isLower = true) : c.isAlpha = true := by
  rw [isAlpha_iff]
  by_cases hupper : c.isUpper = true
  · exact .inl hupper
  · rw [toLower_eq_self hupper] at h
    exact .inr h

omit [Environment] in
theorem letter_facts {c : Char} (h : c.isAlpha = true) :
    c ∉ ['/', '?', '#', '@', ':', '[', ' ', '.', '%', '\\'] ∧ c.toLower.isLower = true ∧
      forbidden c.toLower = false ∧ endsInNumber [c.toLower] = false ∧ 0x20 < c.toNat ∧
      c.toNat < 0x7f := by
  have hlt : c.toNat < 128 := by
    rw [isAlpha_iff, isUpper_iff, isLower_iff] at h
    omega
  have hall : ∀ n ∈ List.range 128, (Char.ofNat n).isAlpha = true →
      Char.ofNat n ∉ ['/', '?', '#', '@', ':', '[', ' ', '.', '%', '\\'] ∧
        (Char.ofNat n).toLower.isLower = true ∧ forbidden (Char.ofNat n).toLower = false ∧
        endsInNumber [(Char.ofNat n).toLower] = false ∧ 0x20 < (Char.ofNat n).toNat ∧
        (Char.ofNat n).toNat < 0x7f := by decide +kernel
  have hc := hall c.toNat (List.mem_range.mpr hlt)
  rw [Char.ofNat_toNat] at hc
  exact hc h

omit [Environment] in
theorem isAlpha_of_https {raw : Text} (h : lower raw = ['h', 't', 't', 'p', 's']) :
    ∀ c ∈ raw, c.isAlpha = true := by
  intro c hc
  apply isAlpha_of_toLower
  have hmem : c.toLower ∈ lower raw := List.mem_map_of_mem hc
  rw [h] at hmem
  have hall : ['h', 't', 't', 'p', 's'].all Char.isLower = true := by decide
  exact List.all_eq_true.mp hall _ hmem

/-- A character alone has no label of another script. -/
theorem domainToAscii_char (c : Char) : domainToAscii [c] = some [c.toLower] := by
  have hlabels : ∀ label ∈ [c].splitOn '.', label.length ≤ 1 := by
    rw [List.splitOn_cons_eq_if_modifyHead, List.splitOn_nil]
    split <;> simp
  rw [domainToAscii, if_neg]
  · rfl
  · rw [List.any_eq_true]
    rintro ⟨label, hlabel, hpuny⟩
    have hlength := congrArg List.length (decide_eq_true_eq.mp hpuny)
    have hshort := hlabels label hlabel
    simp only [lower, List.length_map, List.length_take, List.length_cons, List.length_nil] at hlength
    omega

/-- A letter after the colon is a host in lower case. -/
theorem parse_letter {raw : Text} {c : Char} (hraw : lower raw = ['h', 't', 't', 'p', 's'])
    (hc : c.isAlpha = true) :
    parse (raw ++ [':', c]) = some
      { scheme := ['h', 't', 't', 'p', 's'], username := [], password := none
        host := some [c.toLower], path := ['/'], query := none, fragment := none } := by
  obtain ⟨hspecial, hlower, hforbidden, hnumber, -⟩ := letter_facts hc
  simp only [List.mem_cons, List.not_mem_nil, or_false, not_or] at hspecial
  have hletters := isAlpha_of_https hraw
  obtain ⟨first, rest, rfl⟩ : ∃ first rest, raw = first :: rest := by
    cases raw with
    | nil => cases hraw
    | cons first rest => exact ⟨first, rest, rfl⟩
  have hfirst := hletters first List.mem_cons_self
  have hstrip : strip (first :: rest ++ [':', c]) = first :: rest ++ [':', c] := by
    apply strip_eq
    · rw [List.cons_append, List.head?_cons]
      rintro heq
      cases heq
      cases hfirst
    · rw [List.getLast?_append_of_ne_nil _ (List.cons_ne_nil _ _)]
      simpa using hspecial.2.2.2.2.2.2.1
  have hscheme : readScheme (first :: rest ++ [':', c]) = some (['h', 't', 't', 'p', 's'], [c]) := by
    have hchars : ∀ d ∈ first :: rest, schemeChar d = true := by
      intro d hd
      have halphanum : d.isAlphanum = true := Bool.or_eq_true_iff.mpr (.inl (hletters d hd))
      simp [schemeChar, halphanum]
    rw [readScheme, List.takeWhile_append_of_pos hchars, List.dropWhile_append_of_pos hchars,
      List.takeWhile_cons_of_neg (by decide), List.dropWhile_cons_of_neg (by decide),
      List.append_nil]
    simp only [hfirst, if_true, hraw]
  have hhost : readHost [c] = some [c.toLower] := by
    rw [readHost]
    · rw [readDomain, domainToAscii_char, Option.bind_eq_bind, Option.bind_some,
        if_neg (by simp [hforbidden]), if_neg (by simp [hnumber])]
    · rintro rest heq
      cases heq
      exact hspecial.2.2.2.2.2.1 rfl
  rw [parse, hstrip, hscheme, Option.bind_eq_bind, Option.bind_some]
  dsimp only
  rw [if_pos rfl, readAuthority_char (by simp [hspecial]), hhost, Option.map_some]

/-- A text too short for a scheme and two slashes is read as a scheme and a host of one
character. -/
theorem parse_short {input : Text} {url : Url} (hlength : input.length < 8)
    (h : parse input = some url) (hscheme : url.scheme = ['h', 't', 't', 'p', 's']) :
    ∃ raw c host, input = raw ++ [':', c] ∧ lower raw = ['h', 't', 't', 'p', 's'] ∧
      readHost [c] = some host ∧ url.host = some host := by
  simp only [parse, Option.bind_eq_bind, Option.bind_eq_some_iff] at h
  obtain ⟨⟨scheme, rest⟩, hread, h⟩ := h
  obtain ⟨raw, htext, hlower⟩ := readScheme_eq_some hread
  dsimp only at h
  split at h
  next hhttps =>
    rw [hhttps] at hlower
    have hraw : raw.length = 5 := by
      have hmap := congrArg List.length hlower
      rwa [lower, List.length_map] at hmap
    have hshort := (strip_sublist input).length_le
    rw [htext, List.length_append, List.length_cons, hraw] at hshort
    match rest, h, htext with
    | [], h, _ => cases h
    | [c], h, htext =>
      obtain ⟨host, hhost, hurl⟩ := readAuthority_singleton h
      have hinput : strip input = input := by
        apply (strip_sublist input).eq_of_length_le
        rw [htext, List.length_append, hraw]
        simpa using Nat.lt_succ_iff.mp hlength
      exact ⟨raw, c, host, hinput.symm.trans htext, hlower, hhost, hurl⟩
    | _ :: _ :: _, h, _ =>
      simp only [List.length_cons] at hshort
      omega
  next hhttps =>
    rw [Option.map_eq_some_iff] at h
    obtain ⟨other, -, rfl⟩ := h
    exact absurd hscheme hhttps

end WebUrl
