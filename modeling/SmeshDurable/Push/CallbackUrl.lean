import SmeshDurable.Library.WebUrl

/-!
# Callback addresses

An enrolled callback address has to be written in its canonical form already. The check reads the
text twice, once with the lenient reader of web addresses and once by cutting it at the place where
the canonical form has its host, and compares what it puts together with the text it was given.
-/

namespace SmeshDurable.Push

open WebUrl

/-! ## The check -/

def maxUrlBytes : Nat := 2048
def maxPathBytes : Nat := 1024

inductive PushSecurityError where
  | invalidPolicy
  | enrollmentDenied
  | invalidDestination
  | invalidSecret
  | unsafeDns
  | dnsUnavailable
  | transportUnavailable
deriving DecidableEq

/-- A call returns or ends in a panic. -/
inductive Outcome (α : Type) where
  | returned (result : Except PushSecurityError α)
  | panicked
deriving DecidableEq

structure CanonicalCallbackUrl where
  canonical : Text
  host : Text
  port : Nat
  path : Text
deriving DecidableEq

def invalidLabel (label : Text) : Bool :=
  label = [] || 63 < label.length || label.head? = some '-' || label.getLast? = some '-' ||
    !label.all fun c => c.isLower || c.isDigit || c = '-'

/-- A number of sixteen bits, with or without a plus sign. -/
def parseU16 (text : Text) : Option Nat :=
  let digits := match text with
    | '+' :: rest => rest
    | _ => text
  if digits = [] ∨ digits.all Char.isDigit = false then none
  else (readDigits 10 digits).filter (· ≤ 65535)

def invalidPath (path : Text) : Bool :=
  path = [] || maxPathBytes < path.length || path.head? ≠ some '/' || ['/', '/'].isPrefixOf path ||
    (path.splitOn '/').any fun segment => segment = ['.'] || segment = ['.', '.']

def httpsSlashes : Text := ['h', 't', 't', 'p', 's', ':', '/', '/']

def writeUrl (host : Text) (port : Nat) (path : Text) : Text :=
  httpsSlashes ++ host ++ ':' :: decimal port ++ path

/-- What follows the host and a colon. -/
def portText (host authority : Text) : Option Text :=
  if host.isPrefixOf authority then
    match authority.drop host.length with
    | ':' :: port => some port
    | _ => none
  else none

/-- What is cut out of the text itself, and the comparison with what was read. -/
def cutUrl (input host path : Text) : Option CanonicalCallbackUrl :=
  let rest := input.drop httpsSlashes.length
  let authority := rest.takeWhile (· ≠ '/')
  if authority.length = rest.length then none
  else do
    let port ← portText host authority
    let port ← (parseU16 port).filter (· ≠ 0)
    let canonical := writeUrl host port path
    if invalidPath path ∨ canonical ≠ input then none
    else some { canonical, host, port, path }

def invalidCharacter (c : Char) : Bool :=
  0x7f < c.toNat || c.toNat < 0x20 || c.toNat = 0x7f || c = '\\' || c = '%'

def invalidDestination : Outcome CanonicalCallbackUrl := .returned (.error .invalidDestination)

/-! ## The grammar -/

structure DnsLabel (label : Text) : Prop where
  nonempty : label ≠ []
  length : label.length ≤ 63
  head : label.head? ≠ some '-'
  last : label.getLast? ≠ some '-'
  chars : ∀ c ∈ label, c.isLower = true ∨ c.isDigit = true ∨ c = '-'

structure DnsHost (host : Text) : Prop where
  length : host.length ≤ 253
  notIp : isIpv4 host = false
  labels : ∀ label ∈ host.splitOn '.', DnsLabel label

structure PlainPath (path : Text) : Prop where
  slash : path.head? = some '/'
  chars : ∀ c ∈ path, escaped c = false ∧ c ≠ '\\' ∧ c ≠ '%'
  segments : ∀ segment ∈ path.splitOn '/', segment ≠ ['.'] ∧ segment ≠ ['.', '.']

/-- The text is an address of the canonical form with this host, port and path. -/
structure Grammar (text host : Text) (port : Nat) (path : Text) : Prop where
  text_eq : text = writeUrl host port path
  host : DnsHost host
  port_pos : 0 < port
  port_le : port ≤ 65535
  path : PlainPath path

/-- The scheme and a letter, without slashes. -/
def Cramped (text : Text) : Prop :=
  ∃ scheme letter, text = scheme ++ [':', letter] ∧ lower scheme = ['h', 't', 't', 'p', 's'] ∧
    letter.isAlpha = true

/-! ## Hosts -/

theorem DnsHost.chars {host : Text} (h : DnsHost host) : ∀ c ∈ host, domainChar c = true := by
  intro c hc
  simp only [domainChar, Bool.or_eq_true, decide_eq_true_eq]
  obtain heq | ⟨label, hlabel, hc⟩ : c = '.' ∨ ∃ label ∈ host.splitOn '.', c ∈ label :=
    mem_splitOn_of_mem hc
  · exact .inr heq
  · rcases (h.labels label hlabel).chars c hc with hlower | hdigit | rfl
    · exact .inl (.inl (.inl hlower))
    · exact .inl (.inl (.inr hdigit))
    · exact .inl (.inr rfl)

theorem DnsHost.ne_nil {host : Text} (h : DnsHost host) : host ≠ [] := by
  rintro rfl
  have hlabel := h.labels [] (by simp)
  exact hlabel.nonempty rfl

theorem invalidLabel_eq_false {label : Text} : invalidLabel label = false ↔ DnsLabel label := by
  simp only [invalidLabel, Bool.or_eq_false_iff, decide_eq_false_iff_not, Bool.not_eq_false',
    List.all_eq_true, Bool.or_eq_true, decide_eq_true_eq, not_lt, or_assoc]
  constructor
  · rintro ⟨⟨⟨⟨hnonempty, hlength⟩, hhead⟩, hlast⟩, hchars⟩
    exact ⟨hnonempty, hlength, hhead, hlast, hchars⟩
  · rintro ⟨hnonempty, hlength, hhead, hlast, hchars⟩
    exact ⟨⟨⟨⟨hnonempty, hlength⟩, hhead⟩, hlast⟩, hchars⟩

theorem dnsHost_char {c : Char} (h : c.isLower = true) : DnsHost [c] := by
  have hdot : c ≠ '.' := by
    rintro rfl
    cases h
  have hlabels : [c].splitOn '.' = [[c]] := List.splitOn_eq_singleton (by simpa using Ne.symm hdot)
  refine ⟨by simp, ?_, ?_⟩
  · rw [isIpv4, hlabels]
  · rw [hlabels, List.forall_mem_singleton]
    have hdash : c ≠ '-' := by
      rintro rfl
      cases h
    exact ⟨by simp, by simp, by simpa using hdash, by simpa using hdash, by simp [h]⟩

theorem invalidCharacter_eq_false {c : Char} (hlow : 0x20 < c.toNat) (hhigh : c.toNat < 0x7f)
    (hbackslash : c ≠ '\\') (hpercent : c ≠ '%') : invalidCharacter c = false := by
  simp only [invalidCharacter, Bool.or_eq_false_iff, decide_eq_false_iff_not]
  exact ⟨⟨⟨⟨by omega, by omega⟩, by omega⟩, hbackslash⟩, hpercent⟩

/-! ## Ports and paths -/

theorem parseU16_le {text : Text} {port : Nat} (h : parseU16 text = some port) : port ≤ 65535 := by
  unfold parseU16 at h
  dsimp only at h
  generalize (match text with | '+' :: rest => rest | _ => text) = digits at h
  split at h
  · cases h
  · simpa using (Option.filter_eq_some_iff.mp h).2

theorem parseU16_decimal {port : Nat} (h : port ≤ 65535) : parseU16 (decimal port) = some port := by
  have hdigits := (decimal_digits port).1
  have hsign : (match decimal port with | '+' :: rest => rest | _ => decimal port) = decimal port := by
    split
    next rest heq =>
      have hplus := (hdigits '+' (heq ▸ List.mem_cons_self)).1
      cases hplus
    next => rfl
  have hne : decimal port ≠ [] := Nat.toDigits_ne_nil
  unfold parseU16
  rw [hsign]
  dsimp only
  rw [if_neg, readDigits_decimal, Option.filter_some, if_pos (by simpa using h)]
  rw [not_or]
  refine ⟨hne, ?_⟩
  rw [Bool.not_eq_false, List.all_eq_true]
  exact fun c hc => (hdigits c hc).1

theorem invalidPath_eq_false {path : Text} :
    invalidPath path = false ↔ path.head? = some '/' ∧ path.length ≤ maxPathBytes ∧
      ['/', '/'].isPrefixOf path = false ∧
      ∀ segment ∈ path.splitOn '/', segment ≠ ['.'] ∧ segment ≠ ['.', '.'] := by
  simp only [invalidPath, Bool.or_eq_false_iff, decide_eq_false_iff_not, not_lt, ne_eq, not_not,
    List.any_eq_false, Bool.or_eq_true, decide_eq_true_eq, not_or]
  constructor
  · rintro ⟨⟨⟨⟨-, hlength⟩, hslash⟩, hsingle⟩, hsegments⟩
    exact ⟨hslash, hlength, hsingle, hsegments⟩
  · rintro ⟨hslash, hlength, hsingle, hsegments⟩
    refine ⟨⟨⟨⟨?_, hlength⟩, hslash⟩, hsingle⟩, hsegments⟩
    rintro rfl
    cases hslash

/-- What is cut out is compared with the whole text. -/
theorem cutUrl_eq_some {input host path : Text} {url : CanonicalCallbackUrl}
    (h : cutUrl input host path = some url) :
    url.canonical = input ∧ url.host = host ∧ url.path = path ∧ 0 < url.port ∧ url.port ≤ 65535 ∧
      invalidPath path = false ∧ input = writeUrl host url.port path := by
  unfold cutUrl at h
  dsimp only at h
  split at h
  · cases h
  · simp only [Option.bind_eq_bind, Option.bind_eq_some_iff] at h
    obtain ⟨digits, -, port, hport, h⟩ := h
    obtain ⟨hread, hpos⟩ := Option.filter_eq_some_iff.mp hport
    split at h
    · cases h
    next hgood =>
      cases h
      rw [not_or, not_not] at hgood
      refine ⟨hgood.2, rfl, rfl, ?_, parseU16_le hread, by simpa using hgood.1, hgood.2.symm⟩
      exact Nat.pos_of_ne_zero (by simpa using hpos)

theorem cutUrl_writeUrl {host path : Text} {port : Nat} (hhost : '/' ∉ host) (hpos : 0 < port)
    (hle : port ≤ 65535) (hpath : invalidPath path = false) :
    cutUrl (writeUrl host port path) host path =
      some { canonical := writeUrl host port path, host, port, path } := by
  obtain ⟨rest, rfl⟩ := List.head?_eq_some_iff.mp (invalidPath_eq_false.mp hpath).1
  have hdigits : '/' ∉ decimal port := fun hmem => by
    have hdigit := ((decimal_digits port).1 '/' hmem).1
    cases hdigit
  have hrest : (writeUrl host port ('/' :: rest)).drop httpsSlashes.length =
      (host ++ ':' :: decimal port) ++ '/' :: rest := by
    rw [writeUrl, List.append_assoc, List.append_assoc, List.drop_left, List.append_assoc]
  have hauthority : ((host ++ ':' :: decimal port) ++ '/' :: rest).takeWhile (· ≠ '/') =
      host ++ ':' :: decimal port := by
    rw [List.takeWhile_append_of_pos, List.takeWhile_cons_of_neg (by simp), List.append_nil]
    intro c hc
    rw [decide_eq_true_eq]
    rintro rfl
    simp [hhost, hdigits] at hc
  have hport : portText host (host ++ ':' :: decimal port) = some (decimal port) := by
    rw [portText, if_pos (by simp), List.drop_left]
    rfl
  have hnumber : (parseU16 (decimal port)).filter (· ≠ 0) = some port := by
    rw [parseU16_decimal hle, Option.filter_some, if_pos (by simpa using hpos.ne')]
  unfold cutUrl
  dsimp only
  rw [hrest, hauthority, if_neg (by simp), hport, Option.bind_eq_bind, Option.bind_some, hnumber,
    Option.bind_eq_bind, Option.bind_some, if_neg (by simp [hpath])]

/-- The reader of addresses of sixteen bytes in the standard library. -/
class AddressReader where
  isIpv6 : Text → Bool
  isIpv6_colon : ∀ text, isIpv6 text = true → ':' ∈ text

section Check

variable [AddressReader]

def isIpAddr (text : Text) : Bool := isIpv4 text || AddressReader.isIpv6 text

def invalidHost (host : Text) : Bool :=
  host = [] || 253 < host.length || host.getLast? = some '.' || host.contains '*' ||
    host ≠ lower host || isIpAddr host || (host.splitOn '.').any invalidLabel

/-- The check of the host is the grammar of the host: the other conditions follow. -/
theorem invalidHost_eq_false {host : Text} : invalidHost host = false ↔ DnsHost host := by
  simp only [invalidHost, isIpAddr, Bool.or_eq_false_iff, decide_eq_false_iff_not, not_lt,
    List.any_eq_false, ne_eq, not_not]
  constructor
  · rintro ⟨⟨⟨⟨⟨⟨-, hlength⟩, -⟩, -⟩, -⟩, hip⟩, hlabels⟩
    refine ⟨hlength, hip.1, fun label hlabel => ?_⟩
    exact invalidLabel_eq_false.mp (by simpa using hlabels label hlabel)
  · intro h
    have hchars := h.chars
    refine ⟨⟨⟨⟨⟨⟨h.ne_nil, h.length⟩, ?_⟩, ?_⟩, ?_⟩, h.notIp, ?_⟩, ?_⟩
    · -- a dot at the end would leave an empty label
      intro hdot
      obtain ⟨front, rfl⟩ := List.getLast?_eq_some_iff.mp hdot
      apply (h.labels [] _).nonempty rfl
      rw [List.splitOn_append_cons_self, List.splitOn_nil]
      simp
    · simpa using not_mem_of_domain hchars (c := '*') (by decide)
    · exact (lower_domain hchars).symm
    · by_contra hipv6
      have hcolon := AddressReader.isIpv6_colon host (by simpa using hipv6)
      exact not_mem_of_domain hchars (by decide) hcolon
    · intro label hlabel
      simpa using invalidLabel_eq_false.mpr (h.labels label hlabel)

/-! ## The whole check -/

variable [Environment]

def CanonicalCallbackUrl.parse (input : Text) : Outcome CanonicalCallbackUrl :=
  if input = [] ∨ maxUrlBytes < input.length ∨ input.any invalidCharacter then invalidDestination
  else
    match WebUrl.parse input with
    | none => invalidDestination
    | some parsed =>
      if parsed.scheme ≠ ['h', 't', 't', 'p', 's'] ∨ parsed.username ≠ [] ∨
          parsed.password.isSome ∨ parsed.query.isSome ∨ parsed.fragment.isSome then
        invalidDestination
      else
        match parsed.host with
        | none => invalidDestination
        | some host =>
          if invalidHost host then invalidDestination
          -- the text is cut after eight bytes, which a shorter text does not have
          else if input.length < httpsSlashes.length then .panicked
          else
            match cutUrl input host parsed.path with
            | none => invalidDestination
            | some url => .returned (.ok url)

/-- What is accepted are the addresses of the canonical form, with their parts, and everything
else is an invalid destination. -/
def Exact (text : Text) : Prop :=
  (∀ url, CanonicalCallbackUrl.parse text = .returned (.ok url) ↔
    Grammar text url.host url.port url.path ∧ url.canonical = text) ∧
  ((¬ ∃ host port path, Grammar text host port path) →
    CanonicalCallbackUrl.parse text = .returned (.error .invalidDestination))

/-- What the check asks of a host and a path beyond the grammar. -/
structure Within (text host path : Text) : Prop where
  length : text.length ≤ maxUrlBytes
  path_length : path.length ≤ maxPathBytes
  single : ['/', '/'].isPrefixOf path = false
  name : endsInNumber host = false
  ascii : domainToAscii host = some host

/-- The steps of the check, up to the cutting. -/
structure Read (input : Text) (host path : Text) : Prop where
  length : input.length ≤ maxUrlBytes
  chars : ∀ c ∈ input, invalidCharacter c = false
  parsed : ∃ parsed, WebUrl.parse input = some parsed ∧ parsed.scheme = ['h', 't', 't', 'p', 's'] ∧
    parsed.username = [] ∧ parsed.password = none ∧ parsed.query = none ∧ parsed.fragment = none ∧
    parsed.host = some host ∧ parsed.path = path
  host : DnsHost host

/-- What was read and passed is cut. -/
theorem Read.parse_eq {input host path : Text} (h : Read input host path) :
    CanonicalCallbackUrl.parse input =
      if input.length < httpsSlashes.length then .panicked
      else
        match cutUrl input host path with
        | none => invalidDestination
        | some url => .returned (.ok url) := by
  obtain ⟨parsed, hparsed, hscheme, husername, hpassword, hquery, hfragment, hhost, rfl⟩ := h.parsed
  have hne : input ≠ [] := by
    rintro rfl
    cases hparsed
  have hchars : ¬ input.any invalidCharacter = true := by
    rw [Bool.not_eq_true, List.any_eq_false]
    intro c hc
    simp [h.chars c hc]
  have hlength := h.length
  rw [CanonicalCallbackUrl.parse, if_neg (by simp [hne, hchars, hlength]), hparsed]
  dsimp only
  rw [if_neg (by simp [hscheme, husername, hpassword, hquery, hfragment]), hhost]
  dsimp only
  rw [if_neg (by simp [invalidHost_eq_false.mpr h.host])]

theorem parse_eq_or_read (input : Text) :
    CanonicalCallbackUrl.parse input = invalidDestination ∨ ∃ host path, Read input host path := by
  unfold CanonicalCallbackUrl.parse
  split
  · exact .inl rfl
  next hinput =>
    simp only [not_or, not_lt, List.any_eq_true, not_exists, not_and, Bool.not_eq_true] at hinput
    split
    · exact .inl rfl
    next parsed hparsed =>
      split
      · exact .inl rfl
      next hfields =>
        simp only [ne_eq, not_or, not_not, Bool.not_eq_true, Option.isSome_eq_false_iff,
          Option.isNone_iff_eq_none] at hfields
        obtain ⟨hscheme, husername, hpassword, hquery, hfragment⟩ := hfields
        split
        · exact .inl rfl
        next host hhost =>
          split
          · exact .inl rfl
          next hvalid =>
            rw [Bool.not_eq_true, invalidHost_eq_false] at hvalid
            exact .inr ⟨host, parsed.path, hinput.2.1, hinput.2.2, ⟨parsed, hparsed, hscheme,
              husername, hpassword, hquery, hfragment, hhost, rfl⟩, hvalid⟩

/-! ## Acceptance -/

omit [AddressReader] in
theorem Grammar.read {text host path : Text} {port : Nat} (h : Grammar text host port path)
    (hwithin : Within text host path) : Read text host path := by
  have hdomain := h.host.chars
  have hplain : ∀ c ∈ path, escaped c = false := fun c hc => (h.path.chars c hc).1
  have hhost : readHost host = some host := by
    rw [readHost_of_domain hdomain, readDomain, hwithin.ascii, Option.bind_eq_bind,
      Option.bind_some, if_neg, if_neg (by simp [hwithin.name])]
    rw [not_or, List.any_eq_true]
    refine ⟨h.host.ne_nil, ?_⟩
    rintro ⟨c, hc, hforbidden⟩
    rw [(domain_facts (hdomain c hc)).2.1] at hforbidden
    cases hforbidden
  have hparsed := parse_normal h.host.ne_nil hdomain h.port_le h.path.slash hplain
  rw [← httpsSlashes, ← writeUrl, ← h.text_eq, hhost, Option.map_some] at hparsed
  refine ⟨hwithin.length, ?_, ⟨_, hparsed, rfl, rfl, rfl, rfl, rfl, rfl, ?_⟩, h.host⟩
  · intro c hc
    have hdomainChar (hc : domainChar c = true) : invalidCharacter c = false := by
      obtain ⟨-, -, hlow, hhigh, hbackslash⟩ := domain_facts hc
      apply invalidCharacter_eq_false hlow hhigh hbackslash
      rintro rfl
      cases hc
    rw [h.text_eq, writeUrl] at hc
    rcases List.mem_append.mp hc with hc | hc
    · rcases List.mem_append.mp hc with hc | hc
      · rcases List.mem_append.mp hc with hc | hc
        · have hall : httpsSlashes.all (fun c => !invalidCharacter c) = true := by decide
          simpa using List.all_eq_true.mp hall c hc
        · exact hdomainChar (hdomain c hc)
      · rcases List.mem_cons.mp hc with rfl | hc
        · decide
        · have hdigit := ((decimal_digits port).1 c hc).1
          exact hdomainChar (by simp [domainChar, hdigit])
    · obtain ⟨hescaped, hbackslash, hpercent⟩ := h.path.chars c hc
      simp only [escaped, Bool.or_eq_false_iff, decide_eq_false_iff_not, not_le] at hescaped
      exact invalidCharacter_eq_false hescaped.1.1 hescaped.1.2 hbackslash hpercent
  · exact readPath_eq h.path.slash hplain h.path.segments

theorem parse_eq_ok {text : Text} {url : CanonicalCallbackUrl} :
    CanonicalCallbackUrl.parse text = .returned (.ok url) ↔
      Grammar text url.host url.port url.path ∧ url.canonical = text ∧
        Within text url.host url.path := by
  constructor
  · intro h
    rcases parse_eq_or_read text with hinvalid | ⟨host, path, hread⟩
    · rw [hinvalid] at h
      cases h
    rw [hread.parse_eq] at h
    split at h
    · cases h
    split at h
    · cases h
    next url' hcut =>
      cases h
      obtain ⟨hcanonical, rfl, rfl, hpos, hle, hpath, htext⟩ := cutUrl_eq_some hcut
      obtain ⟨parsed, hparsed, hscheme, -, -, -, -, hhost, hparsedPath⟩ := hread.parsed
      obtain ⟨hslash, hpathLength, hsingle, hsegments⟩ := invalidPath_eq_false.mp hpath
      -- the text holds no percent sign, so nothing in its path was escaped
      have hplain : PlainPath url.path := by
        refine ⟨hslash, fun c hc => ?_, hsegments⟩
        have hmem : c ∈ text := by
          rw [htext, writeUrl]
          exact List.mem_append_right _ hc
        have hcharacter := hread.chars c hmem
        simp only [invalidCharacter, Bool.or_eq_false_iff, decide_eq_false_iff_not] at hcharacter
        have hescaped := parse_path_chars hparsed hscheme c (hparsedPath ▸ hc)
        exact ⟨hescaped.resolve_left hcharacter.2, hcharacter.1.2, hcharacter.2⟩
      have hdomain := hread.host.chars
      have hnormal := parse_normal hread.host.ne_nil hdomain hle hslash
        fun c hc => (hplain.chars c hc).1
      rw [← httpsSlashes, ← writeUrl, ← htext, hparsed, readHost_of_domain hdomain, eq_comm,
        Option.map_eq_some_iff] at hnormal
      obtain ⟨host', hhost', rfl⟩ := hnormal
      cases hhost
      rcases isIpv4_of_readDomain hhost' with hip | ⟨hascii, hname, -, -⟩
      · rw [hread.host.notIp] at hip
        cases hip
      · exact ⟨⟨htext, hread.host, hpos, hle, hplain⟩, hcanonical,
          ⟨hread.length, hpathLength, hsingle, hname, hascii⟩⟩
  · rintro ⟨hgrammar, hcanonical, hwithin⟩
    have hread := hgrammar.read hwithin
    have hpath : invalidPath url.path = false := invalidPath_eq_false.mpr
      ⟨hgrammar.path.slash, hwithin.path_length, hwithin.single, hgrammar.path.segments⟩
    have hhost : '/' ∉ url.host := not_mem_of_domain hgrammar.host.chars (by decide)
    have hcut := cutUrl_writeUrl hhost hgrammar.port_pos hgrammar.port_le hpath
    rw [← hgrammar.text_eq] at hcut
    rw [hread.parse_eq, if_neg, hcut, ← hcanonical]
    rw [hgrammar.text_eq, writeUrl]
    simp only [List.length_append]
    omega

/-! ## Panics -/

omit [AddressReader] in
/-- Of the hosts of one character only letters pass: digits are read as addresses. -/
theorem isAlpha_of_readHost {c : Char} {host : Text} (h : readHost [c] = some host)
    (hhost : DnsHost host) : c.isAlpha = true := by
  by_cases hbracket : c = '['
  · subst hbracket
    cases h
  have hdomain : readDomain [c] = some host := by
    rw [readHost] at h
    · exact h
    · rintro rest heq
      cases heq
      exact hbracket rfl
  rcases isIpv4_of_readDomain hdomain with hip | ⟨hascii, hname, -, -⟩
  · rw [hhost.notIp] at hip
    cases hip
  rw [domainToAscii_char, Option.some.injEq] at hascii
  subst hascii
  by_cases hdot : c.toLower = '.'
  · rw [hdot] at hhost
    exact absurd rfl (hhost.labels [] (by decide)).nonempty
  have hlabels : [c.toLower].splitOn '.' = [[c.toLower]] :=
    List.splitOn_eq_singleton (by simpa using Ne.symm hdot)
  have hlabel := hhost.labels [c.toLower] (by simp [hlabels])
  rcases hlabel.chars c.toLower List.mem_cons_self with hlower | hdigit | hdash
  · exact isAlpha_of_toLower hlower
  · simp [endsInNumber, hostParts, hlabels, hdigit] at hname
  · exact absurd (by simp [hdash]) hlabel.head

/-- The cut leaves the text exactly if the slashes are missing before a host of one letter. -/
theorem parse_eq_panicked {text : Text} :
    CanonicalCallbackUrl.parse text = .panicked ↔ Cramped text := by
  constructor
  · intro h
    rcases parse_eq_or_read text with hinvalid | ⟨host, path, hread⟩
    · rw [hinvalid] at h
      cases h
    rw [hread.parse_eq] at h
    split at h
    next hlength =>
      obtain ⟨parsed, hparsed, hscheme, -, -, -, -, hhost, -⟩ := hread.parsed
      obtain ⟨raw, c, host', htext, hraw, hread', hhost'⟩ := parse_short hlength hparsed hscheme
      rw [hhost, Option.some.injEq] at hhost'
      subst hhost'
      exact ⟨raw, c, htext, hraw, isAlpha_of_readHost hread' hread.host⟩
    next =>
      split at h
      · cases h
      · cases h
  · rintro ⟨raw, c, rfl, hraw, hc⟩
    have hletters := isAlpha_of_https hraw
    have hlength : raw.length = 5 := by
      have hmap := congrArg List.length hraw
      rwa [lower, List.length_map] at hmap
    have hread : Read (raw ++ [':', c]) [c.toLower] ['/'] := by
      refine ⟨?_, ?_, ⟨_, parse_letter hraw hc, rfl, rfl, rfl, rfl, rfl, rfl, rfl⟩,
        dnsHost_char (letter_facts hc).2.1⟩
      · simp only [List.length_append, List.length_cons, List.length_nil, hlength]
        decide
      · intro d hd
        have hkind : d.isAlpha = true ∨ d = ':' := by
          simp only [List.mem_append, List.mem_cons, List.not_mem_nil, or_false] at hd
          rcases hd with hd | rfl | rfl
          · exact .inl (hletters d hd)
          · exact .inr rfl
          · exact .inl hc
        rcases hkind with halpha | rfl
        · obtain ⟨hspecial, -, -, -, hlow, hhigh⟩ := letter_facts halpha
          apply invalidCharacter_eq_false hlow hhigh
          · rintro rfl
            exact hspecial (by decide)
          · rintro rfl
            exact hspecial (by decide)
        · decide
    rw [hread.parse_eq, if_pos]
    simp only [List.length_append, List.length_cons, List.length_nil, hlength]
    decide

/-- The check is exact for all texts but these: a scheme with a letter after its colon ends in a
panic, and addresses of the canonical form are refused if they are too long, if their path starts
with two slashes, or if their host is one that the reader of web addresses rewrites. -/
theorem callbackUrl_exact_iff (text : Text) :
    Exact text ↔ ¬ Cramped text ∧
      ∀ host port path, Grammar text host port path → Within text host path := by
  constructor
  · rintro ⟨haccepted, hrefused⟩
    constructor
    · intro hcramped
      have hpanicked := parse_eq_panicked.mpr hcramped
      have hgrammar : ¬ ∃ host port path, Grammar text host port path := by
        rintro ⟨host, port, path, hgrammar⟩
        obtain hok := (haccepted ⟨text, host, port, path⟩).mpr ⟨hgrammar, rfl⟩
        rw [hpanicked] at hok
        cases hok
      rw [hrefused hgrammar] at hpanicked
      cases hpanicked
    · intro host port path hgrammar
      have hok := (haccepted ⟨text, host, port, path⟩).mpr ⟨hgrammar, rfl⟩
      exact (parse_eq_ok.mp hok).2.2
  · rintro ⟨hroomy, hwithin⟩
    have haccepted : ∀ url, CanonicalCallbackUrl.parse text = .returned (.ok url) ↔
        Grammar text url.host url.port url.path ∧ url.canonical = text := by
      intro url
      rw [parse_eq_ok]
      constructor
      · rintro ⟨hgrammar, htext, -⟩
        exact ⟨hgrammar, htext⟩
      · rintro ⟨hgrammar, htext⟩
        exact ⟨hgrammar, htext, hwithin _ _ _ hgrammar⟩
    refine ⟨haccepted, fun hgrammar => ?_⟩
    rcases parse_eq_or_read text with hinvalid | ⟨host, path, hread⟩
    · exact hinvalid
    · have hparse := hread.parse_eq
      split at hparse
      · exact absurd (parse_eq_panicked.mp hparse) hroomy
      · split at hparse
        · exact hparse
        next url _ => exact absurd ⟨_, _, _, ((haccepted url).mp hparse).1⟩ hgrammar

end Check

section Sample

/-- Only ASCII domains and no other addresses. -/
local instance sampleEnvironment : Environment where
  otherScheme _ _ := none
  bracketed _ := none
  punycode domain := some (lower domain)

local instance sampleReader : AddressReader where
  isIpv6 _ := false
  isIpv6_colon _ := nofun

/-- Seven bytes that are no address of the canonical form end in a panic. -/
theorem letter_without_slashes_panics :
    CanonicalCallbackUrl.parse ['h', 't', 't', 'p', 's', ':', 'a'] = .panicked ∧
      ¬ Exact ['h', 't', 't', 'p', 's', ':', 'a'] := by
  have hpanicked : CanonicalCallbackUrl.parse ['h', 't', 't', 'p', 's', ':', 'a'] = .panicked := by
    decide
  refine ⟨hpanicked, ?_⟩
  rintro ⟨-, hrefused⟩
  have hgrammar : ¬ ∃ host port path, Grammar ['h', 't', 't', 'p', 's', ':', 'a'] host port path := by
    rintro ⟨host, port, path, h⟩
    have hlength := congrArg List.length h.text_eq
    simp only [writeUrl, httpsSlashes, List.length_append, List.length_cons, List.length_nil]
      at hlength
    omega
  rw [hrefused hgrammar] at hpanicked
  cases hpanicked

example : CanonicalCallbackUrl.parse "https://callbacks.example.com:443/a2a/task".toList =
    .returned (.ok ⟨"https://callbacks.example.com:443/a2a/task".toList,
      "callbacks.example.com".toList, 443, "/a2a/task".toList⟩) := by
  decide +kernel

end Sample

end SmeshDurable.Push
