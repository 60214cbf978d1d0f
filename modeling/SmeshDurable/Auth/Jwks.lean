import SmeshDurable.Library.Transaction
import Mathlib.Algebra.Group.Nat.Defs
import Mathlib.Data.List.Nodup

/-!
# Key sets of an identity provider

A provider answers with a document and a time for which it is fresh. `fetchSnapshot` takes the
keys from the document if all of them are RSA keys for signatures with an id of their own, and
none if one of them is not. A snapshot carries that its ids are distinct.
-/

namespace SmeshDurable.Auth

open Transaction

inductive AuthenticationError where
  | providerUnavailable
  | unknownKeyId
deriving DecidableEq, Repr

/-- Addition of `u64` values that stays at the largest one. -/
def saturatingAdd (a b : Nat) : Nat := min (a + b) (2 ^ 64 - 1)

/-- The bounds of the verifier that the refresh of its keys reads. -/
structure JwtVerifierConfig where
  maxJwksBytes : Nat
  maxKeys : Nat
  maxKidBytes : Nat
  unknownKidRefreshIntervalSeconds : Nat

namespace JwtVerifierConfig

/-- The bounds of the strict policy. -/
def strict : JwtVerifierConfig where
  maxJwksBytes := 256 * 1024
  maxKeys := 32
  maxKidBytes := 128
  unknownKidRefreshIntervalSeconds := 30

end JwtVerifierConfig

inductive PublicKeyUse where
  | signature
  | other
deriving DecidableEq

inductive KeyOperation where
  | verify
  | other
deriving DecidableEq

inductive AlgorithmParameters where
  | rsa (n e : String)
  | other
deriving DecidableEq

structure Jwk where
  keyId : Option String
  publicKeyUse : Option PublicKeyUse
  keyOperations : Option (List KeyOperation)
  algorithm : AlgorithmParameters
deriving DecidableEq

/-- Reads the keys of a JSON document. -/
class JwkSetParser where
  parse : List UInt8 → Option (List Jwk)

/-- An answer of the provider. -/
structure JwksFetch where
  body : List UInt8
  freshFor : Nat

/-! ## Checking keys -/

/-- The six bits of a character of the base64 alphabet for addresses. -/
def urlSafeValue (c : Char) : Option Nat :=
  if 'A' ≤ c ∧ c ≤ 'Z' then some (c.toNat - 65)
  else if 'a' ≤ c ∧ c ≤ 'z' then some (c.toNat - 71)
  else if '0' ≤ c ∧ c ≤ '9' then some (c.toNat + 4)
  else if c = '-' then some 62
  else if c = '_' then some 63
  else none

/-- Base64 for addresses, without padding; the bits left over are zero. -/
def decodeUrlSafe : List Char → Option (List UInt8)
  | [] => some []
  | [_] => none
  | [a, b] => do
      let a ← urlSafeValue a
      let b ← urlSafeValue b
      if b % 16 = 0 then some [UInt8.ofNat (a * 4 + b / 16)] else none
  | [a, b, c] => do
      let a ← urlSafeValue a
      let b ← urlSafeValue b
      let c ← urlSafeValue c
      if c % 4 = 0 then
        some [UInt8.ofNat (a * 4 + b / 16), UInt8.ofNat (b % 16 * 16 + c / 4)]
      else none
  | a :: b :: c :: d :: rest => do
      let a ← urlSafeValue a
      let b ← urlSafeValue b
      let c ← urlSafeValue c
      let d ← urlSafeValue d
      let bytes ← decodeUrlSafe rest
      some (UInt8.ofNat (a * 4 + b / 16) :: UInt8.ofNat (b % 16 * 16 + c / 4) ::
        UInt8.ofNat (c % 4 * 64 + d) :: bytes)

/-- The number of bits of a modulus, leading zeros apart. -/
def modulusBits (modulus : List UInt8) : Option Nat :=
  match modulus.dropWhile (· == 0) with
  | [] => none
  | first :: rest => some ((rest.length + 1) * 8 - (7 - first.toNat.log2))

/-- A key that verifies signatures: RSA with 2048 to 8192 bits and the exponent 65537. -/
def acceptableKey (key : Jwk) : Bool :=
  key.publicKeyUse.all (· == .signature) && key.keyOperations.all (· == [.verify]) &&
    match key.algorithm with
    | .rsa n e =>
      ((decodeUrlSafe n.toList).bind modulusBits).any
        (fun bits => 2048 ≤ bits && bits ≤ 8192) &&
        decodeUrlSafe e.toList == some [1, 0, 1]
    | .other => false

/-- The keys of a provider by their ids. -/
structure JwksSnapshot where
  keys : List (String × Jwk)
  freshUntil : Nat
  revision : Nat
  distinct : (keys.map Prod.fst).Nodup

section Fetch

variable [JwkSetParser] (config : JwtVerifierConfig)

/-- Add the keys of a document one after another to those taken before. -/
def takeKeys : List Jwk → (taken : List (String × Jwk)) → (taken.map Prod.fst).Nodup →
    Option {keys : List (String × Jwk) // (keys.map Prod.fst).Nodup}
  | [], taken, h => some ⟨taken, h⟩
  | key :: rest, taken, h =>
    match key.keyId with
    | none => none
    | some kid =>
      if hnew : kid ∈ taken.map Prod.fst then none
      else if kid = "" ∨ config.maxKidBytes < kid.utf8ByteSize then none
      else if acceptableKey key then
        takeKeys rest ((kid, key) :: taken) (by simpa using ⟨by simpa using hnew, h⟩)
      else none

/-- Fetch and check a snapshot for a call that sampled the clock at `now`; the provider may fail. -/
def fetchSnapshot (fetched : Option JwksFetch) (now : Nat) :
    Except AuthenticationError JwksSnapshot := do
  let fetch ← expect fetched .providerUnavailable
  require (fetch.body.length ≤ config.maxJwksBytes) .providerUnavailable
  let set ← expect (JwkSetParser.parse fetch.body) .providerUnavailable
  require (set ≠ [] ∧ set.length ≤ config.maxKeys) .providerUnavailable
  let keys ← expect (takeKeys config set [] List.nodup_nil) .providerUnavailable
  .ok ⟨keys.1, saturatingAdd now fetch.freshFor, 0, keys.2⟩

end Fetch

end SmeshDurable.Auth
