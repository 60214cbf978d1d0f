import Mathlib.Data.String.Basic
import SmeshDurable.Library.JsonPointer
import SmeshDurable.Library.Keyed
import SmeshDurable.Library.Ranked
import SmeshDurable.Library.Transaction

/-!
# Privacy policies

A rule names a place of a record by a JSON pointer and says what happens to the value there. An
accepted policy has valid pointers, none twice, and no rule below a rule that changes the record.
-/

namespace SmeshDurable.Privacy

open Ranked Transaction

def maxTotalBytes : Nat := 16 * 1024 * 1024
def maxLineBytes : Nat := 64 * 1024
def maxRecords : Nat := 100000

inductive DataClass where
  | «public»
  | internal
  | confidential
  | pii
  | phi
  | secret
deriving DecidableEq

inductive RedactionAction where
  | keep
  | placeholder
  | stableHandle
  | drop
deriving DecidableEq

structure RedactionRule where
  pointer : String
  dataClass : DataClass
  action : RedactionAction
  stableIdentifier : Bool
  fictionalProvenance : Option String
deriving DecidableEq

structure PrivacyPolicy where
  policyId : String
  policyRevision : Nat
  keyGeneration : String
  rules : List RedactionRule
deriving DecidableEq

inductive PrivacyError where
  | malformedPolicy
  | duplicateRule
  | overlappingRule
  | invalidPointer
  | unsupportedClassAction
  | unmatchedRule
  | unclassifiedValue
  | malformedInput
  | limitExceeded
  | sensitiveContent
  | invalidStableIdentifier
  | verificationFailed
deriving DecidableEq

/-! ## Pointers -/

def encodePointerToken (token : String) : String :=
  String.ofList (JsonPointer.encodeToken token.toList)

def decodePointer (pointer : String) : List String :=
  (JsonPointer.decode pointer.toList).map String.ofList

/-- The pointer to the place below some tokens, as the classification walks down to it. -/
def pointerTo (tokens : List String) : String :=
  tokens.foldl (fun pointer token => pointer ++ "/" ++ encodePointerToken token) ""

def validatePointer (pointer : String) : Except PrivacyError Unit :=
  if pointer = "" then .ok ()
  else do
    require (pointer.toList.head? = some '/') .invalidPointer
    require (JsonPointer.escapes pointer.toList = true) .invalidPointer

theorem validatePointer_eq_ok {pointer : String} :
    validatePointer pointer = .ok () ↔ JsonPointer.Valid pointer.toList := by
  have hempty : pointer = "" ↔ pointer.toList = [] := by
    rw [← String.toList_empty, String.toList_inj]
  rw [validatePointer, JsonPointer.Valid, ← hempty]
  split
  next h => simp [h]
  next h => simp [h]

theorem toList_pointerTo (tokens : List String) :
    (pointerTo tokens).toList = JsonPointer.encode (tokens.map String.toList) := by
  have hfold : ∀ pointer : String,
      (tokens.foldl (fun pointer token => pointer ++ "/" ++ encodePointerToken token) pointer).toList =
        pointer.toList ++ JsonPointer.encode (tokens.map String.toList) := by
    induction tokens with
    | nil => simp
    | cons token tokens ih =>
      intro pointer
      rw [List.foldl_cons, ih, List.map_cons, JsonPointer.encode_cons]
      simp [encodePointerToken]
  rw [pointerTo, hfold, String.toList_empty, List.nil_append]

/-- Reading the pointer to some tokens gives the tokens. -/
theorem decodePointer_pointerTo (tokens : List String) : decodePointer (pointerTo tokens) = tokens := by
  rw [decodePointer, toList_pointerTo, JsonPointer.decode_encode, List.map_map]
  exact List.map_id'' (fun token => String.ofList_toList) tokens

theorem map_toList_decodePointer (pointer : String) :
    (decodePointer pointer).map String.toList = JsonPointer.decode pointer.toList := by
  rw [decodePointer, List.map_map]
  exact List.map_id'' (fun token => String.toList_ofList) _

/-- A valid pointer is the pointer to the tokens read from it. -/
theorem pointerTo_decodePointer {pointer : String} (h : validatePointer pointer = .ok ()) :
    pointerTo (decodePointer pointer) = pointer := by
  rw [← String.toList_inj, toList_pointerTo, map_toList_decodePointer,
    JsonPointer.encode_decode (validatePointer_eq_ok.mp h)]

theorem validatePointer_pointerTo (tokens : List String) :
    validatePointer (pointerTo tokens) = .ok () := by
  rw [validatePointer_eq_ok, toList_pointerTo]
  exact JsonPointer.valid_encode _

/-! ## Overlaps -/

/-- The pointer up to each of its slashes. -/
def ancestorPointers (pointer : String) : List String :=
  let chars := pointer.toList
  ((List.range chars.length).filter fun index => 1 ≤ index && chars[index]? == some '/').map
    (fun index => String.ofList (chars.take index)) ++ if pointer = "" then [] else [""]

/-- The rules are sorted by pointer; the search finds the one rule with a pointer, if there is one. -/
def findRule (rules : List RedactionRule) (pointer : String) : Option RedactionRule :=
  Keyed.get? RedactionRule.pointer rules pointer

def containsUnsafeOverlaps (rules : List RedactionRule) : Bool :=
  rules.any fun rule =>
    (ancestorPointers rule.pointer).any fun pointer =>
      (findRule rules pointer).any fun ancestor => ancestor.action ≠ .keep

theorem mem_ancestorPointers {pointer ancestor : String} (h : validatePointer pointer = .ok ()) :
    ancestor ∈ ancestorPointers pointer ↔
      ∃ rest, pointer.toList = ancestor.toList ++ '/' :: rest := by
  rw [ancestorPointers, List.mem_append, List.mem_map]
  constructor
  · rintro (⟨index, hindex, rfl⟩ | hroot)
    · rw [List.mem_filter, Bool.and_eq_true, beq_iff_eq] at hindex
      obtain ⟨-, -, hslash⟩ := hindex
      obtain ⟨hlt, hslash⟩ := List.getElem?_eq_some_iff.mp hslash
      refine ⟨pointer.toList.drop (index + 1), ?_⟩
      rw [String.toList_ofList, ← hslash, ← List.drop_eq_getElem_cons hlt, List.take_append_drop]
    · split at hroot
      · cases hroot
      next hne =>
        obtain rfl := List.mem_singleton.mp hroot
        obtain hnil | ⟨hhead, -⟩ := validatePointer_eq_ok.mp h
        · rw [← String.toList_empty, String.toList_inj] at hnil
          exact absurd hnil hne
        · exact List.head?_eq_some_iff.mp hhead
  · rintro ⟨rest, hrest⟩
    by_cases hancestor : ancestor = ""
    · subst hancestor
      have hne : pointer ≠ "" := by
        rintro rfl
        cases hrest
      rw [if_neg hne]
      exact .inr (List.mem_singleton.mpr rfl)
    · have hlength : ancestor.toList ≠ [] := by
        rwa [← String.toList_empty, Ne, String.toList_inj]
      refine .inl ⟨ancestor.toList.length, ?_, ?_⟩
      · have hpos := List.length_pos_iff.mpr hlength
        rw [List.mem_filter, List.mem_range, hrest]
        simp
        omega
      · rw [hrest, List.take_left, String.ofList_toList]

/-- The pointers above a pointer are those of the proper beginnings of its tokens. -/
theorem mem_ancestorPointers_iff {pointer ancestor : String} (h : validatePointer pointer = .ok ())
    (hancestor : validatePointer ancestor = .ok ()) :
    ancestor ∈ ancestorPointers pointer ↔
      decodePointer ancestor <+: decodePointer pointer ∧
        decodePointer ancestor ≠ decodePointer pointer := by
  have hinj : Function.Injective (List.map String.toList) :=
    List.map_injective_iff.mpr fun _ _ => String.toList_inj.mp
  rw [mem_ancestorPointers h]
  nth_rewrite 1 [← pointerTo_decodePointer h, ← pointerTo_decodePointer hancestor]
  rw [toList_pointerTo, toList_pointerTo, JsonPointer.encode_eq_append_iff, hinj.ne_iff,
    List.prefix_map_iff_of_injective fun _ _ => String.toList_inj.mp]

/-- The check finds exactly the rules below a rule that changes the record. -/
theorem containsUnsafeOverlaps_iff {rules : List RedactionRule}
    (hvalid : ∀ rule ∈ rules, validatePointer rule.pointer = .ok ())
    (hdistinct : (rules.map RedactionRule.pointer).Nodup) :
    containsUnsafeOverlaps rules = true ↔
      ∃ above ∈ rules, ∃ rule ∈ rules, above.action ≠ .keep ∧
        decodePointer above.pointer <+: decodePointer rule.pointer ∧
        decodePointer above.pointer ≠ decodePointer rule.pointer := by
  have hunique : Keyed.Unique RedactionRule.pointer rules := hdistinct
  simp only [containsUnsafeOverlaps, List.any_eq_true, Option.any_eq_true, decide_eq_true_eq]
  constructor
  · rintro ⟨rule, hrule, pointer, hpointer, above, hfound, hkeep⟩
    have habove := Keyed.mem_of_get? hfound
    obtain rfl := Keyed.key_of_get? hfound
    have hstart := (mem_ancestorPointers_iff (hvalid rule hrule) (hvalid above habove)).mp hpointer
    exact ⟨above, habove, rule, hrule, hkeep, hstart⟩
  · rintro ⟨above, habove, rule, hrule, hkeep, hstart⟩
    have hpointer := (mem_ancestorPointers_iff (hvalid rule hrule) (hvalid above habove)).mpr hstart
    exact ⟨rule, hrule, above.pointer, hpointer, above, hunique.get?_eq_some habove rfl, hkeep⟩

/-! ## Policies -/

def validPublicLabel (value : String) : Bool :=
  value ≠ "" && value.utf8ByteSize ≤ 256 &&
    value.toList.all fun c => c.isAlphanum || ['-', '_', '.', ':', '/'].contains c

/-- The classes with the actions they may have. -/
def RedactionRule.allowed (rule : RedactionRule) : Bool :=
  match rule.dataClass, rule.action with
  | .public, .keep => rule.fictionalProvenance.any fun text => !text.isEmpty
  | .internal, .placeholder | .confidential, .placeholder | .pii, .placeholder
  | .phi, .placeholder => !rule.stableIdentifier && rule.fictionalProvenance.isNone
  | .internal, .stableHandle | .confidential, .stableHandle | .pii, .stableHandle
  | .phi, .stableHandle => rule.stableIdentifier && rule.fictionalProvenance.isNone
  | .secret, .drop => !rule.stableIdentifier && rule.fictionalProvenance.isNone
  | _, _ => false

def validatePair (rule : RedactionRule) : Except PrivacyError Unit :=
  require (rule.allowed = true) .unsupportedClassAction

/-- What the rules of a policy take up at most when written. -/
def policyBytes (policyId keyGeneration : String) (rules : List RedactionRule) : Nat :=
  rules.foldl (fun total rule => total + 6 * rule.pointer.utf8ByteSize +
    6 * (rule.fictionalProvenance.map String.utf8ByteSize).getD 0 + 128)
    (policyId.utf8ByteSize + keyGeneration.utf8ByteSize)

section Accepted

-- What the semantic scanner takes for sensitive text.
variable (sensitiveText : String → Bool)

/-- The loop over the rules, with the pointers seen before. -/
def validateRules : List String → List RedactionRule → Except PrivacyError Unit
  | _, [] => .ok ()
  | pointers, rule :: rest => do
      require (rule.pointer.utf8ByteSize ≤ maxLineBytes ∧
        rule.fictionalProvenance.all (fun value => value.utf8ByteSize ≤ maxLineBytes) = true)
        .limitExceeded
      require (rule.fictionalProvenance.all (fun value =>
        validPublicLabel value && !sensitiveText value) = true) .malformedPolicy
      validatePointer rule.pointer
      require (rule.pointer ∉ pointers) .duplicateRule
      validatePair rule
      validateRules (rule.pointer :: pointers) rest

def PrivacyPolicy.newVersioned (policyId : String) (policyRevision : Nat) (keyGeneration : String)
    (rules : List RedactionRule) : Except PrivacyError PrivacyPolicy := do
  require (rules.length ≤ maxRecords) .limitExceeded
  require (validPublicLabel policyId = true ∧ policyRevision ≠ 0 ∧
    validPublicLabel keyGeneration = true ∧ sensitiveText policyId = false ∧
    sensitiveText keyGeneration = false) .malformedPolicy
  require (policyBytes policyId keyGeneration rules ≤ maxTotalBytes) .limitExceeded
  validateRules sensitiveText [] rules
  let rules := sortOn RedactionRule.pointer rules
  require (containsUnsafeOverlaps rules = false) .overlappingRule
  .ok { policyId, policyRevision, keyGeneration, rules }

variable {sensitiveText}

theorem validateRules_eq_ok {pointers : List String} {rules : List RedactionRule}
    (h : validateRules sensitiveText pointers rules = .ok ()) :
    (∀ rule ∈ rules, validatePointer rule.pointer = .ok () ∧ rule.pointer ∉ pointers) ∧
      (rules.map RedactionRule.pointer).Nodup := by
  induction rules generalizing pointers with
  | nil => exact ⟨nofun, List.nodup_nil⟩
  | cons rule rest ih =>
    simp only [validateRules, bind_eq_ok, require_eq_ok] at h
    obtain ⟨_, -, _, -, _, hpointer, _, hnew, _, -, hrest⟩ := h
    obtain ⟨hvalid, hdistinct⟩ := ih hrest
    refine ⟨List.forall_mem_cons.mpr ⟨⟨hpointer, hnew⟩, fun other hother => ?_⟩, ?_⟩
    · obtain ⟨hother, hseen⟩ := hvalid other hother
      exact ⟨hother, fun hmem => hseen (List.mem_cons_of_mem _ hmem)⟩
    · rw [List.map_cons, List.nodup_cons]
      refine ⟨fun hmem => ?_, hdistinct⟩
      obtain ⟨other, hother, heq⟩ := List.mem_map.mp hmem
      exact (hvalid other hother).2 (heq ▸ List.mem_cons_self)

/-- What an accepted policy guarantees of its rules. -/
structure Disjoint (rules : List RedactionRule) : Prop where
  valid : ∀ rule ∈ rules, validatePointer rule.pointer = .ok ()
  distinct : (rules.map RedactionRule.pointer).Nodup
  below : ∀ above ∈ rules, ∀ rule ∈ rules, above.action ≠ .keep →
    decodePointer above.pointer <+: decodePointer rule.pointer →
    decodePointer above.pointer = decodePointer rule.pointer

theorem newVersioned_disjoint {policyId keyGeneration : String} {policyRevision : Nat}
    {rules : List RedactionRule} {policy : PrivacyPolicy}
    (h : PrivacyPolicy.newVersioned sensitiveText policyId policyRevision keyGeneration rules =
      .ok policy) : Disjoint policy.rules := by
  simp only [PrivacyPolicy.newVersioned, bind_eq_ok, require_eq_ok, Except.ok.injEq] at h
  obtain ⟨_, -, _, -, _, -, _, hrules, _, hoverlap, rfl⟩ := h
  obtain ⟨hvalid, hdistinct⟩ := validateRules_eq_ok hrules
  have hvalid' : ∀ rule ∈ sortOn RedactionRule.pointer rules, validatePointer rule.pointer = .ok () :=
    fun rule hrule => (hvalid rule ((mem_sortOn _).mp hrule)).1
  have hdistinct' : ((sortOn RedactionRule.pointer rules).map RedactionRule.pointer).Nodup :=
    ((sortOn_perm _ rules).map _).nodup_iff.mpr hdistinct
  refine ⟨hvalid', hdistinct', fun above habove rule hrule hkeep hstart => ?_⟩
  by_contra hne
  have hsome := (containsUnsafeOverlaps_iff hvalid' hdistinct').mpr
    ⟨above, habove, rule, hrule, hkeep, hstart, hne⟩
  rw [hoverlap] at hsome
  cases hsome

end Accepted

end SmeshDurable.Privacy
