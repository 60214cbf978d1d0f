import SmeshDurable.Library.FieldMap
import SmeshDurable.Privacy.Policy
import SmeshDurable.Replay.Commitment

/-!
# Applying the rules of a policy

A rule walks down to its place and replaces, drops or keeps the value there; a member of an object
that is replaced also gets a public name. Rules at places apart from each other can be applied in
either order, as long as no public name is a token of another rule's pointer, and so an accepted
policy has one result for all orders of its rules.
-/

namespace SmeshDurable.Privacy

open CanonicalJson FieldMap Ranked Transaction
open Replay (Bytes utf8 bigEndian JsonValue)

/-- The key of a run, as what the text of its codes is. -/
structure RunHmacKey where
  mac : Bytes → String

/-- An index without leading zeros that fits in 64 bits. -/
def parseArrayIndex (token : String) : Option Nat :=
  if token = "0" ∨ (token.toList.head? ≠ some '0' ∧ token.toList.all Char.isDigit = true) then
    let value := Nat.ofDigitChars 10 token.toList 0
    if token ≠ "" ∧ value < 2 ^ 64 then some value else none
  else none

section Apply

variable (runId : String) (policy : PrivacyPolicy) (key : RunHmacKey)

/-- The code of a text in a run, behind a label. -/
def runMac (label text : String) : String :=
  let parts := [utf8 runId, utf8 policy.policyId, bigEndian policy.policyRevision,
    utf8 policy.keyGeneration, utf8 text]
  key.mac (utf8 label ++ parts.flatMap fun part => bigEndian part.length ++ part)

def redactedFieldName (pointer : String) : String :=
  "redacted-field-hmac-sha256:" ++
    runMac runId policy key "SMESH-A2A\x00trace-privacy-field\x00v1\x00" pointer

def applyAtValue (rule : RedactionRule) (value : Json) : Except PrivacyError Json :=
  match rule.action with
  | .keep => .ok value
  | .placeholder =>
    match rule.dataClass with
    | .internal => .ok (.str "[REDACTED:INTERNAL]")
    | .confidential => .ok (.str "[REDACTED:CONFIDENTIAL]")
    | .pii => .ok (.str "[REDACTED:PII]")
    | .phi => .ok (.str "[REDACTED:PHI]")
    | _ => .error .unsupportedClassAction
  | .drop => .ok .null
  | .stableHandle =>
    match value with
    | .str identifier =>
      if identifier = "" then .error .invalidStableIdentifier
      else .ok (.str ("hmac-sha256:" ++
        runMac runId policy key "SMESH-A2A\x00trace-privacy-handle\x00v1\x00" identifier))
    | _ => .error .invalidStableIdentifier

/-- The rule gives the member it names a public name. -/
def RedactionRule.Renames (rule : RedactionRule) : Prop :=
  rule.action = .placeholder ∨ rule.action = .stableHandle

/-- What a rule does to the member of an object it names. -/
def memberEdit (rule : RedactionRule) (value : Json) : Except PrivacyError (Edit Json) :=
  match rule.action with
  | .drop => .ok .remove
  | .keep => (applyAtValue runId policy key rule value).map .put
  | .placeholder | .stableHandle =>
    (applyAtValue runId policy key rule value).map
      (.rename (redactedFieldName runId policy key rule.pointer))

/-- The walk down to the place of a rule. A dropped element of an array becomes null, as a dropped
root does. -/
def applyTokens (rule : RedactionRule) : List String → Json → Except PrivacyError Json
  | [], value => applyAtValue runId policy key rule value
  | token :: rest, .obj fields => do
      let value ← expect (fields.lookup token) .unmatchedRule
      let e ← (match rest with
        | [] => memberEdit runId policy key rule value
        | _ :: _ => (applyTokens rule rest value).map .put)
      let fields ← expect (edit token fields e) .malformedInput
      .ok (.obj fields)
  | token :: rest, .arr items => do
      let index ← expect (parseArrayIndex token) .unmatchedRule
      let item ← expect items[index]? .unmatchedRule
      let item ← applyTokens rule rest item
      .ok (.arr (items.set index item))
  | _ :: _, _ => .error .unmatchedRule

def applyRule (rule : RedactionRule) (root : Json) : Except PrivacyError Json :=
  applyTokens runId policy key rule (decodePointer rule.pointer) root

/-- The rules in an order. -/
def applyRules (order : List RedactionRule) (root : Json) : Except PrivacyError Json :=
  order.foldlM (fun root rule => applyRule runId policy key rule root) root

end Apply

/-! ## Array indices -/

theorem parseArrayIndex_eq_some {token : String} {index : Nat}
    (h : parseArrayIndex token = some index) : token = String.ofList (Nat.toDigits 10 index) := by
  simp only [parseArrayIndex] at h
  split at h
  · next hform =>
    split at h
    · next hvalue =>
      have hne : token.toList ≠ [] := by
        rw [← String.toList_empty, Ne, String.toList_inj]
        exact hvalue.1
      obtain rfl := Option.some.inj h
      have hdigits : token.toList.all Char.isDigit = true ∧
          (token.toList.head? = some '0' → token.toList = ['0']) := by
        rcases hform with rfl | ⟨hlead, hdigits⟩
        · exact ⟨by decide, fun _ => rfl⟩
        · exact ⟨hdigits, fun hzero => absurd hzero hlead⟩
      rw [JsonPointer.toDigits_ofDigitChars hdigits.1 hne hdigits.2, String.ofList_toList]
    · cases h
  · cases h

/-! ## One step of the walk -/

section Walk

variable {runId : String} {policy : PrivacyPolicy} {key : RunHmacKey} {rule : RedactionRule}
  {rest : List String} {token : String} {value w : Json} {e : Edit Json}

/-- What a rule does to the member it names or passes. -/
def childEdit (runId : String) (policy : PrivacyPolicy) (key : RunHmacKey) (rule : RedactionRule)
    (rest : List String) (value : Json) : Except PrivacyError (Edit Json) :=
  match rest with
  | [] => memberEdit runId policy key rule value
  | _ :: _ => (applyTokens runId policy key rule rest value).map .put

theorem applyTokens_obj {fields : List (String × Json)} :
    applyTokens runId policy key rule (token :: rest) (.obj fields) = .ok w ↔
      ∃ fields', Edits (fun v e => childEdit runId policy key rule rest v = .ok e) token fields fields' ∧
        w = .obj fields' := by
  have heq : applyTokens runId policy key rule (token :: rest) (.obj fields) = (do
      let value ← expect (fields.lookup token) .unmatchedRule
      let e ← childEdit runId policy key rule rest value
      let fields ← expect (edit token fields e) .malformedInput
      .ok (.obj fields)) := by
    cases rest <;> rfl
  rw [heq]
  simp only [bind_eq_ok, expect_eq_ok, Except.ok.injEq, Edits]
  constructor
  · rintro ⟨v, hv, e, he, fields', hedit, rfl⟩
    exact ⟨fields', ⟨v, e, hv, he, hedit⟩, rfl⟩
  · rintro ⟨fields', ⟨v, e, hv, he, hedit⟩, rfl⟩
    exact ⟨v, hv, e, he, fields', hedit, rfl⟩

theorem applyTokens_arr {items : List Json} :
    applyTokens runId policy key rule (token :: rest) (.arr items) = .ok w ↔
      ∃ index item new, parseArrayIndex token = some index ∧ items[index]? = some item ∧
        applyTokens runId policy key rule rest item = .ok new ∧ w = .arr (items.set index new) := by
  simp only [applyTokens, bind_eq_ok, expect_eq_ok, Except.ok.injEq]
  constructor
  · rintro ⟨index, hindex, item, hitem, new, hnew, rfl⟩
    exact ⟨index, item, new, hindex, hitem, hnew, rfl⟩
  · rintro ⟨index, item, new, hindex, hitem, hnew, rfl⟩
    exact ⟨index, hindex, item, hitem, new, hnew, rfl⟩

/-- Only objects and arrays have places inside. -/
theorem applyTokens_cons_cases (h : applyTokens runId policy key rule (token :: rest) value = .ok w) :
    (∃ fields, value = .obj fields) ∨ ∃ items, value = .arr items := by
  cases value with
  | obj fields => exact .inl ⟨fields, rfl⟩
  | arr items => exact .inr ⟨items, rfl⟩
  | _ => cases h

/-- A rule that keeps the member it names, or passes a member, leaves it in its place. -/
theorem childEdit_put (hkeep : rest = [] → rule.action = .keep) :
    childEdit runId policy key rule rest value = .ok e ↔
      ∃ new, applyTokens runId policy key rule rest value = .ok new ∧ e = .put new := by
  cases rest with
  | nil =>
    rw [childEdit, memberEdit, hkeep rfl, map_eq_ok]
    rfl
  | cons next rest => rw [childEdit, map_eq_ok]

/-- The value of a member becomes what the rule makes of it, and a new name is the public name of
the rule. -/
theorem childEdit_eq_ok (h : childEdit runId policy key rule rest value = .ok e) :
    (∀ new ∈ e.value?, applyTokens runId policy key rule rest value = .ok new) ∧
      ∀ name ∈ e.name?, rule.Renames ∧ redactedFieldName runId policy key rule.pointer = name := by
  by_cases hplace : rest = [] → rule.action = .keep
  · obtain ⟨new, hnew, rfl⟩ := (childEdit_put hplace).mp h
    refine ⟨?_, nofun⟩
    rintro _ ⟨⟩
    exact hnew
  · obtain ⟨hrest, hkeep⟩ := Classical.not_imp.mp hplace
    subst hrest
    have hrename : rule.Renames → (applyAtValue runId policy key rule value).map
        (.rename (redactedFieldName runId policy key rule.pointer)) = .ok e →
        (∀ new ∈ e.value?, applyTokens runId policy key rule [] value = .ok new) ∧
          ∀ name ∈ e.name?, rule.Renames ∧
            redactedFieldName runId policy key rule.pointer = name := by
      intro hrenames h
      obtain ⟨new, hnew, rfl⟩ := map_eq_ok.mp h
      refine ⟨?_, ?_⟩
      · rintro _ ⟨⟩
        exact hnew
      · rintro _ ⟨⟩
        exact ⟨hrenames, rfl⟩
    rw [childEdit, memberEdit] at h
    cases haction : rule.action with
    | keep => exact absurd haction hkeep
    | drop =>
      rw [haction] at h
      cases h
      exact ⟨nofun, nofun⟩
    | placeholder =>
      rw [haction] at h
      exact hrename (.inl haction) h
    | stableHandle =>
      rw [haction] at h
      exact hrename (.inr haction) h

end Walk

/-! ## Two rules -/

section Swap

variable {runId : String} {policy : PrivacyPolicy} {key : RunHmacKey}

/-- The two rules are at different places, neither changes a place above that of the other, and
neither gives a member a name that the other looks for. -/
structure Apart (runId : String) (policy : PrivacyPolicy) (key : RunHmacKey) (r s : RedactionRule)
    (p q : List String) : Prop where
  ne : p ≠ q
  above : r.action ≠ .keep → ¬ p <+: q
  below : s.action ≠ .keep → ¬ q <+: p
  name : r.Renames → redactedFieldName runId policy key r.pointer ∉ q
  name' : s.Renames → redactedFieldName runId policy key s.pointer ∉ p

variable {r s : RedactionRule} {p q : List String} {v u w : Json}

theorem Apart.symm (h : Apart runId policy key r s p q) : Apart runId policy key s r q p :=
  ⟨h.ne.symm, h.below, h.above, h.name', h.name⟩

theorem Apart.tail {token : String} (h : Apart runId policy key r s (token :: p) (token :: q)) :
    Apart runId policy key r s p q where
  ne heq := h.ne (congrArg _ heq)
  above hkeep hstart := h.above hkeep (List.cons_prefix_cons.mpr ⟨rfl, hstart⟩)
  below hkeep hstart := h.below hkeep (List.cons_prefix_cons.mpr ⟨rfl, hstart⟩)
  name hrenames hmem := h.name hrenames (List.mem_cons_of_mem _ hmem)
  name' hrenames hmem := h.name' hrenames (List.mem_cons_of_mem _ hmem)

/-- A rule right above the place of another one keeps its value. -/
theorem Apart.keeps {token : String} (h : Apart runId policy key r s (token :: p) (token :: q))
    (hp : p = []) : r.action = .keep := by
  by_contra hkeep
  subst hp
  exact h.above hkeep (List.cons_prefix_cons.mpr ⟨rfl, List.nil_prefix⟩)

theorem applyAtValue_keep (h : r.action = .keep) : applyAtValue runId policy key r v = .ok v := by
  simp only [applyAtValue, h]

theorem applyAtValue_sorted (hv : SortedKeys v) (h : applyAtValue runId policy key r v = .ok w) :
    SortedKeys w := by
  unfold applyAtValue at h
  split at h
  · exact Except.ok.inj h ▸ hv
  · split at h
    all_goals first | exact Except.ok.inj h ▸ .str _ trivial | cases h
  · exact Except.ok.inj h ▸ .null trivial
  · split at h
    · split at h
      · cases h
      · exact Except.ok.inj h ▸ .str _ trivial
    · cases h

/-- The walk keeps the order of the members of every object. -/
theorem applyTokens_sorted (hv : SortedKeys v) (h : applyTokens runId policy key r p v = .ok w) :
    SortedKeys w := by
  induction p generalizing v w with
  | nil => exact applyAtValue_sorted hv h
  | cons token rest ih =>
    rcases applyTokens_cons_cases h with ⟨fields, rfl⟩ | ⟨items, rfl⟩
    · obtain ⟨fields', ⟨value, e, hvalue, he, hedit⟩, rfl⟩ := applyTokens_obj.mp h
      refine .obj _ (ordered_edit hedit hv.keys) fun field hfield => ?_
      have hsorted : SortedKeys value := hv.field ((mem_iff_lookup hv.keys).mpr hvalue)
      rcases mem_edit hedit hfield with hold | hnew
      · exact hv.field hold
      · exact ih hsorted ((childEdit_eq_ok he).1 _ hnew)
    · obtain ⟨index, item, new, -, hitem, hnew, rfl⟩ := applyTokens_arr.mp h
      refine .arr _ trivial fun other hother => ?_
      rcases List.mem_or_eq_of_mem_set hother with hold | rfl
      · exact hv.item hold
      · exact ih (hv.item (List.mem_of_getElem? hitem)) hnew

/-- Rules apart from each other can be applied in the other order. -/
theorem applyTokens_swap (h : Apart runId policy key r s p q) (hv : SortedKeys v)
    (hu : applyTokens runId policy key r p v = .ok u)
    (hw : applyTokens runId policy key s q u = .ok w) :
    ∃ u', applyTokens runId policy key s q v = .ok u' ∧
      applyTokens runId policy key r p u' = .ok w := by
  induction p generalizing q v u w with
  | nil =>
    have hkeep : r.action = .keep := by
      by_contra hkeep
      exact h.above hkeep List.nil_prefix
    obtain rfl : v = u := Except.ok.inj ((applyAtValue_keep hkeep).symm.trans hu)
    exact ⟨w, hw, applyAtValue_keep hkeep⟩
  | cons a p ih =>
    cases q with
    | nil =>
      have hkeep : s.action = .keep := by
        by_contra hkeep
        exact h.below hkeep List.nil_prefix
      obtain rfl : u = w := Except.ok.inj ((applyAtValue_keep hkeep).symm.trans hw)
      exact ⟨v, applyAtValue_keep hkeep, hu⟩
    | cons b q =>
      rcases applyTokens_cons_cases hu with ⟨fields, rfl⟩ | ⟨items, rfl⟩
      · obtain ⟨mid, hmid, rfl⟩ := applyTokens_obj.mp hu
        obtain ⟨fields', hend, rfl⟩ := applyTokens_obj.mp hw
        obtain ⟨other, hother, hfinal⟩ : ∃ other,
            Edits (fun v e => childEdit runId policy key s q v = .ok e) b fields other ∧
              Edits (fun v e => childEdit runId policy key r p v = .ok e) a other fields' := by
          by_cases hab : a = b
          · subst hab
            refine hmid.swap_put hv.keys (fun v e => childEdit_put h.keeps)
              (fun v e => childEdit_put h.symm.keeps) ?_ hend
            intro v u w hvalue hu hw
            exact ih h.tail (hv.field ((mem_iff_lookup hv.keys).mpr hvalue)) hu hw
          · refine hmid.swap hab ?_ ?_ hv.keys hend
            · intro v e he hname
              obtain ⟨hrenames, rfl⟩ := (childEdit_eq_ok he).2 b hname
              exact h.name hrenames List.mem_cons_self
            · intro v e he hname
              obtain ⟨hrenames, rfl⟩ := (childEdit_eq_ok he).2 a hname
              exact h.name' hrenames List.mem_cons_self
        exact ⟨.obj other, applyTokens_obj.mpr ⟨other, hother, rfl⟩,
          applyTokens_obj.mpr ⟨fields', hfinal, rfl⟩⟩
      · obtain ⟨i, item, new, hi, hitem, hnew, rfl⟩ := applyTokens_arr.mp hu
        obtain ⟨j, item', new', hj, hitem', hnew', rfl⟩ := applyTokens_arr.mp hw
        by_cases hab : a = b
        · subst hab
          obtain rfl : i = j := Option.some.inj (hi.symm.trans hj)
          obtain ⟨hlt, -⟩ := List.getElem?_eq_some_iff.mp hitem
          obtain rfl : new = item' := by
            rw [List.getElem?_set_self hlt] at hitem'
            exact Option.some.inj hitem'
          obtain ⟨x, hx, hxw⟩ := ih h.tail (hv.item (List.mem_of_getElem? hitem)) hnew hnew'
          refine ⟨.arr (items.set i x), applyTokens_arr.mpr ⟨i, item, x, hi, hitem, hx, rfl⟩,
            applyTokens_arr.mpr ⟨i, x, new', hi, List.getElem?_set_self hlt, hxw, ?_⟩⟩
          rw [List.set_set, List.set_set]
        · have hij : i ≠ j := by
            rintro rfl
            exact hab ((parseArrayIndex_eq_some hi).trans (parseArrayIndex_eq_some hj).symm)
          rw [List.getElem?_set_ne hij] at hitem'
          refine ⟨.arr (items.set j new'),
            applyTokens_arr.mpr ⟨j, item', new', hj, hitem', hnew', rfl⟩,
            applyTokens_arr.mpr ⟨i, item, new, hi, ?_, hnew, ?_⟩⟩
          · rw [List.getElem?_set_ne hij.symm, hitem]
          · rw [List.set_comm _ _ hij]

end Swap

/-! ## Orders of the rules -/

section Orders

variable {runId : String} {policy : PrivacyPolicy} {key : RunHmacKey}

/-- No rule looks for a public name that another one gives. -/
def FreshNames (runId : String) (policy : PrivacyPolicy) (key : RunHmacKey) : Prop :=
  ∀ r ∈ policy.rules, ∀ s ∈ policy.rules, r.Renames →
    redactedFieldName runId policy key r.pointer ∉ decodePointer s.pointer

/-- The rules of an accepted policy are apart from each other. -/
theorem FreshNames.pairwise (hnames : FreshNames runId policy key) (h : Disjoint policy.rules) :
    policy.rules.Pairwise fun r s =>
      Apart runId policy key r s (decodePointer r.pointer) (decodePointer s.pointer) := by
  apply (List.pairwise_map.mp h.distinct).imp_of_mem
  intro r s hr hs hne
  have hdecoded : decodePointer r.pointer ≠ decodePointer s.pointer := by
    intro heq
    apply hne
    rw [← pointerTo_decodePointer (h.valid r hr), heq, pointerTo_decodePointer (h.valid s hs)]
  exact ⟨hdecoded, fun hkeep hstart => hdecoded (h.below r hr s hs hkeep hstart),
    fun hkeep hstart => hdecoded (h.below s hs r hr hkeep hstart).symm, hnames r hr s hs,
    hnames s hs r hr⟩

theorem applyRules_cons {rule : RedactionRule} {order : List RedactionRule} {v w : Json} :
    applyRules runId policy key (rule :: order) v = .ok w ↔
      ∃ u, applyRule runId policy key rule v = .ok u ∧
        applyRules runId policy key order u = .ok w := by
  rw [applyRules, List.foldlM_cons, bind_eq_ok]
  rfl

/-- Rules apart from each other have the same result in every order. -/
theorem applyRules_perm {order order' : List RedactionRule} (hperm : order.Perm order')
    (hapart : order.Pairwise fun r s =>
      Apart runId policy key r s (decodePointer r.pointer) (decodePointer s.pointer))
    {v w : Json} (hv : SortedKeys v) (h : applyRules runId policy key order v = .ok w) :
    applyRules runId policy key order' v = .ok w := by
  induction hperm generalizing v w with
  | nil => exact h
  | cons rule _ ih =>
    obtain ⟨u, hu, hw⟩ := applyRules_cons.mp h
    exact applyRules_cons.mpr ⟨u, hu, ih (List.pairwise_cons.mp hapart).2 (applyTokens_sorted hv hu) hw⟩
  | swap r s order =>
    obtain ⟨u, hu, h⟩ := applyRules_cons.mp h
    obtain ⟨x, hx, hw⟩ := applyRules_cons.mp h
    have hrs := (List.pairwise_cons.mp hapart).1 r List.mem_cons_self
    obtain ⟨u', hu', hx'⟩ := applyTokens_swap hrs hv hu hx
    exact applyRules_cons.mpr ⟨u', hu', applyRules_cons.mpr ⟨x, hx', hw⟩⟩
  | trans hperm _ ih ih' =>
    exact ih' ((hperm.pairwise_iff fun h => h.symm).mp hapart) hv (ih hapart hv h)

/-- Pointers and tokens determine each other, the check of a policy finds exactly the rules below a
rule that changes the record, and an accepted policy whose pointers use none of its public names
succeeds with a result in one order of its rules exactly if it does in any other. -/
theorem pointer_algebra (sensitiveText : String → Bool) (runId : String) (key : RunHmacKey) :
    (∀ tokens, validatePointer (pointerTo tokens) = .ok () ∧
      decodePointer (pointerTo tokens) = tokens) ∧
    (∀ pointer, validatePointer pointer = .ok () → pointerTo (decodePointer pointer) = pointer) ∧
    (∀ rules : List RedactionRule, (∀ rule ∈ rules, validatePointer rule.pointer = .ok ()) →
      (rules.map RedactionRule.pointer).Nodup →
      (containsUnsafeOverlaps (sortOn RedactionRule.pointer rules) = true ↔
        ∃ above ∈ rules, ∃ rule ∈ rules, above.action ≠ .keep ∧
          decodePointer above.pointer <+: decodePointer rule.pointer ∧
          decodePointer above.pointer ≠ decodePointer rule.pointer)) ∧
    ∀ policyId policyRevision keyGeneration rules policy,
      PrivacyPolicy.newVersioned sensitiveText policyId policyRevision keyGeneration rules =
        .ok policy →
      FreshNames runId policy key → ∀ (record : JsonValue) (order order' : List RedactionRule),
        order.Perm policy.rules → order'.Perm policy.rules → ∀ result,
          applyRules runId policy key order record.value = .ok result ↔
            applyRules runId policy key order' record.value = .ok result := by
  refine ⟨fun tokens => ⟨validatePointer_pointerTo tokens, decodePointer_pointerTo tokens⟩,
    fun pointer => pointerTo_decodePointer, ?_, ?_⟩
  · intro rules hvalid hdistinct
    have hperm := sortOn_perm RedactionRule.pointer rules
    rw [containsUnsafeOverlaps_iff (fun rule hrule => hvalid rule (hperm.mem_iff.mp hrule))
      ((hperm.map _).nodup_iff.mpr hdistinct)]
    simp only [mem_sortOn]
  · intro policyId policyRevision keyGeneration rules policy hpolicy hnames record order order'
      horder horder' result
    have hpairwise := hnames.pairwise (newVersioned_disjoint hpolicy)
    have hone : ∀ {order order' : List RedactionRule}, order.Perm policy.rules →
        order'.Perm policy.rules → applyRules runId policy key order record.value = .ok result →
        applyRules runId policy key order' record.value = .ok result := by
      intro order order' horder horder' h
      have hapart := (horder.pairwise_iff fun h => h.symm).mpr hpairwise
      exact applyRules_perm (horder.trans horder'.symm) hapart record.sorted h
    exact ⟨hone horder horder', hone horder' horder⟩

/-- A key under which every text has the same code. -/
def constantKey : RunHmacKey := ⟨fun _ => "code"⟩

def redacting (pointer : String) : RedactionRule := ⟨pointer, .internal, .placeholder, false, none⟩
def dropping (pointer : String) : RedactionRule := ⟨pointer, .secret, .drop, false, none⟩
def handling (pointer : String) : RedactionRule := ⟨pointer, .pii, .stableHandle, true, none⟩

/-- A member with a slash in its name, and an element of an array, in either order. -/
theorem member_and_element_in_either_order :
    let rules := [redacting "/a~1b", dropping "/c/0"]
    let policy : PrivacyPolicy := ⟨"policy", 1, "generation", rules⟩
    pointerTo (decodePointer "/a~1b") = "/a~1b" ∧
    (containsUnsafeOverlaps (sortOn RedactionRule.pointer rules) = true ↔
      ∃ above ∈ rules, ∃ rule ∈ rules, above.action ≠ .keep ∧
        decodePointer above.pointer <+: decodePointer rule.pointer ∧
        decodePointer above.pointer ≠ decodePointer rule.pointer) ∧
    ∀ (record : JsonValue) result,
      applyRules "run" policy constantKey rules record.value = .ok result ↔
        applyRules "run" policy constantKey rules.reverse record.value = .ok result := by
  intro rules policy
  have hpolicy : PrivacyPolicy.newVersioned (fun _ => false) "policy" 1 "generation" rules =
      .ok policy := by decide +kernel
  have hnames : ∀ r ∈ rules, ∀ s ∈ rules,
      redactedFieldName "run" policy constantKey r.pointer ∉ decodePointer s.pointer := by
    decide +kernel
  obtain ⟨-, hpointer, hoverlap, hrules⟩ := pointer_algebra (fun _ => false) "run" constantKey
  refine ⟨hpointer _ (by decide +kernel), hoverlap rules (by decide +kernel) (by decide +kernel), ?_⟩
  intro record result
  exact hrules _ _ _ _ policy hpolicy (fun r hr s hs _ => hnames r hr s hs) record rules
    rules.reverse (List.Perm.refl _) (List.reverse_perm _) result

/-- Which error is reported depends on the rule that fails first. -/
theorem first_failing_rule_reported :
    let rules := [redacting "/a", handling "/b"]
    let policy : PrivacyPolicy := ⟨"policy", 1, "generation", rules⟩
    let record : Json := .obj [("b", .null)]
    PrivacyPolicy.newVersioned (fun _ => false) "policy" 1 "generation" rules = .ok policy ∧
    applyRules "run" policy constantKey rules record = .error .unmatchedRule ∧
    applyRules "run" policy constantKey rules.reverse record = .error .invalidStableIdentifier := by
  decide +kernel

/-- A rule that names the field another rule writes finds it only after that rule. -/
theorem written_name_matched :
    let rules := [redacting "/a", redacting "/redacted-field-hmac-sha256:code"]
    let policy : PrivacyPolicy := ⟨"policy", 1, "generation", rules⟩
    let record : Json := .obj [("a", .null)]
    PrivacyPolicy.newVersioned (fun _ => false) "policy" 1 "generation" rules = .ok policy ∧
    (applyRules "run" policy constantKey rules record).isOk = true ∧
    applyRules "run" policy constantKey rules.reverse record = .error .unmatchedRule := by
  decide +kernel

end Orders

end SmeshDurable.Privacy
