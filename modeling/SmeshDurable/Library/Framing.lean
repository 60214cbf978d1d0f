import Mathlib.Algebra.GroupWithZero.Nat
import Mathlib.Data.List.Induction
import Mathlib.Logic.Function.Basic

/-!
# Framings

Ways to write several fields behind each other so that they can be told apart again: words of a
fixed length, words led by their length, words closed by a separator, and fields joined by a
separator that they do not contain.
-/

namespace Framing

variable {α β ι σ : Type*}

/-! ## Self-delimiting codes -/

/-- The words of a code can be read off the front of any text. -/
def SelfDelimiting (code : α → List σ) : Prop :=
  ∀ ⦃a b : α⦄ ⦃rest rest' : List σ⦄, code a ++ rest = code b ++ rest' → a = b ∧ rest = rest'

theorem SelfDelimiting.injective {code : α → List σ} (h : SelfDelimiting code) :
    Function.Injective code := by
  intro a b hab
  have heq : code a ++ [] = code b ++ [] := by rw [hab]
  exact (h heq).1

theorem SelfDelimiting.comp {code : α → List σ} (h : SelfDelimiting code) (f : β → α)
    (hf : Function.Injective f) : SelfDelimiting fun b => code (f b) := by
  intro a b rest rest' heq
  obtain ⟨hab, hrest⟩ := h heq
  exact ⟨hf hab, hrest⟩

theorem selfDelimiting_of_length {code : α → List σ} (hcode : Function.Injective code) {n : Nat}
    (hlength : ∀ a, (code a).length = n) : SelfDelimiting code := by
  intro a b rest rest' heq
  obtain ⟨hab, hrest⟩ := List.append_inj heq ((hlength a).trans (hlength b).symm)
  exact ⟨hcode hab, hrest⟩

/-- Words led by a header that tells their length. -/
theorem SelfDelimiting.framed {header : ι → List σ} (hheader : SelfDelimiting header) (size : α → ι)
    {word : α → List σ} (hword : Function.Injective word)
    (hsize : ∀ a b, size a = size b → (word a).length = (word b).length) :
    SelfDelimiting fun a => header (size a) ++ word a := by
  intro a b rest rest' heq
  rw [List.append_assoc, List.append_assoc] at heq
  obtain ⟨hab, heq⟩ := hheader heq
  obtain ⟨hwords, hrest⟩ := List.append_inj heq (hsize a b hab)
  exact ⟨hword hwords, hrest⟩

/-- Any number of words behind each other. -/
theorem SelfDelimiting.flatMap_injective {code : α → List σ} (h : SelfDelimiting code)
    (hcode : ∀ a, code a ≠ []) : Function.Injective fun words : List α => words.flatMap code := by
  intro words
  induction words with
  | nil =>
    intro words' heq
    cases words' with
    | nil => rfl
    | cons word rest =>
      have hnil := List.append_eq_nil_iff.mp (heq.symm.trans List.flatMap_nil)
      exact absurd hnil.1 (hcode word)
  | cons word words ih =>
    intro words' heq
    cases words' with
    | nil =>
      have hnil := List.append_eq_nil_iff.mp (heq.trans List.flatMap_nil)
      exact absurd hnil.1 (hcode word)
    | cons word' words' =>
      obtain ⟨hword, hwords⟩ := h heq
      rw [hword, ih hwords]

/-! ## Separators -/

/-- A separator ends what does not contain it. -/
theorem cons_inj_left {sep : σ} {a a' b b' : List σ} (ha : sep ∉ a) (ha' : sep ∉ a')
    (h : a ++ sep :: b = a' ++ sep :: b') : a = a' ∧ b = b' := by
  induction a generalizing a' with
  | nil =>
    cases a' with
    | nil => exact ⟨rfl, (List.cons.inj h).2⟩
    | cons c a' => exact absurd (List.cons.inj h).1 (List.ne_of_not_mem_cons ha')
  | cons c a ih =>
    cases a' with
    | nil => exact absurd (List.cons.inj h).1.symm (List.ne_of_not_mem_cons ha)
    | cons c' a' =>
      obtain ⟨rfl, htail⟩ := List.cons.inj h
      obtain ⟨rfl, hb⟩ := ih (List.not_mem_of_not_mem_cons ha) (List.not_mem_of_not_mem_cons ha')
        htail
      exact ⟨rfl, hb⟩

theorem cons_inj_right {sep : σ} {a a' b b' : List σ} (hb : sep ∉ b) (hb' : sep ∉ b')
    (h : a ++ sep :: b = a' ++ sep :: b') : a = a' ∧ b = b' := by
  have hreverse := congrArg List.reverse h
  simp only [List.reverse_append, List.reverse_cons, List.append_assoc, List.singleton_append]
    at hreverse
  obtain ⟨hbs, has⟩ := cons_inj_left (mt List.mem_reverse.mp hb) (mt List.mem_reverse.mp hb')
    hreverse
  exact ⟨List.reverse_inj.mp has, List.reverse_inj.mp hbs⟩

theorem selfDelimiting_terminated {sep : σ} {word : α → List σ} (hword : Function.Injective word)
    (hfree : ∀ a, sep ∉ word a) : SelfDelimiting fun a => word a ++ [sep] := by
  intro a b rest rest' heq
  rw [List.append_assoc, List.append_assoc] at heq
  obtain ⟨hab, hrest⟩ := cons_inj_left (hfree a) (hfree b) heq
  exact ⟨hword hab, hrest⟩

theorem intercalate_cons {sep field : List σ} {fields : List (List σ)} (h : fields ≠ []) :
    sep.intercalate (field :: fields) = field ++ (sep ++ sep.intercalate fields) := by
  rw [List.intercalate_cons_of_ne_nil h, List.append_assoc]

theorem intercalate_concat {sep field : List σ} {fields : List (List σ)} (h : fields ≠ []) :
    sep.intercalate (fields ++ [field]) = sep.intercalate fields ++ (sep ++ field) := by
  induction fields with
  | nil => exact absurd rfl h
  | cons first fields ih =>
    cases fields with
    | nil => simp [List.intercalate_cons_cons]
    | cons next rest =>
      have hrest : next :: rest ≠ [] := by simp
      rw [List.cons_append, intercalate_cons (by simp), ih hrest, intercalate_cons hrest]
      simp only [List.append_assoc]

/-- Joined fields can be told apart if at most one of them, at a fixed place, has the separator. -/
theorem intercalate_inj {sep : σ} {left left' right right' : List (List σ)} {middle middle' : List σ}
    (hleft : ∀ field ∈ left, sep ∉ field) (hleft' : ∀ field ∈ left', sep ∉ field)
    (hright : ∀ field ∈ right, sep ∉ field) (hright' : ∀ field ∈ right', sep ∉ field)
    (hlefts : left.length = left'.length) (hrights : right.length = right'.length)
    (h : [sep].intercalate (left ++ middle :: right) = [sep].intercalate (left' ++ middle' :: right')) :
    left = left' ∧ middle = middle' ∧ right = right' := by
  induction left generalizing left' with
  | nil =>
    obtain rfl := List.length_eq_zero_iff.mp hlefts.symm
    refine ⟨rfl, ?_⟩
    rw [List.nil_append, List.nil_append] at h
    -- the fields behind the middle are cut off from the end
    induction right using List.reverseRecOn generalizing right' with
    | nil =>
      obtain rfl := List.length_eq_zero_iff.mp hrights.symm
      rw [List.intercalate_singleton, List.intercalate_singleton] at h
      exact ⟨h, rfl⟩
    | append_singleton right field ih =>
      obtain ⟨right', field', rfl⟩ : ∃ init last, right' = init ++ [last] := by
        have hne : right' ≠ [] := by
          rintro rfl
          simp at hrights
        exact ⟨right'.dropLast, right'.getLast hne, (List.dropLast_concat_getLast hne).symm⟩
      rw [← List.cons_append, ← List.cons_append, intercalate_concat (by simp),
        intercalate_concat (by simp)] at h
      obtain ⟨hinit, rfl⟩ := cons_inj_right (hright field (by simp)) (hright' field' (by simp)) h
      obtain ⟨hmiddle, rfl⟩ := ih (fun f hf => hright f (by simp [hf]))
        (fun f hf => hright' f (by simp [hf])) (by simpa using hrights) hinit
      exact ⟨hmiddle, rfl⟩
  | cons field left ih =>
    cases left' with
    | nil => cases hlefts
    | cons field' left' =>
      rw [List.cons_append, List.cons_append, intercalate_cons (by simp),
        intercalate_cons (by simp)] at h
      obtain ⟨rfl, htail⟩ := cons_inj_left (hleft field (by simp)) (hleft' field' (by simp)) h
      obtain ⟨rfl, hrest⟩ := ih (fun f hf => hleft f (by simp [hf]))
        (fun f hf => hleft' f (by simp [hf])) (by simpa using hlefts) htail
      exact ⟨rfl, hrest⟩

/-- All ways to cut a text at a separator. -/
def cuts [DecidableEq σ] (sep : σ) : List σ → List (List σ × List σ)
  | [] => []
  | c :: rest =>
    (if c = sep then [([], rest)] else []) ++ (cuts sep rest).map fun cut => (c :: cut.1, cut.2)

theorem mem_cuts [DecidableEq σ] {sep : σ} {text before after : List σ} :
    (before, after) ∈ cuts sep text ↔ text = before ++ sep :: after := by
  induction text generalizing before with
  | nil => simp [cuts]
  | cons c rest ih =>
    rw [cuts, List.mem_append, List.mem_map]
    constructor
    · rintro (hcut | ⟨⟨before', after'⟩, hcut, heq⟩)
      · split at hcut
        next hsep =>
          obtain ⟨rfl, rfl⟩ := Prod.mk.inj (List.mem_singleton.mp hcut)
          rw [hsep, List.nil_append]
        next => cases hcut
      · obtain ⟨rfl, rfl⟩ := Prod.mk.inj heq
        rw [ih.mp hcut, List.cons_append]
    · intro heq
      cases before with
      | nil =>
        obtain ⟨rfl, rfl⟩ := List.cons.inj heq
        exact Or.inl (by simp)
      | cons c' before =>
        obtain ⟨rfl, hrest⟩ := List.cons.inj heq
        exact Or.inr ⟨(before, after), ih.mpr hrest, rfl⟩

/-! ## Big-endian words -/

/-- The last bytes of a number, the most significant first. -/
def bigEndian : Nat → Nat → List UInt8
  | 0, _ => []
  | width + 1, n => UInt8.ofNat (n / 256 ^ width) :: bigEndian width n

@[simp] theorem length_bigEndian (width n : Nat) : (bigEndian width n).length = width := by
  induction width with
  | zero => rfl
  | succ width ih => rw [bigEndian, List.length_cons, ih]

theorem bigEndian_inj {width n m : Nat} (h : bigEndian width n = bigEndian width m) :
    n % 256 ^ width = m % 256 ^ width := by
  induction width with
  | zero => rw [Nat.pow_zero, Nat.mod_one, Nat.mod_one]
  | succ width ih =>
    obtain ⟨hhead, htail⟩ := List.cons.inj h
    have hdigit : n / 256 ^ width % 256 = m / 256 ^ width % 256 := by
      have hnat := congrArg UInt8.toNat hhead
      rwa [UInt8.toNat_ofNat', UInt8.toNat_ofNat'] at hnat
    rw [Nat.mod_pow_succ, Nat.mod_pow_succ, ih htail, hdigit]

theorem selfDelimiting_bigEndian (width : Nat) :
    SelfDelimiting fun n : Fin (256 ^ width) => bigEndian width n := by
  refine selfDelimiting_of_length ?_ fun n => length_bigEndian width n
  intro n m h
  have hmod := bigEndian_inj h
  rw [Nat.mod_eq_of_lt n.isLt, Nat.mod_eq_of_lt m.isLt] at hmod
  exact Fin.ext hmod

end Framing
