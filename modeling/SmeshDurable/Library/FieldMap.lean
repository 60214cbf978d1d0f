import Mathlib.Data.List.Nodup
import Mathlib.Data.String.Basic

/-!
# Maps of fields ordered by key

A map is a list of fields whose keys increase. Two maps with the same value under every key are
equal, so the effect of an edit is what it does to the values under the keys, and edits of two
fields can be made in either order unless one of them gives its field the name of the other.
-/

namespace FieldMap

variable {α : Type} {fields fields' : List (String × α)} {key k : String} {value : α}

/-- The keys increase. -/
def Ordered (fields : List (String × α)) : Prop := (fields.map Prod.fst).Pairwise (· < ·)

/-- Replace the value of a field. -/
def put (key : String) (value : α) (fields : List (String × α)) : List (String × α) :=
  fields.map fun field => if field.1 = key then (key, value) else field

def erase (key : String) (fields : List (String × α)) : List (String × α) :=
  fields.filter fun field => field.1 ≠ key

/-- Add a field with a new key. -/
def insert (key : String) (value : α) : List (String × α) → List (String × α)
  | [] => [(key, value)]
  | field :: rest =>
    if key < field.1 then (key, value) :: field :: rest else field :: insert key value rest

/-! ## Values under keys -/

theorem lookup_cons_eq (field : String × α) (rest : List (String × α)) (k : String) :
    (field :: rest).lookup k = if k = field.1 then some field.2 else rest.lookup k := by
  rw [List.lookup_cons]
  split
  next h => rw [if_pos (eq_of_beq h)]
  next h => rw [if_neg (ne_of_beq_false h)]

theorem lookup_put : (put key value fields).lookup k =
    if k = key then (fields.lookup key).map fun _ => value else fields.lookup k := by
  induction fields with
  | nil => simp [put]
  | cons field rest ih =>
    rw [put, List.map_cons, lookup_cons_eq, lookup_cons_eq, lookup_cons_eq]
    rw [put] at ih
    by_cases hfield : field.1 = key
    · rw [if_pos hfield, if_pos hfield.symm, Option.map_some]
      by_cases hk : k = key
      · rw [if_pos hk, if_pos hk]
      · rw [if_neg hk, if_neg hk, if_neg (fun h => hk (h.trans hfield)), ih, if_neg hk]
    · rw [if_neg hfield, if_neg (Ne.symm hfield), ih]
      by_cases hk : k = key
      · rw [if_neg (fun h => hfield (h.symm.trans hk)), if_pos hk, if_pos hk]
      · rw [if_neg hk, if_neg hk]

theorem lookup_erase : (erase key fields).lookup k = if k = key then none else fields.lookup k := by
  induction fields with
  | nil => simp [erase]
  | cons field rest ih =>
    rw [erase] at ih ⊢
    by_cases hfield : field.1 = key
    · rw [List.filter_cons_of_neg (by simpa using hfield), ih, lookup_cons_eq]
      by_cases hk : k = key
      · rw [if_pos hk, if_pos hk]
      · rw [if_neg hk, if_neg hk, if_neg (fun h => hk (h.trans hfield))]
    · rw [List.filter_cons_of_pos (by simpa using hfield), lookup_cons_eq, lookup_cons_eq, ih]
      by_cases hk : k = key
      · rw [if_pos hk, if_pos hk, if_neg (fun h => hfield (h.symm.trans hk))]
      · rw [if_neg hk, if_neg hk]

theorem lookup_insert (h : fields.lookup key = none) :
    (insert key value fields).lookup k = if k = key then some value else fields.lookup k := by
  induction fields with
  | nil => rw [insert, lookup_cons_eq]
  | cons field rest ih =>
    rw [lookup_cons_eq] at h
    split at h
    · cases h
    · rw [insert]
      split
      · rw [lookup_cons_eq]
      · rw [lookup_cons_eq, lookup_cons_eq, ih h]
        by_cases hk : k = key
        · rw [if_pos hk, if_pos hk, if_neg (fun heq => ‹¬ key = field.1› (hk.symm.trans heq))]
        · rw [if_neg hk, if_neg hk]

/-! ## Order -/

theorem ordered_cons {field : String × α} {rest : List (String × α)} :
    Ordered (field :: rest) ↔ (∀ other ∈ rest, field.1 < other.1) ∧ Ordered rest := by
  rw [Ordered, List.map_cons, List.pairwise_cons, List.forall_mem_map]
  rfl

theorem ordered_put (h : Ordered fields) : Ordered (put key value fields) := by
  have hkeys : (put key value fields).map Prod.fst = fields.map Prod.fst := by
    rw [put, List.map_map]
    apply List.map_congr_left
    intro field _
    rw [Function.comp_apply]
    split
    · exact Eq.symm ‹_›
    · rfl
  rwa [Ordered, hkeys]

theorem ordered_erase (h : Ordered fields) : Ordered (erase key fields) :=
  List.Pairwise.sublist (List.filter_sublist.map _) h

theorem mem_insert {field : String × α} :
    field ∈ insert key value fields ↔ field = (key, value) ∨ field ∈ fields := by
  induction fields with
  | nil => simp [insert]
  | cons head rest ih =>
    rw [insert]
    split
    · exact List.mem_cons
    · rw [List.mem_cons, ih, List.mem_cons, or_left_comm]

theorem ordered_insert (h : Ordered fields) (hkey : fields.lookup key = none) :
    Ordered (insert key value fields) := by
  induction fields with
  | nil => exact List.pairwise_singleton _ _
  | cons field rest ih =>
    obtain ⟨hfield, hrest⟩ := ordered_cons.mp h
    rw [lookup_cons_eq] at hkey
    split at hkey
    · cases hkey
    · rw [insert]
      split
      next hlt =>
        refine ordered_cons.mpr ⟨fun other hother => ?_, h⟩
        rcases List.mem_cons.mp hother with rfl | hother
        · exact hlt
        · exact hlt.trans (hfield other hother)
      next hle =>
        refine ordered_cons.mpr ⟨fun other hother => ?_, ih hrest hkey⟩
        rcases mem_insert.mp hother with rfl | hother
        · exact lt_of_le_of_ne (le_of_not_gt hle) (Ne.symm ‹_›)
        · exact hfield other hother

theorem mem_iff_lookup (h : Ordered fields) : (k, value) ∈ fields ↔ fields.lookup k = some value := by
  induction fields with
  | nil => simp
  | cons field rest ih =>
    obtain ⟨hfield, hrest⟩ := ordered_cons.mp h
    rw [List.mem_cons, ih hrest, lookup_cons_eq]
    by_cases hk : k = field.1
    · rw [if_pos hk, Option.some.injEq, ← ih hrest]
      constructor
      · rintro (rfl | hmem)
        · rfl
        · exact absurd hk (ne_of_gt (hfield _ hmem))
      · rintro rfl
        exact .inl (by rw [hk])
    · rw [if_neg hk]
      refine or_iff_right ?_
      rintro rfl
      exact hk rfl

/-- The values under the keys determine a map. -/
theorem eq_of_lookup (h : Ordered fields) (h' : Ordered fields')
    (hlookup : ∀ k, fields.lookup k = fields'.lookup k) : fields = fields' := by
  have hpairs : fields.Pairwise fun a b => a.1 < b.1 := List.pairwise_map.mp h
  have hpairs' : fields'.Pairwise fun a b => a.1 < b.1 := List.pairwise_map.mp h'
  have hperm : fields.Perm fields' := by
    rw [List.perm_ext_iff_of_nodup (List.Nodup.of_map _ (h.imp ne_of_lt))
      (List.Nodup.of_map _ (h'.imp ne_of_lt))]
    intro field
    rw [mem_iff_lookup h, mem_iff_lookup h', hlookup]
  exact List.Perm.eq_of_pairwise (fun a b _ _ hab hba => absurd hab (lt_asymm hba)) hpairs hpairs' hperm

/-! ## Edits -/

/-- What happens to a field. -/
inductive Edit (α : Type)
  | put (value : α)
  | remove
  | rename (name : String) (value : α)

/-- A field is not given the name of another one. -/
def edit (key : String) (fields : List (String × α)) : Edit α → Option (List (String × α))
  | .put value => some (put key value fields)
  | .remove => some (erase key fields)
  | .rename name value =>
    if (erase key fields).lookup name = none then some (insert name value (erase key fields))
    else none

namespace Edit

/-- The new name of the field. -/
def name? : Edit α → Option String
  | .rename name _ => some name
  | _ => none

/-- The new value of the field. -/
def value? : Edit α → Option α
  | .put value => some value
  | .remove => none
  | .rename _ value => some value

/-- What the edit of a field leaves under a key. -/
def under (key k : String) (old : Option α) (e : Edit α) : Option α :=
  if k = e.name?.getD key then e.value? else if k = key then none else old

end Edit

variable {e : Edit α}

theorem if_congr_same {β : Type} (k key : String) {x y z : β} :
    (if k = key then x else if k = key then y else z) = if k = key then x else z := by
  split <;> rfl

/-- An edit fails only if the new name is that of another field. -/
theorem edit_isSome_iff :
    (∃ fields', edit key fields e = some fields') ↔
      ∀ name ∈ e.name?, name = key ∨ fields.lookup name = none := by
  cases e with
  | put value => simp [edit, Edit.name?]
  | remove => simp [edit, Edit.name?]
  | rename name value =>
    rw [edit, lookup_erase]
    simp only [Edit.name?, Option.mem_some_iff, forall_eq']
    by_cases hname : name = key
    · simp only [hname, if_true, true_or, iff_true]
      exact ⟨_, rfl⟩
    · by_cases hnone : fields.lookup name = none <;> simp only [hname, hnone, if_false, if_true,
        false_or, iff_true, iff_false, not_exists, reduceCtorEq, not_false_eq_true, implies_true]
      exact ⟨_, rfl⟩

theorem edit_rename {name : String} (h : edit key fields (.rename name value) = some fields') :
    (erase key fields).lookup name = none ∧ fields' = insert name value (erase key fields) := by
  rw [edit] at h
  split at h
  · exact ⟨‹_›, (Option.some.inj h).symm⟩
  · cases h

theorem lookup_edit (h : edit key fields e = some fields') (hkey : (fields.lookup key).isSome)
    (k : String) : fields'.lookup k = e.under key k (fields.lookup k) := by
  cases e with
  | put value =>
    obtain rfl := Option.some.inj h
    obtain ⟨old, hold⟩ := Option.isSome_iff_exists.mp hkey
    rw [lookup_put, hold, Option.map_some]
    exact (if_congr_same k key).symm
  | remove =>
    obtain rfl := Option.some.inj h
    rw [lookup_erase]
    exact (if_congr_same k key).symm
  | rename name value =>
    obtain ⟨hname, rfl⟩ := edit_rename h
    rw [lookup_insert hname, lookup_erase]
    rfl

theorem ordered_edit (h : edit key fields e = some fields') (hfields : Ordered fields) :
    Ordered fields' := by
  cases e with
  | put value =>
    obtain rfl := Option.some.inj h
    exact ordered_put hfields
  | remove =>
    obtain rfl := Option.some.inj h
    exact ordered_erase hfields
  | rename name value =>
    obtain ⟨hname, rfl⟩ := edit_rename h
    exact ordered_insert (ordered_erase hfields) hname

theorem mem_edit (h : edit key fields e = some fields') {field : String × α}
    (hfield : field ∈ fields') : field ∈ fields ∨ field.2 ∈ e.value? := by
  cases e with
  | put value =>
    obtain rfl := Option.some.inj h
    obtain ⟨old, hold, heq⟩ := List.mem_map.mp hfield
    split at heq
    · exact .inr (by rw [← heq]; rfl)
    · exact .inl (heq ▸ hold)
  | remove =>
    obtain rfl := Option.some.inj h
    exact .inl (List.mem_of_mem_filter hfield)
  | rename name value =>
    obtain ⟨-, rfl⟩ := edit_rename h
    rcases mem_insert.mp hfield with rfl | hfield
    · exact .inr rfl
    · exact .inl (List.mem_of_mem_filter hfield)

/-! ## Edits of two fields -/

/-- The field under a key is edited as a relation says. -/
def Edits (rel : α → Edit α → Prop) (key : String) (fields fields' : List (String × α)) : Prop :=
  ∃ value e, fields.lookup key = some value ∧ rel value e ∧ edit key fields e = some fields'

variable {rel rel' : α → Edit α → Prop} {a b : String} {mid : List (String × α)}

/-- The value under the key of another field stays. -/
theorem lookup_of_edit (h : edit a fields e = some fields') (hkey : (fields.lookup a).isSome)
    (hne : b ≠ a) (hname : e.name? ≠ some b) : fields'.lookup b = fields.lookup b := by
  rw [lookup_edit h hkey, Edit.under, if_neg hne, if_neg]
  cases hnew : e.name? with
  | none => exact hne
  | some name =>
    rintro rfl
    exact hname hnew

/-- A key that leads nowhere after the edit of another field led nowhere before. -/
theorem lookup_none_of_edit (h : edit a fields e = some fields') (hkey : (fields.lookup a).isSome)
    (hne : k ≠ a) (hnone : fields'.lookup k = none) : e.name? ≠ some k ∧ fields.lookup k = none := by
  have hname : e.name? ≠ some k := by
    intro hname
    rw [lookup_edit h hkey, Edit.under, hname, Option.getD_some, if_pos rfl] at hnone
    cases e with
    | put value => cases hname
    | remove => cases hname
    | rename name value => cases hnone
  exact ⟨hname, by rw [← lookup_of_edit h hkey hne hname, hnone]⟩

theorem under_comm {f : Edit α} (hne : a ≠ b) (he : e.name? ≠ some b) (hf : f.name? ≠ some a)
    (hnames : ∀ name ∈ e.name?, f.name? ≠ some name) (k : String) (old : Option α) :
    e.under a k (f.under b k old) = f.under b k (e.under a k old) := by
  have hb : e.name?.getD a ≠ b := by
    cases hname : e.name? with
    | none => exact hne
    | some name =>
      rintro rfl
      exact he hname
  have ha : f.name?.getD b ≠ a := by
    cases hname : f.name? with
    | none => exact hne.symm
    | some name =>
      rintro rfl
      exact hf hname
  have hab : e.name?.getD a ≠ f.name?.getD b := by
    cases hname : e.name? with
    | none => exact ha.symm
    | some name =>
      cases hname' : f.name? with
      | none => exact fun h => he (hname.trans (congrArg some h))
      | some other =>
        rintro rfl
        exact hnames _ hname hname'
  simp only [Edit.under]
  generalize e.name?.getD a = a' at hb hab ⊢
  generalize f.name?.getD b = b' at ha hab ⊢
  -- Only one of the four keys can be the one asked for.
  by_cases h₁ : k = a'
  · subst h₁
    rw [if_pos rfl, if_neg hab, if_neg hb, if_pos rfl]
  · by_cases h₂ : k = b'
    · subst h₂
      rw [if_neg h₁, if_neg ha, if_pos rfl, if_pos rfl]
    · by_cases h₃ : k = a
      · subst h₃
        rw [if_neg h₁, if_pos rfl, if_neg h₂, if_neg hne, if_neg h₁, if_pos rfl]
      · rw [if_neg h₁, if_neg h₃, if_neg h₂, if_neg h₁, if_neg h₃, if_neg h₂]

/-- Edits of two fields swap, if none of them is given the name of the other. -/
theorem Edits.swap (hne : a ≠ b) (hrel : ∀ v e, rel v e → e.name? ≠ some b)
    (hrel' : ∀ v e, rel' v e → e.name? ≠ some a) (hfields : Ordered fields)
    (h : Edits rel a fields mid) (h' : Edits rel' b mid fields') :
    ∃ mid, Edits rel' b fields mid ∧ Edits rel a mid fields' := by
  obtain ⟨v, e, hv, he, hmid⟩ := h
  obtain ⟨w, f, hw, hf, hend⟩ := h'
  have heb := hrel v e he
  have hfa := hrel' w f hf
  have hva : (fields.lookup a).isSome := by rw [hv]; rfl
  have hwb : (mid.lookup b).isSome := by rw [hw]; rfl
  have hb : mid.lookup b = fields.lookup b := lookup_of_edit hmid hva hne.symm heb
  have hwb' : (fields.lookup b).isSome := by rw [← hb, hw]; rfl
  -- The new name of the second field is not that of the first, and was free before.
  have hfree : ∀ name ∈ f.name?, name = b ∨ (e.name? ≠ some name ∧ fields.lookup name = none) := by
    intro name hname
    refine (edit_isSome_iff.mp ⟨_, hend⟩ name hname).imp_right fun hnone => ?_
    exact lookup_none_of_edit hmid hva (fun heq => hfa (hname.trans (congrArg some heq))) hnone
  have hnames : ∀ name ∈ e.name?, f.name? ≠ some name := by
    intro name hname hname'
    rcases hfree name hname' with rfl | ⟨hother, -⟩
    · exact heb hname
    · exact hother hname
  obtain ⟨other, hother⟩ : ∃ other, edit b fields f = some other :=
    edit_isSome_iff.mpr fun name hname => (hfree name hname).imp_right And.right
  have ha : other.lookup a = fields.lookup a := lookup_of_edit hother hwb' hne hfa
  have hva' : (other.lookup a).isSome := by rw [ha, hv]; rfl
  obtain ⟨final, hfinal⟩ : ∃ final, edit a other e = some final := by
    refine edit_isSome_iff.mpr fun name hname => ?_
    refine (edit_isSome_iff.mp ⟨_, hmid⟩ name hname).imp_right fun hnone => ?_
    rw [lookup_of_edit hother hwb' (fun heq => heb (hname.trans (congrArg some heq)))
      (hnames name hname), hnone]
  refine ⟨other, ⟨w, f, by rw [← hb, hw], hf, hother⟩, v, e, by rw [ha, hv], he, ?_⟩
  rw [hfinal, Option.some.injEq]
  apply eq_of_lookup (ordered_edit hfinal (ordered_edit hother hfields))
    (ordered_edit hend (ordered_edit hmid hfields))
  intro k
  rw [lookup_edit hfinal hva', lookup_edit hother hwb', lookup_edit hend hwb, lookup_edit hmid hva,
    under_comm hne heb hfa hnames]

/-- Replacements of one value swap if what they do to the value swaps. -/
theorem Edits.swap_put {step step' : α → α → Prop} (hfields : Ordered fields)
    (hrel : ∀ v e, rel v e ↔ ∃ v', step v v' ∧ e = .put v')
    (hrel' : ∀ v e, rel' v e ↔ ∃ v', step' v v' ∧ e = .put v')
    (hswap : ∀ v u w, fields.lookup a = some v → step v u → step' u w → ∃ u', step' v u' ∧ step u' w)
    (h : Edits rel a fields mid) (h' : Edits rel' a mid fields') :
    ∃ mid, Edits rel' a fields mid ∧ Edits rel a mid fields' := by
  obtain ⟨v, e, hv, he, hmid⟩ := h
  obtain ⟨u, f, hu, hf, hend⟩ := h'
  obtain ⟨u', hu', rfl⟩ := (hrel v e).mp he
  obtain ⟨w, hw, rfl⟩ := (hrel' u f).mp hf
  obtain rfl := Option.some.inj hmid
  obtain rfl := Option.some.inj hend
  rw [lookup_put, if_pos rfl, hv, Option.map_some, Option.some.injEq] at hu
  subst hu
  obtain ⟨x, hx, hxw⟩ := hswap v u' w hv hu' hw
  refine ⟨put a x fields, ⟨v, .put x, hv, (hrel' v _).mpr ⟨x, hx, rfl⟩, rfl⟩, x, .put w, ?_,
    (hrel x _).mpr ⟨w, hxw, rfl⟩, ?_⟩
  · rw [lookup_put, if_pos rfl, hv, Option.map_some]
  · rw [edit, Option.some.injEq]
    apply eq_of_lookup (ordered_put (ordered_put hfields)) (ordered_put (ordered_put hfields))
    intro k
    simp only [lookup_put, if_true, hv, Option.map_some]
    split <;> rfl

end FieldMap
