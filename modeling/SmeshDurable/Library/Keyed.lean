import Mathlib.Algebra.BigOperators.Group.List.Basic
import Mathlib.Algebra.GroupWithZero.Nat
import Mathlib.Data.List.Nodup

/-!
# Tables of keyed rows

A table is a list of rows with a key. `put` replaces the row of a key; when keys
are unique, a row of the new table is either the one put in or an old row with
another key.
-/

universe u v

namespace Keyed

variable {Row : Type u} {Key : Type v} [DecidableEq Key] (key : Row → Key)

/-- Replace the row that has the key of `row`. -/
def put (rows : List Row) (row : Row) : List Row :=
  rows.map fun r => if key r = key row then row else r

/-- The row with a key. -/
def get? (rows : List Row) (k : Key) : Option Row := rows.find? fun r => decide (key r = k)

/-- No two rows share a key. -/
def Unique (rows : List Row) : Prop := (rows.map key).Nodup

variable {key} {rows : List Row} {row x y : Row} {k : Key}

theorem mem_put : x ∈ put key rows row ↔
    (x = row ∧ ∃ r ∈ rows, key r = key row) ∨ (x ∈ rows ∧ key x ≠ key row) := by
  simp only [put, List.mem_map]
  constructor
  · rintro ⟨r, hr, rfl⟩
    by_cases h : key r = key row
    · rw [if_pos h]
      exact .inl ⟨rfl, r, hr, h⟩
    · rw [if_neg h]
      exact .inr ⟨hr, h⟩
  · rintro (⟨rfl, r, hr, h⟩ | ⟨hx, h⟩)
    · exact ⟨r, hr, if_pos h⟩
    · exact ⟨x, hx, if_neg h⟩

/-- Putting back a row under the key of an old one: the new table has that row, and the
old rows with other keys. -/
theorem mem_put_of_mem {old : Row} (hold : old ∈ rows) (hkey : key row = key old) :
    x ∈ put key rows row ↔ x = row ∨ (x ∈ rows ∧ key x ≠ key old) := by
  rw [mem_put, hkey]
  constructor
  · rintro (⟨rfl, -⟩ | h)
    · exact .inl rfl
    · exact .inr h
  · rintro (rfl | h)
    · exact .inl ⟨rfl, old, hold, rfl⟩
    · exact .inr h

/-- Replacing a row does not change a column the new row shares with the row it replaces. -/
theorem map_put_of_agree {β : Type*} {f : Row → β}
    (h : ∀ r ∈ rows, key r = key row → f r = f row) :
    (put key rows row).map f = rows.map f := by
  simp only [put, List.map_map]
  refine List.map_congr_left fun r hr => ?_
  by_cases hk : key r = key row
  · simp [hk, h r hr hk]
  · simp [hk]

@[simp] theorem map_key_put : (put key rows row).map key = rows.map key :=
  map_put_of_agree fun _ _ h => h

theorem Unique.put (h : Unique key rows) : Unique key (put key rows row) := by
  rw [Unique, map_key_put]
  exact h

omit [DecidableEq Key] in
theorem Unique.eq_of_key (h : Unique key rows) (hx : x ∈ rows) (hy : y ∈ rows)
    (hkey : key x = key y) : x = y :=
  List.inj_on_of_nodup_map h hx hy hkey

omit [DecidableEq Key] in
/-- A row with a new key keeps the table unique. -/
theorem Unique.append (h : Unique key rows) (hnew : ∀ r ∈ rows, key r ≠ key row) :
    Unique key (rows ++ [row]) := by
  rw [Unique, List.map_append, List.nodup_append]
  refine ⟨h, by simp, ?_⟩
  intro a ha b hb
  obtain ⟨r, hr, rfl⟩ := List.mem_map.mp ha
  simp only [List.map_cons, List.map_nil, List.mem_singleton] at hb
  rw [hb]
  exact hnew r hr

/-- What holds of every row after one was put back. -/
theorem Unique.forall_mem_put {old : Row} {P : Row → Prop} (h : Unique key rows)
    (hold : old ∈ rows) (hkey : key row = key old) :
    (∀ x ∈ Keyed.put key rows row, P x) ↔ P row ∧ ∀ x ∈ rows, x ≠ old → P x := by
  constructor
  · intro hall
    refine ⟨hall row ((mem_put_of_mem hold hkey).mpr (.inl rfl)), fun x hx hne => ?_⟩
    refine hall x ((mem_put_of_mem hold hkey).mpr (.inr ⟨hx, fun hsame => hne ?_⟩))
    exact h.eq_of_key hx hold hsame
  · rintro ⟨hrow, hothers⟩ x hx
    rcases (mem_put_of_mem hold hkey).mp hx with rfl | ⟨hx, hne⟩
    · exact hrow
    · exact hothers x hx fun heq => hne (heq ▸ rfl)

/-- Every row of a table and the row of its key after one was put back. -/
theorem Unique.relates_put {old : Row} {R : Row → Row → Prop} (h : Unique key rows)
    (hold : old ∈ rows) (hkey : key row = key old) (hrefl : ∀ x, R x x) (hput : R old row) :
    ∀ x ∈ rows, ∃ x' ∈ Keyed.put key rows row, R x x' := by
  intro x hx
  by_cases hsame : key x = key old
  · obtain rfl := h.eq_of_key hx hold hsame
    exact ⟨row, (mem_put_of_mem hold hkey).mpr (.inl rfl), hput⟩
  · exact ⟨x, (mem_put_of_mem hold hkey).mpr (.inr ⟨hx, hsame⟩), hrefl x⟩

theorem mem_of_get? (h : get? key rows k = some x) : x ∈ rows := List.mem_of_find?_eq_some h

theorem key_of_get? (h : get? key rows k = some x) : key x = k := by
  simpa using List.find?_some h

theorem get?_eq_none : get? key rows k = none ↔ ∀ r ∈ rows, key r ≠ k := by
  simp [get?, List.find?_eq_none]

theorem Unique.get?_eq_some (h : Unique key rows) (hx : x ∈ rows) (hkey : key x = k) :
    get? key rows k = some x := by
  cases hfind : get? key rows k with
  | none => exact absurd hkey (get?_eq_none.mp hfind x hx)
  | some y =>
    rw [h.eq_of_key (mem_of_get? hfind) hx ((key_of_get? hfind).trans hkey.symm)]

/-- Changing rows in place changes the row of a key in place. -/
theorem get?_map {g : Row → Row} (hg : ∀ r ∈ rows, key (g r) = key r) (k : Key) :
    get? key (rows.map g) k = (get? key rows k).map g := by
  induction rows with
  | nil => rfl
  | cons r rest ih =>
    have hrest := ih fun x hx => hg x (List.mem_cons_of_mem r hx)
    unfold get? at hrest ⊢
    rw [List.map_cons, List.find?_cons, List.find?_cons, hg r List.mem_cons_self]
    cases decide (key r = k) with
    | true => rfl
    | false => exact hrest

theorem get?_append (others : List Row) (k : Key) :
    get? key (rows ++ others) k = (get? key rows k).or (get? key others k) :=
  List.find?_append

@[simp] theorem get?_singleton (row : Row) (k : Key) :
    get? key [row] k = if key row = k then some row else none := by
  by_cases h : key row = k <;> simp [get?, h]

omit [DecidableEq Key] in
theorem Unique.map {g : Row → Row} (h : Unique key rows) (hg : ∀ r ∈ rows, key (g r) = key r) :
    Unique key (rows.map g) := by
  have hkeys : (rows.map g).map key = rows.map key := by
    rw [List.map_map]
    exact List.map_congr_left hg
  rw [Unique, hkeys]
  exact h

omit [DecidableEq Key] in
/-- A query that only one key can answer finds the row of that key. -/
theorem Unique.find?_eq_some (h : Unique key rows) {p : Row → Bool} (hx : x ∈ rows)
    (hp : p x = true) (honly : ∀ y ∈ rows, p y = true → key y = key x) :
    rows.find? p = some x := by
  cases hfind : rows.find? p with
  | none => exact absurd hp (by simpa using List.find?_eq_none.mp hfind x hx)
  | some y =>
    have hy := List.mem_of_find?_eq_some hfind
    rw [h.eq_of_key hy hx (honly y hy (List.find?_some hfind))]

/-- Replacing a row moves a sum of a column by the difference of the two rows. -/
theorem sum_put {f : Row → Nat} {old : Row} (h : Unique key rows) (hold : old ∈ rows)
    (hkey : key row = key old) :
    ((put key rows row).map f).sum + f old = (rows.map f).sum + f row := by
  induction rows with
  | nil => cases hold
  | cons r rest ih =>
    rw [Unique, List.map_cons, List.nodup_cons] at h
    by_cases hr : r = old
    · -- the other rows have other keys, so they stay as they are
      subst hr
      have hrest : put key rest row = rest := by
        conv_rhs => rw [← List.map_id rest]
        refine List.map_congr_left fun x hx => if_neg fun heq => h.1 ?_
        rw [← hkey, ← heq]
        exact List.mem_map_of_mem hx
      have hput : put key (r :: rest) row = row :: rest := by
        rw [put, List.map_cons, if_pos hkey.symm]
        exact congrArg (row :: ·) hrest
      rw [hput]
      simp only [List.map_cons, List.sum_cons]
      omega
    · have hmem : old ∈ rest := (List.mem_cons.mp hold).resolve_left (Ne.symm hr)
      have hne : key r ≠ key row := fun heq => h.1 (by
        rw [heq, hkey]
        exact List.mem_map_of_mem hmem)
      have hrest := ih h.2 hmem
      have hput : put key (r :: rest) row = r :: put key rest row := by
        simp only [put, List.map_cons, if_neg hne]
      rw [hput]
      simp only [List.map_cons, List.sum_cons]
      omega

/-! ## The first row of an ordered query -/

section First

variable {α : Type u} {before : α → α → Bool} {l : List α} {a : α}

/-- The row that comes before the others; of rows that no order separates, the leftmost. -/
def first? (before : α → α → Bool) : List α → Option α
  | [] => none
  | a :: rest =>
    match first? before rest with
    | none => some a
    | some b => some (if before b a then b else a)

theorem first?_eq_none : first? before l = none ↔ l = [] := by
  cases l with
  | nil => simp [first?]
  | cons b rest =>
    rw [first?]
    cases first? before rest <;> simp

theorem mem_of_first? (h : first? before l = some a) : a ∈ l := by
  induction l generalizing a with
  | nil => simp [first?] at h
  | cons b rest ih =>
    rw [first?] at h
    cases hrest : first? before rest with
    | none =>
      rw [hrest, Option.some_inj] at h
      exact h ▸ List.mem_cons_self
    | some c =>
      rw [hrest, Option.some_inj] at h
      by_cases hbefore : before c b
      · rw [if_pos hbefore] at h
        exact List.mem_cons_of_mem _ (h ▸ ih hrest)
      · rw [if_neg hbefore] at h
        exact h ▸ List.mem_cons_self

end First

end Keyed
