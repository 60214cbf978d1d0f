import SmeshDurable.Memory.Accounting

/-!
# Pages of a frozen listing

The first page of a listing that does not fit one page is cut from a frozen list: the tasks
selected, ordered and projected as they were when the list was frozen.
-/

namespace SmeshDurable.Memory

open Transaction

/-! ## The order of a listing -/

/-- A listing may put the first task before the second. -/
abbrev Before (a b : Task) : Prop := listedBefore a b = true

instance : IsTrans Task Before where
  trans a b c hab hbc := by
    unfold Before listedBefore at *
    cases ha : a.status.timestamp <;> cases hb : b.status.timestamp <;>
      cases hc : c.status.timestamp <;>
      simp only [ha, hb, hc, Bool.or_eq_true, Bool.and_eq_true, decide_eq_true_eq,
        Bool.false_eq_true] at *
    · exact hab.trans hbc
    · rcases hab with hab | ⟨hab, hids⟩ <;> rcases hbc with hbc | ⟨hbc, hids'⟩
      · exact .inl (by omega)
      · exact .inl (by omega)
      · exact .inl (by omega)
      · exact .inr ⟨by omega, hids.trans hids'⟩

instance : Std.Total Before where
  total a b := by
    unfold Before listedBefore
    cases a.status.timestamp <;> cases b.status.timestamp <;> simp
    · exact le_total _ _
    · rename_i l r
      rcases lt_trichotomy l.nanos r.nanos with h | h | h
      · exact .inr (.inl h)
      · rcases le_total a.id b.id with hids | hids
        · exact .inl (.inr ⟨h.symm, hids⟩)
        · exact .inr (.inr ⟨h, hids⟩)
      · exact .inl (.inl h)

section Projection

variable {tasks tasks' : List Task} {request : ListTasksRequest}

/-- Tasks that come before each other are the same if their identifiers tell them apart. -/
theorem eq_of_listedBefore (h : Keyed.Unique Task.id tasks) {a b : Task} (ha : a ∈ tasks)
    (hb : b ∈ tasks) (hab : Before a b) (hba : Before b a) : a = b := by
  apply h.eq_of_key ha hb
  unfold Before listedBefore at hab hba
  cases hta : a.status.timestamp <;> cases htb : b.status.timestamp <;>
    simp only [hta, htb, Bool.or_eq_true, Bool.and_eq_true, decide_eq_true_eq,
      Bool.false_eq_true] at hab hba
  · exact le_antisymm hab hba
  · rcases hab with hab | ⟨hsame, hab⟩ <;> rcases hba with hba | ⟨hsame', hba⟩
    · omega
    · omega
    · omega
    · exact le_antisymm hab hba

/-- The order in which the map is visited does not matter. -/
theorem freezeProjection_perm (h : Keyed.Unique Task.id tasks) (hperm : tasks'.Perm tasks) :
    freezeProjection tasks' request = freezeProjection tasks request := by
  unfold freezeProjection
  congr 1
  have hsame : ((tasks'.filter (selected request)).insertionSort Before).Perm
      ((tasks.filter (selected request)).insertionSort Before) :=
    (List.perm_insertionSort _ _).trans
      ((hperm.filter _).trans (List.perm_insertionSort _ _).symm)
  apply List.Perm.eq_of_pairwise _ (List.pairwise_insertionSort Before _)
    (List.pairwise_insertionSort Before _) hsame
  intro a b ha hb hab hba
  apply eq_of_listedBefore h _ _ hab hba
  · have hmem := (List.mem_insertionSort Before).mp ha
    exact hperm.mem_iff.mp (List.mem_of_mem_filter hmem)
  · exact List.mem_of_mem_filter ((List.mem_insertionSort Before).mp hb)

end Projection

/-! ## Frozen listings -/

/-- The `k`-th page of a frozen listing, whose later pages have tokens. -/
def pageOf (frozen : List Task) (n : Nat) (token : Nat → String) (k : Nat) : ListTasksResponse :=
  { tasks := (frozen.drop (k * n)).take n
    nextPageToken := if (k + 1) * n < frozen.length then token k else ""
    pageSize := n
    totalSize := i32OfLength frozen.length }

section Frozen

variable [TaskCodec]

theorem decodeFrozen_of_freezeTask {task : Task} {bytes : List UInt8}
    (hcodec : ∀ task bytes, TaskCodec.encode task = some bytes → TaskCodec.decode bytes = some task)
    (h : freezeTask task = .ok bytes) : decodeFrozen bytes = .ok task := by
  unfold freezeTask at h
  cases hencode : TaskCodec.encode task with
  | none => simp [hencode] at h
  | some encoded =>
    obtain rfl : encoded = bytes := by simpa [hencode] using h
    rw [decodeFrozen, hcodec task encoded hencode]

/-- A snapshot that holds a listing of more than one page. -/
structure Holds (snapshot : MemorySnapshot) (frozen : List Task) (n : Nat)
    (token : Nat → String) : Prop where
  pos : 0 < n
  more : n < frozen.length
  pageSize : snapshot.pageSize = n
  tasks : frozen.mapM freezeTask = .ok snapshot.tasks
  tokens : snapshot.tokens =
    (List.range ((frozen.length - 1) / n)).map fun i => ((i + 1) * n, token i)
  token_size : ∀ i, (token i).utf8ByteSize = 43

omit [TaskCodec] in
theorem drawTokens_stepBy (ambient : Ambient) {n len : Nat} (hpos : 0 < n) (hlen : n < len) :
    drawTokens ambient (stepBy n len n) =
      (List.range ((len - 1) / n)).map fun i => ((i + 1) * n, ambient.token i) := by
  have hcount : (len - n + n - 1) / n = (len - 1) / n := by
    congr 1
    omega
  apply List.ext_getElem
  · simp [drawTokens, stepBy, hcount]
  · intro i h₁ h₂
    simp only [drawTokens, stepBy, List.getElem_map, List.getElem_zipIdx, List.getElem_range',
      List.getElem_range, Prod.mk.injEq, Nat.zero_add, and_true]
    rw [Nat.succ_mul, Nat.mul_comm, Nat.add_comm]

variable {snapshot : MemorySnapshot} {frozen : List Task} {n k : Nat} {token : Nat → String}

namespace Holds

theorem length_tasks (h : Holds snapshot frozen n token) :
    snapshot.tasks.length = frozen.length :=
  (mapM_eq_ok.mp h.tasks).length_eq.symm

omit [TaskCodec] in
/-- The pages after the first that are not empty have tokens. -/
theorem lt_div_iff {len i : Nat} (hpos : 0 < n) (hlen : n < len) :
    i < (len - 1) / n ↔ (i + 1) * n < len := by
  rw [Nat.lt_iff_add_one_le, Nat.le_div_iff_mul_le hpos]
  omega

/-- The token of the page that starts at a position, and none for the end of the list. -/
theorem nextToken (h : Holds snapshot frozen n token) :
    snapshot.nextToken (min (k * n + n) frozen.length) =
      if (k + 1) * n < frozen.length then token k else "" := by
  have hbound := fun i => lt_div_iff (i := i) h.pos h.more
  rw [MemorySnapshot.nextToken, h.tokens, List.find?_map, ← Nat.succ_mul]
  split
  next hmore =>
    rw [min_eq_left hmore.le]
    have hfind : (List.range ((frozen.length - 1) / n)).find?
        ((fun token => decide (token.1 = (k + 1) * n)) ∘ fun i => ((i + 1) * n, token i)) =
          some k := by
      rw [List.find?_range_eq_some]
      refine ⟨by simp, List.mem_range.mpr ((hbound k).mpr hmore), ?_⟩
      intro i hi
      have hne : (i + 1) * n ≠ (k + 1) * n := by
        rw [Ne, Nat.mul_left_inj h.pos.ne']
        omega
      simpa using hne
    rw [hfind]
    rfl
  next hmore =>
    rw [min_eq_right (not_lt.mp hmore)]
    have hfind : (List.range ((frozen.length - 1) / n)).find?
        ((fun token => decide (token.1 = frozen.length)) ∘ fun i => ((i + 1) * n, token i)) =
          none := by
      rw [List.find?_eq_none]
      intro i hi
      have hlt := (hbound i).mp (List.mem_range.mp hi)
      simpa using hlt.ne
    rw [hfind]
    rfl

/-- Pages are cut from the tasks as they were frozen. -/
theorem memoryPage_eq (h : Holds snapshot frozen n token)
    (hcodec : ∀ task bytes, TaskCodec.encode task = some bytes → TaskCodec.decode bytes = some task)
    (hk : k * n ≤ frozen.length) : memoryPage snapshot (k * n) = .ok (pageOf frozen n token k) := by
  have hdecodes : List.Forall₂ (fun bytes task => decodeFrozen bytes = .ok task)
      snapshot.tasks frozen := by
    apply List.Forall₂.flip
    apply (mapM_eq_ok.mp h.tasks).imp
    exact fun task bytes hfreeze => decodeFrozen_of_freezeTask hcodec hfreeze
  have hpage : ((snapshot.tasks.take (min (k * n + n) frozen.length)).drop (k * n)).mapM
      decodeFrozen = .ok ((frozen.drop (k * n)).take n) := by
    rw [mapM_eq_ok, List.drop_take]
    have hsame : (snapshot.tasks.drop (k * n)).take (min (k * n + n) frozen.length - k * n) =
        (snapshot.tasks.drop (k * n)).take n := by
      rw [List.take_eq_take_iff, List.length_drop, h.length_tasks]
      omega
    rw [hsame]
    exact List.forall₂_take _ (List.forall₂_drop _ hdecodes)
  have hn : (0 : Int) ≤ n := Int.natCast_nonneg n
  simp only [memoryPage, h.pageSize, toUsize, if_pos hn, Int.toNat_natCast, unwrap, h.length_tasks,
    bind_eq_ok, require_eq_ok, Except.ok.injEq]
  exact ⟨n, rfl, (), by omega, _, hpage, by rw [h.nextToken]; rfl⟩

end Holds

theorem holds_of_newSnapshot {l : Layout} {s : StoreState} {scope : CursorScope} {pageSize : Int}
    {tasks : List Task} {ambient : Ambient} {now : Nat} (hsize : 1 ≤ pageSize)
    (hmore : pageSize.toNat < tasks.length)
    (h : newSnapshot l s scope pageSize tasks ambient now = .ok snapshot) :
    Holds snapshot tasks pageSize.toNat ambient.token := by
  obtain ⟨-, hfrozen, hpage, -, -, htokens, -, -⟩ := newSnapshot_eq_ok h
  have hpos : 0 < pageSize.toNat := by omega
  refine ⟨hpos, hmore, ?_, hfrozen, ?_, ambient.token_size⟩
  · rw [hpage]
    omega
  · rw [htokens]
    exact drawTokens_stepBy ambient hpos hmore

end Frozen

theorem find?_push {snapshots : List (Nat × MemorySnapshot)} {id : Nat}
    {snapshot : MemorySnapshot} (hids : ∀ entry ∈ snapshots, entry.1 ≠ id) :
    (snapshots ++ [(id, snapshot)]).find? (·.1 = id) = some (id, snapshot) := by
  rw [List.find?_append, List.find?_eq_none.mpr]
  · simp
  · simpa using hids

/-! ## A sample -/

def sampleStore : BoundedTaskStore where
  maxTasks := 8
  layout := { slotBytes := 256, vecBytes := 24, tokenSlotBytes := 32, overheadBytes := 24,
              capacity := id, registry_fits := by decide }

/-- Tokens that differ in how many letters they start with. -/
def sampleAmbient : Ambient where
  clock := 0
  order := ⟨id, fun _ => .refl _⟩
  token i := String.ofList (List.replicate (min i 43) 'a' ++ List.replicate (43 - min i 43) 'b')
  snapshotId := 0
  token_size i := by
    rw [Checksum.utf8ByteSize_ofList_ascii]
    · simp
    · intro c hc
      rcases List.mem_append.mp hc with hc | hc <;> rw [List.eq_of_mem_replicate hc] <;> rfl

end SmeshDurable.Memory
