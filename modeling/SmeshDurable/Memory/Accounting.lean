import SmeshDurable.Memory.TaskStore
import Mathlib.Algebra.Order.BigOperators.Group.List

/-!
# Snapshot accounting

The byte counter of the registry is the cost of the registry and of the snapshots in it, at
every point of every run, whatever is requested and whatever the clock reads. So the sweep never
takes off more than is there, the limits hold, and nothing that the listing unwraps or slices is
missing.
-/

namespace SmeshDurable.Memory

open Transaction Relation

section Effect

variable [TaskCodec] {l : Layout} {s s' : StoreState} {now : Nat} {request : ListTasksRequest}
  {ambient : Ambient} {scope : CursorScope} {pageSize : Int}

/-! ## What a call does -/

/-- The instant a listing happens at: the clock, or the latest one observed if it went back. -/
def instant (s : StoreState) (ambient : Ambient) : Nat := max ambient.clock s.observedNow

/-- The state a listing starts from: the instant is noted, expired snapshots are gone. -/
def swept (s : StoreState) (ambient : Ambient) : StoreState :=
  gcMemorySnapshots { s with observedNow := instant s ambient } (instant s ambient)

def StoreState.push (s : StoreState) (id : Nat) (snapshot : MemorySnapshot) : StoreState :=
  { s with snapshots := s.snapshots ++ [(id, snapshot)]
           snapshotBytes := s.snapshotBytes + snapshot.bytes }

/-- The tasks a listing is about. -/
def listed (s : StoreState) (request : ListTasksRequest) (ambient : Ambient) : List Task :=
  freezeProjection (ambient.order.visit s.tasks) request

/-- What a call does: it changes tasks or nothing, it sweeps, or it freezes a listing of more
than one page of which there is no live snapshot. -/
inductive StoreEffect (l : Layout) (s : StoreState) : StoreCall → StoreState → Prop
  | tasks {call : StoreCall} {tasks : List Task}
      (hunique : Keyed.Unique Task.id s.tasks → Keyed.Unique Task.id tasks) :
      StoreEffect l s call { s with tasks }
  | swept {request : ListTasksRequest} {ambient : Ambient} :
      StoreEffect l s (.list request ambient) (swept s ambient)
  | frozen {request : ListTasksRequest} {ambient : Ambient} {pageSize : Int}
      {scope : CursorScope} {snapshot : MemorySnapshot}
      (hvalid : validateListRequest request = .ok (pageSize, scope))
      (hnone : reusableSnapshot (Memory.swept s ambient) scope (instant s ambient) = none)
      (hmore : pageSize.toNat < (listed s request ambient).length)
      (hnew : newSnapshot l (Memory.swept s ambient) scope pageSize (listed s request ambient)
        ambient (instant s ambient) = .ok snapshot) :
      StoreEffect l s (.list request ambient)
        ((Memory.swept s ambient).push ambient.snapshotId snapshot)

theorem StoreEffect.unchanged {call : StoreCall} : StoreEffect l s call s := .tasks id

omit [TaskCodec] in
theorem toNat_of_toUsize {step : Nat} (h : toUsize pageSize = some step) :
    pageSize.toNat = step := by
  unfold toUsize at h
  split at h
  · exact Option.some.inj h
  · cases h

theorem list_effect (l : Layout) (s : StoreState) (request : ListTasksRequest)
    (ambient : Ambient) :
    StoreEffect l s (.list request ambient) (list l s request ambient).2 := by
  unfold list
  cases hvalid : validateListRequest request with
  | error e => exact .unchanged
  | ok result =>
    obtain ⟨pageSize, scope⟩ := result
    dsimp only
    cases request.pageToken with
    | some token => exact .swept
    | none =>
      dsimp only [firstPage]
      split
      · exact .swept
      next hnone =>
        split
        · exact .swept
        next step hstep =>
          split
          · exact .swept
          next hmore =>
            split
            · exact .swept
            next snapshot hnew =>
              refine .frozen hvalid hnone ?_ hnew
              rw [toNat_of_toUsize hstep]
              exact not_le.mp hmore

theorem perform_effect (store : BoundedTaskStore) (s : StoreState) (call : StoreCall) :
    StoreEffect store.layout s call (call.perform store s) := by
  cases call with
  | get taskId => exact .unchanged
  | list request ambient => exact list_effect store.layout s request ambient
  | create task =>
    simp only [StoreCall.perform, create]
    split
    · exact .unchanged
    next hnew =>
      split
      · exact .unchanged
      · refine .tasks fun hunique => hunique.append ?_
        simpa using hnew
  | update task =>
    simp only [StoreCall.perform, update]
    repeat' split
    all_goals first | exact .unchanged | exact .tasks Keyed.Unique.put

/-- What a new snapshot is. -/
theorem newSnapshot_eq_ok {tasks : List Task} {snapshot : MemorySnapshot}
    (h : newSnapshot l s scope pageSize tasks ambient now = .ok snapshot) :
    0 ≤ pageSize ∧ tasks.mapM freezeTask = .ok snapshot.tasks ∧ snapshot.pageSize = pageSize ∧
      snapshot.scope = scope ∧ snapshot.expiresAt = now + snapshotTtlMillis ∧
      snapshot.tokens = drawTokens ambient (stepBy pageSize.toNat tasks.length pageSize.toNat) ∧
      s.snapshots.length < maxActiveSnapshots ∧
      s.snapshotBytes + snapshot.bytes ≤ maxSnapshotBytes := by
  simp only [newSnapshot, toUsize, bind_eq_ok, require_eq_ok, Except.ok.injEq] at h
  obtain ⟨step, hstep, frozen, hfrozen, bytes, -, -, ⟨hcount, hbytes⟩, -, -, rfl⟩ := h
  by_cases hsize : 0 ≤ pageSize
  · rw [if_pos hsize] at hstep
    obtain rfl : pageSize.toNat = step := by simpa [unwrap] using hstep
    exact ⟨hsize, hfrozen, rfl, rfl, rfl, rfl, hcount, hbytes⟩
  · rw [if_neg hsize] at hstep
    cases hstep

omit [TaskCodec] in
theorem pageSize_of_valid (h : validateListRequest request = .ok (pageSize, scope)) :
    1 ≤ pageSize ∧ pageSize ≤ 100 ∧ scope = .fromRequest request pageSize := by
  unfold validateListRequest at h
  split at h
  · cases h
  dsimp only at h
  split at h
  next hsize =>
    simp only [Except.ok.injEq, Prod.mk.injEq] at h
    obtain ⟨rfl, rfl⟩ := h
    exact ⟨hsize.1, hsize.2, rfl⟩
  · cases h

end Effect

/-! ## The sweep -/

def totalBytes (snapshots : List (Nat × MemorySnapshot)) : Nat :=
  (snapshots.map fun entry => entry.2.bytes).sum

/-- No subtraction of the sweep stops at zero. -/
def NeverSaturates (now : Nat) : List (Nat × MemorySnapshot) → Nat → Prop
  | [], _ => True
  | (_, snapshot) :: rest, bytes =>
    if snapshot.expiresAt ≤ now then
      snapshot.bytes ≤ bytes ∧ NeverSaturates now rest (bytes - snapshot.bytes)
    else NeverSaturates now rest bytes

section Sweep

variable {now : Nat} {snapshots : List (Nat × MemorySnapshot)} {bytes base : Nat}

theorem retainLive_fst :
    (retainLive now snapshots bytes).1 = snapshots.filter fun entry => now < entry.2.expiresAt := by
  induction snapshots generalizing bytes with
  | nil => rfl
  | cons entry rest ih =>
    obtain ⟨id, snapshot⟩ := entry
    by_cases hexpired : snapshot.expiresAt ≤ now
    · rw [retainLive, if_pos hexpired, ih, List.filter_cons_of_neg (by simpa using hexpired)]
    · rw [retainLive, if_neg hexpired, List.filter_cons_of_pos (by simpa using hexpired), ← ih]

/-- The counter keeps pace with the snapshots. -/
theorem retainLive_snd (h : bytes = base + totalBytes snapshots) :
    (retainLive now snapshots bytes).2 =
      base + totalBytes (snapshots.filter fun entry => now < entry.2.expiresAt) := by
  induction snapshots generalizing bytes base with
  | nil => exact h
  | cons entry rest ih =>
    obtain ⟨id, snapshot⟩ := entry
    simp only [totalBytes, List.map_cons, List.sum_cons] at h
    by_cases hexpired : snapshot.expiresAt ≤ now
    · rw [retainLive, if_pos hexpired, List.filter_cons_of_neg (by simpa using hexpired)]
      apply ih
      simp only [totalBytes]
      omega
    · rw [retainLive, if_neg hexpired, List.filter_cons_of_pos (by simpa using hexpired)]
      have htotal : bytes = base + snapshot.bytes + totalBytes rest := by
        simp only [totalBytes]
        omega
      have hrest := ih htotal
      simp only [totalBytes, List.map_cons, List.sum_cons] at hrest ⊢
      omega

theorem neverSaturates_of_total (h : totalBytes snapshots ≤ bytes) :
    NeverSaturates now snapshots bytes := by
  induction snapshots generalizing bytes with
  | nil => trivial
  | cons entry rest ih =>
    obtain ⟨id, snapshot⟩ := entry
    simp only [totalBytes, List.map_cons, List.sum_cons] at h ih
    unfold NeverSaturates
    split
    · exact ⟨by omega, ih (by omega)⟩
    · exact ih (by omega)

end Sweep

/-! ## The invariant -/

/-- The counter is the cost of what is there, and the limits hold. -/
structure Accounted (l : Layout) (s : StoreState) : Prop where
  bytes : s.snapshotBytes = l.registryBytes + totalBytes s.snapshots
  bytes_le : s.snapshotBytes ≤ maxSnapshotBytes
  count_le : s.snapshots.length ≤ maxActiveSnapshots
  pageSize : ∀ entry ∈ s.snapshots, 1 ≤ entry.2.pageSize

section Accounting

variable [TaskCodec] {store : BoundedTaskStore} {l : Layout} {s : StoreState} {now : Nat}
  {request : ListTasksRequest} {ambient : Ambient}

omit [TaskCodec] in
theorem accounted_new : Accounted l (.new l) where
  bytes := rfl
  bytes_le := l.registry_fits
  count_le := Nat.zero_le _
  pageSize := by simp [StoreState.new]

omit [TaskCodec] in
theorem snapshots_swept : (swept s ambient).snapshots =
    s.snapshots.filter fun entry => instant s ambient < entry.2.expiresAt :=
  retainLive_fst

omit [TaskCodec] in
theorem Accounted.swept (h : Accounted l s) : Accounted l (swept s ambient) := by
  have hbytes : (Memory.swept s ambient).snapshotBytes =
      l.registryBytes + totalBytes (Memory.swept s ambient).snapshots := by
    rw [snapshots_swept]
    exact retainLive_snd h.bytes
  have hsub := (List.filter_sublist (p := fun entry : Nat × MemorySnapshot =>
    decide (instant s ambient < entry.2.expiresAt)) (l := s.snapshots))
  refine ⟨hbytes, ?_, ?_, ?_⟩
  · have hle : totalBytes (Memory.swept s ambient).snapshots ≤ totalBytes s.snapshots := by
      rw [snapshots_swept]
      exact (hsub.map _).sum_le_sum fun _ _ => Nat.zero_le _
    have hbefore := h.bytes
    have hlimit := h.bytes_le
    omega
  · rw [snapshots_swept]
    exact hsub.length_le.trans h.count_le
  · intro entry hentry
    rw [snapshots_swept] at hentry
    exact h.pageSize entry (List.mem_of_mem_filter hentry)

theorem Accounted.perform (h : Accounted store.layout s) (call : StoreCall) :
    Accounted store.layout (call.perform store s) := by
  have heffect := perform_effect store s call
  generalize call.perform store s = s' at heffect
  cases heffect with
  | tasks => exact ⟨h.bytes, h.bytes_le, h.count_le, h.pageSize⟩
  | swept => exact h.swept
  | @frozen request ambient pageSize scope snapshot hvalid hnone hmore hnew =>
    have hswept : Accounted store.layout (Memory.swept s ambient) := h.swept
    obtain ⟨-, -, hsize, -, -, -, hcount, hlimit⟩ := newSnapshot_eq_ok hnew
    refine ⟨?_, hlimit, ?_, ?_⟩
    · simp only [StoreState.push, hswept.bytes, totalBytes, List.map_append, List.sum_append,
        List.map_cons, List.map_nil, List.sum_cons, List.sum_nil]
      omega
    · rw [StoreState.push, List.length_append, List.length_singleton]
      exact hcount
    · intro entry hentry
      rcases List.mem_append.mp hentry with hold | hlast
      · exact hswept.pageSize entry hold
      · rw [List.mem_singleton.mp hlast, hsize]
        exact (pageSize_of_valid hvalid).1

theorem Accounted.foldl (h : Accounted store.layout s) (calls : List StoreCall) :
    Accounted store.layout (calls.foldl (StoreCall.perform store) s) := by
  induction calls generalizing s with
  | nil => exact h
  | cons call rest ih => exact ih (h.perform call)

/-- The latest instant never decreases, whatever the clock reads. -/
theorem observedNow_perform (call : StoreCall) :
    s.observedNow ≤ (call.perform store s).observedNow := by
  have heffect := perform_effect store s call
  generalize call.perform store s = s' at heffect
  cases heffect with
  | tasks => exact le_rfl
  | swept => exact le_max_right _ _
  | frozen => exact le_max_right _ _

/-! ## No panic -/

omit [TaskCodec] in
theorem bind_ne_panic {α β : Type} {x : Except Failure α} {f : α → Except Failure β}
    (hx : x ≠ .error .panic) (hf : ∀ a, x = .ok a → f a ≠ .error .panic) :
    (x >>= f) ≠ .error .panic := by
  cases x with
  | error failure => exact fun h => hx (by simpa [bind, Except.bind] using h)
  | ok a => exact hf a rfl

omit [TaskCodec] in
theorem require_ne_panic {guard : Prop} [Decidable guard] {failure : Failure}
    (h : failure ≠ .panic) : require guard failure ≠ .error .panic := by
  rw [Ne, require_eq_error]
  exact fun hfails => h hfails.2

omit [TaskCodec] in
theorem mapM_ne_panic {α β : Type} {f : α → Except Failure β} (hf : ∀ a, f a ≠ .error .panic)
    (xs : List α) : xs.mapM f ≠ .error .panic := by
  induction xs with
  | nil => simp [pure, Except.pure]
  | cons x rest ih =>
    rw [List.mapM_cons]
    apply bind_ne_panic (hf x)
    intro b _
    apply bind_ne_panic ih
    intro bs _
    simp [pure, Except.pure]

/-- A slice that starts inside the frozen list does not panic. -/
theorem memoryPage_ne_panic {snapshot : MemorySnapshot} {position : Nat}
    (hsize : 1 ≤ snapshot.pageSize) (hposition : position ≤ snapshot.tasks.length) :
    memoryPage snapshot position ≠ .error .panic := by
  have hnonneg : 0 ≤ snapshot.pageSize := by omega
  unfold memoryPage
  apply bind_ne_panic
  · simp [toUsize, unwrap, hnonneg]
  intro pageSize _
  apply bind_ne_panic
  · rw [Ne, require_eq_error]
    rintro ⟨hstart, -⟩
    omega
  intro _ _
  apply bind_ne_panic
  · apply mapM_ne_panic
    intro encoded
    unfold decodeFrozen
    split <;> simp
  · simp

omit [TaskCodec] in
theorem mem_of_findToken {token : String} {snapshot : MemorySnapshot} {position : Nat}
    (h : findToken s token = some (snapshot, position)) :
    ∃ id, (id, snapshot) ∈ s.snapshots ∧ (position, token) ∈ snapshot.tokens := by
  obtain ⟨⟨id, found⟩, hmem, hfound⟩ := List.exists_of_findSome?_eq_some h
  obtain ⟨⟨p, candidate⟩, htoken, hsame⟩ := List.exists_of_findSome?_eq_some hfound
  dsimp only at hsame
  split at hsame
  next hcandidate =>
    simp only [Option.some.injEq, Prod.mk.injEq] at hsame
    obtain ⟨rfl, rfl⟩ := hsame
    exact ⟨id, hmem, hcandidate ▸ htoken⟩
  · cases hsame

theorem tokenPage_ne_panic {scope : CursorScope} {token : String} (h : Accounted l s) :
    tokenPage s scope now token ≠ .error .panic := by
  unfold tokenPage
  apply bind_ne_panic (require_ne_panic (by simp [invalidPageToken]))
  intro _ _
  apply bind_ne_panic
  · cases (findToken s token).filter _ <;> simp [expect, invalidPageToken]
  rintro ⟨snapshot, position⟩ hfound
  rw [expect_eq_ok, Option.filter_eq_some_iff] at hfound
  obtain ⟨id, hmem, -⟩ := mem_of_findToken hfound.1
  have hsize := h.pageSize _ hmem
  have hnonneg : 0 ≤ snapshot.pageSize := by
    dsimp only at hsize
    omega
  apply bind_ne_panic
  · simp [toUsize, unwrap, hnonneg]
  intro step _
  apply bind_ne_panic (require_ne_panic (by simp [invalidPageToken]))
  intro _ hposition
  rw [require_eq_ok] at hposition
  exact memoryPage_ne_panic hsize (by omega)

theorem newSnapshot_ne_panic {scope : CursorScope} {pageSize : Int} {tasks : List Task}
    (hsize : 1 ≤ pageSize) : newSnapshot l s scope pageSize tasks ambient now ≠ .error .panic := by
  have hnonneg : 0 ≤ pageSize := by omega
  unfold newSnapshot
  apply bind_ne_panic
  · simp [toUsize, unwrap, hnonneg]
  intro step _
  apply bind_ne_panic
  · apply mapM_ne_panic
    intro task
    unfold freezeTask
    split <;> simp
  intro frozen _
  apply bind_ne_panic
  · unfold conservativeSnapshotBytes
    apply bind_ne_panic (require_ne_panic (by simp [capacityReached]))
    simp
  intro bytes _
  apply bind_ne_panic (require_ne_panic (by simp [capacityReached]))
  intro _ _
  apply bind_ne_panic (require_ne_panic (by simp))
  simp

theorem firstPage_ne_panic {scope : CursorScope} {pageSize : Int} (h : Accounted l s)
    (hsize : 1 ≤ pageSize) :
    (firstPage l s request pageSize scope ambient now).1 ≠ .error .panic := by
  have hnonneg : 0 ≤ pageSize := by omega
  unfold firstPage
  cases hreusable : reusableSnapshot s scope now with
  | some snapshot =>
    have hmem := List.mem_of_find?_eq_some hreusable
    obtain ⟨entry, hentry, rfl⟩ := List.mem_map.mp hmem
    exact memoryPage_ne_panic (h.pageSize entry hentry) (Nat.zero_le _)
  | none =>
    dsimp only
    rw [toUsize, if_pos hnonneg]
    dsimp only
    split
    · simp
    cases hnew : newSnapshot l s scope pageSize _ ambient now with
    | error failure =>
      rintro ⟨⟩
      exact newSnapshot_ne_panic hsize hnew
    | ok snapshot =>
      -- the snapshot that was just pushed has the identifier
      have hsizes : ∀ entry ∈ s.snapshots ++ [(ambient.snapshotId, snapshot)],
          1 ≤ entry.2.pageSize := by
        intro entry hentry
        rcases List.mem_append.mp hentry with hold | hlast
        · exact h.pageSize entry hold
        · rw [List.mem_singleton.mp hlast, (newSnapshot_eq_ok hnew).2.2.1]
          exact hsize
      cases hfind : (s.snapshots ++ [(ambient.snapshotId, snapshot)]).find?
          (·.1 = ambient.snapshotId) with
      | none => simp at hfind
      | some entry =>
        dsimp only
        rw [hfind]
        exact memoryPage_ne_panic (hsizes entry (List.mem_of_find?_eq_some hfind))
          (Nat.zero_le _)

theorem list_ne_panic (h : Accounted l s) : (list l s request ambient).1 ≠ .error .panic := by
  unfold list
  cases hvalid : validateListRequest request with
  | error e => simp
  | ok result =>
    obtain ⟨pageSize, scope⟩ := result
    have hswept : Accounted l (swept s ambient) := h.swept
    dsimp only
    cases request.pageToken with
    | some token => exact tokenPage_ne_panic hswept
    | none => exact firstPage_ne_panic hswept (pageSize_of_valid hvalid).1

/-- Whether a call panics. -/
def StoreCall.Panics (store : BoundedTaskStore) (s : StoreState) : StoreCall → Prop
  | .list request ambient => (Memory.list store.layout s request ambient).1 = .error .panic
  | _ => False

/-- After any calls, with any clock readings: the counter is the cost of the registry and its
snapshots, the limits hold, and whatever is called next, no subtraction of its sweep stops at
zero, the observed instant does not decrease and nothing panics. -/
theorem snapshots_accounted (store : BoundedTaskStore) (calls : List StoreCall) :
    (store.after calls).snapshotBytes =
        store.layout.registryBytes + totalBytes (store.after calls).snapshots ∧
      (store.after calls).snapshotBytes ≤ maxSnapshotBytes ∧
      (store.after calls).snapshots.length ≤ maxActiveSnapshots ∧
      (∀ now, NeverSaturates now (store.after calls).snapshots
        (store.after calls).snapshotBytes) ∧
      ∀ call : StoreCall,
        (store.after calls).observedNow ≤ (call.perform store (store.after calls)).observedNow ∧
          ¬ call.Panics store (store.after calls) := by
  have h : Accounted store.layout (store.after calls) := accounted_new.foldl calls
  refine ⟨h.bytes, h.bytes_le, h.count_le, ?_, ?_⟩
  · intro now
    apply neverSaturates_of_total
    rw [h.bytes]
    exact Nat.le_add_left _ _
  · intro call
    refine ⟨observedNow_perform call, ?_⟩
    cases call with
    | list request ambient => exact list_ne_panic h
    | _ => exact fun hpanics => hpanics

end Accounting

/-! ## Tasks over whole runs -/

variable [TaskCodec] {store : BoundedTaskStore} {s : StoreState}

/-- A stored task may be replaced: it is not terminal, and the matrix has the transition. -/
def MayBecome (task task' : Task) : Prop :=
  task.status.state.isTerminal = false ∧
    task.status.state.transitionAllowed task'.status.state = true

/-- Distinct tasks, within the configured number. -/
def StoreState.Registered (store : BoundedTaskStore) (s : StoreState) : Prop :=
  Keyed.Unique Task.id s.tasks ∧ s.tasks.length ≤ max store.maxTasks 1

/-- Every task is still stored, after replacements that were allowed. -/
def StoreState.Keeps (s s' : StoreState) : Prop :=
  ∀ task ∈ s.tasks, ∃ task' ∈ s'.tasks, task'.id = task.id ∧ ReflTransGen MayBecome task task'

theorem perform_keeps (h : s.Registered store) (call : StoreCall) :
    (call.perform store s).Registered store ∧ s.Keeps (call.perform store s) := by
  have hsame : ∀ {s' : StoreState}, s'.tasks = s.tasks → s'.Registered store ∧ s.Keeps s' := by
    intro s' hs'
    rw [StoreState.Registered, StoreState.Keeps, hs']
    exact ⟨h, fun task htask => ⟨task, htask, rfl, .refl⟩⟩
  cases call with
  | get taskId => exact hsame rfl
  | list request ambient =>
    apply hsame
    simp only [StoreCall.perform, list, firstPage]
    repeat' split
    all_goals rfl
  | create new =>
    simp only [StoreCall.perform, create]
    split_ifs with hnew hroom
    iterate 2 exact hsame rfl
    refine ⟨⟨h.1.append (by simpa using hnew), ?_⟩, fun task htask => ?_⟩
    · rw [List.length_append]
      exact Nat.lt_of_not_le hroom
    · exact ⟨task, List.mem_append_left _ htask, rfl, .refl⟩
  | update new =>
    simp only [StoreCall.perform, update]
    split
    next => exact hsame rfl
    next stored hget =>
      split_ifs with hequal hterminal hallowed
      case neg => exact hsame rfl
      iterate 2 exact hsame rfl
      refine ⟨⟨h.1.put, by simpa [Keyed.put] using h.2⟩, fun task htask => ?_⟩
      by_cases hid : task.id = new.id
      · obtain rfl := h.1.eq_of_key htask (Keyed.mem_of_get? hget)
          (hid.trans (Keyed.key_of_get? hget).symm)
        exact ⟨new, Keyed.mem_put.mpr (.inl ⟨rfl, task, htask, hid⟩), hid.symm,
          .single ⟨by simpa using hterminal, by simpa using hallowed⟩⟩
      · exact ⟨task, Keyed.mem_put.mpr (.inr ⟨htask, hid⟩), rfl, .refl⟩

theorem foldl_keeps (calls : List StoreCall) (h : s.Registered store) :
    (calls.foldl (StoreCall.perform store) s).Registered store ∧
      s.Keeps (calls.foldl (StoreCall.perform store) s) := by
  induction calls generalizing s with
  | nil => exact ⟨h, fun task htask => ⟨task, htask, rfl, .refl⟩⟩
  | cons call calls ih =>
    obtain ⟨hnext, hstep⟩ := perform_keeps h call
    obtain ⟨hlast, hrun⟩ := ih hnext
    refine ⟨hlast, fun task htask => ?_⟩
    obtain ⟨task', htask', hid, hbecomes⟩ := hstep task htask
    obtain ⟨last, hmem, hid', hlater⟩ := hrun task' htask'
    exact ⟨last, hmem, hid'.trans hid, hbecomes.trans hlater⟩

/-- After any calls the tasks are distinct and within the configured number. Whatever is called
later, each is still stored under its identifier; a terminal one is unchanged, and the state of
another has moved along the matrix only. -/
theorem tasks_follow_lifecycle (store : BoundedTaskStore) (calls later : List StoreCall) :
    (store.after calls).Registered store ∧ ∀ task ∈ (store.after calls).tasks,
      ∃ task' ∈ (store.after (calls ++ later)).tasks, task'.id = task.id ∧
        (task.status.state.isTerminal = true → task' = task) ∧ ReflTransGen MayBecome task task' := by
  have hnew : (StoreState.new store.layout).Registered store := ⟨List.nodup_nil, Nat.zero_le _⟩
  obtain ⟨hregistered, -⟩ := foldl_keeps calls hnew
  refine ⟨hregistered, fun task htask => ?_⟩
  obtain ⟨task', htask', hid, hbecomes⟩ := (foldl_keeps later hregistered).2 task htask
  rw [BoundedTaskStore.after, List.foldl_append]
  refine ⟨task', htask', hid, fun hterminal => ?_, hbecomes⟩
  rcases hbecomes.cases_head with rfl | ⟨_, hfirst, -⟩
  · rfl
  · exact absurd hterminal (Bool.eq_false_iff.mp hfirst.1)

end SmeshDurable.Memory
