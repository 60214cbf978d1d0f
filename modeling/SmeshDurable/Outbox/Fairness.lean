import SmeshDurable.Library.Service
import SmeshDurable.Outbox.Scheduler

/-!
# How long a tenant waits for a claim

The scheduler is a queue by service counts: a claim serves the due tenant of the least rank. A
tenant that waits is overtaken by another one about as often as it was served more in the past, for
the count of a tenant starts at zero and stands still while it has no work.
-/

namespace SmeshDurable.Outbox

open Ranked Service

/-! ## The counters of the scheduler -/

/-- The row of a tenant. -/
def Tables.schedulerRow? (s : Tables) (tenant : String) : Option SchedulerRow :=
  Keyed.get? SchedulerRow.tenantScope s.scheduler tenant

/-- How often a tenant was served; a tenant without a row never was. -/
def Tables.virtualFinish (s : Tables) (tenant : String) : Nat :=
  ((s.schedulerRow? tenant).map SchedulerRow.virtualFinish).getD 0

/-- The scheduler as counters of services. -/
def Tables.counters (s : Tables) : Counters String where
  finish := s.virtualFinish
  stamp tenant := ((s.schedulerRow? tenant).map SchedulerRow.servedSequence).getD 0
  clock := s.servedSequence

/-- What every transaction keeps: one row for each tenant that has dispatches, and no place that was
not given yet. -/
structure SchedulerInvariant (s : Tables) : Prop where
  unique : Keyed.Unique SchedulerRow.tenantScope s.scheduler
  stamped : ∀ row ∈ s.scheduler, row.servedSequence ≤ s.servedSequence
  covered : ∀ o ∈ s.outbox, ∃ row ∈ s.scheduler, row.tenantScope = o.tenantScope

variable {s : Tables} {now : Int} {owner token tenant other : String} {leaseUntil : Int}

namespace SchedulerInvariant

theorem empty : SchedulerInvariant Tables.empty := by
  refine ⟨List.nodup_nil, ?_, ?_⟩
  · intro row hrow
    cases hrow
  · intro o ho
    cases ho

theorem rank_eq (h : SchedulerInvariant s) {row : SchedulerRow} (hrow : row ∈ s.scheduler) :
    s.counters.rank row.tenantScope = row.rank := by
  have hget : s.schedulerRow? row.tenantScope = some row := h.unique.get?_eq_some hrow rfl
  simp [Counters.rank, Tables.counters, Tables.virtualFinish, hget, SchedulerRow.rank]

theorem stamp_le (h : SchedulerInvariant s) : s.counters.stamp tenant ≤ s.counters.clock := by
  change ((s.schedulerRow? tenant).map SchedulerRow.servedSequence).getD 0 ≤ s.servedSequence
  cases hget : s.schedulerRow? tenant with
  | none => exact Nat.zero_le _
  | some row => exact h.stamped row (Keyed.mem_of_get? hget)

theorem exists_row (h : SchedulerInvariant s) (hdue : s.hasDue now tenant = true) :
    ∃ row ∈ s.scheduler, row.tenantScope = tenant := by
  obtain ⟨o, ho, hmatch⟩ := List.any_eq_true.mp hdue
  obtain ⟨row, hrow, hsame⟩ := h.covered o ho
  have htenant : o.tenantScope = tenant := (of_decide_eq_true hmatch).1
  exact ⟨row, hrow, hsame.trans htenant⟩

end SchedulerInvariant

/-! ## New dispatches -/

theorem SchedulerInvariant.enqueue (h : SchedulerInvariant s) (o : DispatchRow) :
    SchedulerInvariant (enqueue s o) := by
  unfold Outbox.enqueue ensureOutboxTenantScheduler
  split
  case isTrue hrow =>
    refine ⟨h.unique, h.stamped, ?_⟩
    intro other hother
    rcases List.mem_append.mp hother with hother | hother
    · exact h.covered other hother
    · rw [List.mem_singleton.mp hother]
      exact hrow
  case isFalse hnone =>
    refine ⟨h.unique.append fun r hr hsame => hnone ⟨r, hr, hsame⟩, ?_, ?_⟩
    · intro row hrow
      rcases List.mem_append.mp hrow with hrow | hrow
      · exact h.stamped row hrow
      · rw [List.mem_singleton.mp hrow]
        exact Nat.zero_le _
    · intro other hother
      rcases List.mem_append.mp hother with hother | hother
      · obtain ⟨row, hrow, hsame⟩ := h.covered other hother
        exact ⟨row, List.mem_append_left _ hrow, hsame⟩
      · rw [List.mem_singleton.mp hother]
        exact ⟨_, List.mem_append_right _ (List.mem_singleton_self _), rfl⟩

/-- A row at zero counts like no row. -/
theorem counters_enqueue (s : Tables) (o : DispatchRow) : (enqueue s o).counters = s.counters := by
  unfold enqueue ensureOutboxTenantScheduler
  split
  case isTrue => rfl
  case isFalse hnone =>
    have hget (tenant : String) :
        Tables.schedulerRow? { s with
            outbox := s.outbox ++ [o], scheduler := s.scheduler ++ [⟨o.tenantScope, 0, 0⟩] } tenant =
          (s.schedulerRow? tenant).or
            (if o.tenantScope = tenant then some ⟨o.tenantScope, 0, 0⟩ else none) := by
      rw [Tables.schedulerRow?, Keyed.get?_append, Keyed.get?_singleton]
      rfl
    unfold Tables.counters Tables.virtualFinish
    simp only [hget, Counters.mk.injEq, and_true]
    constructor <;> funext tenant <;> cases s.schedulerRow? tenant <;> split <;> rfl

/-! ## Claims -/

theorem mem_dueRows {o : DispatchRow} :
    o ∈ s.outbox.filter (fun o => o.tenantScope = tenant ∧ s.isDue now o) ↔
      o ∈ s.outbox ∧ o.tenantScope = tenant ∧ s.isDue now o = true := by
  simp

theorem hasDue_iff : s.hasDue now tenant = true ↔
    ∃ o ∈ s.outbox, o.tenantScope = tenant ∧ s.isDue now o = true := by
  simp [Tables.hasDue]

theorem candidate_spec {o : DispatchRow} (h : candidate s now tenant = some o) :
    o ∈ s.outbox ∧ o.tenantScope = tenant ∧ s.isDue now o = true :=
  mem_dueRows.mp (mem_of_head?_sortOn _ h).1

theorem selectedTenant_spec {row : SchedulerRow} (h : selectedTenant s now = some row) :
    row ∈ s.scheduler ∧ s.hasDue now row.tenantScope = true ∧
      ∀ other ∈ s.scheduler, s.hasDue now other.tenantScope = true → row.rank ≤ other.rank := by
  obtain ⟨hmem, hleast⟩ := mem_of_head?_sortOn _ h
  obtain ⟨hrow, hdue⟩ := List.mem_filter.mp hmem
  exact ⟨hrow, hdue, fun other hother hdue => hleast other (List.mem_filter.mpr ⟨hother, hdue⟩)⟩

/-- A claim leases a due dispatch of the selected tenant, or there is nothing due. -/
theorem claimOutboxBounded_cases (h : SchedulerInvariant s) (now : Int) (owner token : String)
    (leaseUntil : Int) :
    ((∀ tenant, s.hasDue now tenant = false) ∧
        claimOutboxBounded s now owner token leaseUntil = (s, none)) ∨
      ∃ row o, selectedTenant s now = some row ∧ candidate s now row.tenantScope = some o ∧
        claimOutboxBounded s now owner token leaseUntil =
          (leaseDispatch s now owner token leaseUntil row o, some (claimedOf now o)) := by
  unfold claimOutboxBounded
  cases hselected : selectedTenant s now with
  | none =>
    left
    refine ⟨fun tenant => ?_, rfl⟩
    by_contra hdue
    rw [Bool.not_eq_false] at hdue
    obtain ⟨row, hrow, rfl⟩ := h.exists_row hdue
    have hempty := (sortOn_head?_eq_none _).mp hselected
    exact List.filter_eq_nil_iff.mp hempty row hrow hdue
  | some row =>
    right
    cases hcandidate : candidate s now row.tenantScope with
    | none =>
      obtain ⟨o, ho, hdue⟩ := hasDue_iff.mp (selectedTenant_spec hselected).2.1
      have hempty := (sortOn_head?_eq_none _).mp hcandidate
      have hmem := mem_dueRows.mpr ⟨ho, hdue⟩
      rw [hempty] at hmem
      cases hmem
    | some o => exact ⟨row, o, rfl, hcandidate, by simp only [hcandidate]⟩

section Lease

variable {row : SchedulerRow} {o : DispatchRow}

theorem schedulerRow?_leaseDispatch (tenant : String) :
    (leaseDispatch s now owner token leaseUntil row o).schedulerRow? tenant =
      (s.schedulerRow? tenant).map fun other =>
        if other.tenantScope = row.tenantScope then
          { other with
            virtualFinish := other.virtualFinish + 1
            servedSequence := s.servedSequence + 1 }
        else other := by
  apply Keyed.get?_map
  intro r _
  split <;> rfl

/-- A lease counts as one service of the selected tenant. -/
theorem counters_leaseDispatch (hrow : row ∈ s.scheduler) :
    (leaseDispatch s now owner token leaseUntil row o).counters =
      s.counters.serve row.tenantScope := by
  have hget (tenant : String) (hne : tenant ≠ row.tenantScope) :
      (leaseDispatch s now owner token leaseUntil row o).schedulerRow? tenant =
        s.schedulerRow? tenant := by
    rw [schedulerRow?_leaseDispatch]
    cases hfound : s.schedulerRow? tenant with
    | none => rfl
    | some r => simp [Keyed.key_of_get? hfound, hne]
  obtain ⟨first, hfirst⟩ : ∃ first, s.schedulerRow? row.tenantScope = some first := by
    cases hfound : s.schedulerRow? row.tenantScope with
    | none => exact absurd rfl (Keyed.get?_eq_none.mp hfound row hrow)
    | some first => exact ⟨first, rfl⟩
  have hself : (leaseDispatch s now owner token leaseUntil row o).schedulerRow? row.tenantScope =
      some ⟨first.tenantScope, first.virtualFinish + 1, s.servedSequence + 1⟩ := by
    rw [schedulerRow?_leaseDispatch, hfirst, Option.map_some, if_pos (Keyed.key_of_get? hfirst)]
  unfold Tables.counters Counters.serve Tables.virtualFinish
  simp only [Counters.mk.injEq]
  refine ⟨?_, ?_, rfl⟩ <;> funext tenant <;> by_cases hsame : tenant = row.tenantScope
  · rw [hsame, Function.update_self, hself, hfirst]
    rfl
  · rw [Function.update_of_ne hsame, hget tenant hsame]
  · rw [hsame, Function.update_self, hself]
    rfl
  · rw [Function.update_of_ne hsame, hget tenant hsame]

theorem SchedulerInvariant.leaseDispatch (h : SchedulerInvariant s) :
    SchedulerInvariant (leaseDispatch s now owner token leaseUntil row o) := by
  have hkey (r : SchedulerRow) : (if r.tenantScope = row.tenantScope then
      { r with virtualFinish := r.virtualFinish + 1, servedSequence := s.servedSequence + 1 }
      else r).tenantScope = r.tenantScope := by
    split <;> rfl
  refine ⟨h.unique.map fun r _ => hkey r, ?_, ?_⟩
  · intro r hr
    obtain ⟨old, hold, rfl⟩ := List.mem_map.mp hr
    split
    · exact le_rfl
    · exact Nat.le_succ_of_le (h.stamped old hold)
  · intro d hd
    obtain ⟨old, hold, rfl⟩ := List.mem_map.mp hd
    obtain ⟨r, hr, hsame⟩ := h.covered old hold
    refine ⟨_, List.mem_map_of_mem hr, (hkey r).trans (hsame.trans ?_)⟩
    split <;> rfl

end Lease

/-! ## Runs -/

/-- What one transaction does to the counters: a service of the first due tenant, or nothing. -/
theorem Call.counters_run (h : SchedulerInvariant s) (call : Call) :
    (call.served s = none ∧ (call.run s).counters = s.counters) ∨
      ∃ tenant, call.served s = some tenant ∧
        (call.run s).counters = s.counters.serve tenant ∧
        ∀ other, s.hasDue call.time other = true →
          s.counters.rank tenant ≤ s.counters.rank other := by
  cases call with
  | enqueue o now => exact .inl ⟨rfl, counters_enqueue s o⟩
  | claim owner token leaseUntil now =>
    rcases claimOutboxBounded_cases h now owner token leaseUntil with
      ⟨-, heq⟩ | ⟨row, o, hselected, hcandidate, heq⟩
    · exact .inl ⟨by rw [Call.served, heq]; rfl, by rw [Call.run, heq]⟩
    · obtain ⟨hrow, -, hleast⟩ := selectedTenant_spec hselected
      obtain ⟨-, htenant, -⟩ := candidate_spec hcandidate
      refine .inr ⟨row.tenantScope, ?_, ?_, fun other hdue => ?_⟩
      · rw [Call.served, heq, ← htenant]
        rfl
      · rw [Call.run, heq, counters_leaseDispatch hrow]
      · obtain ⟨r, hr, rfl⟩ := h.exists_row hdue
        rw [h.rank_eq hrow, h.rank_eq hr]
        exact hleast r hr hdue
  | settle outcome attempts now => exact .inl ⟨rfl, rfl⟩
  | receive inbox now => exact .inl ⟨rfl, rfl⟩

theorem SchedulerInvariant.run (h : SchedulerInvariant s) (call : Call) :
    SchedulerInvariant (call.run s) := by
  cases call with
  | enqueue o now => exact h.enqueue o
  | claim owner token leaseUntil now =>
    rcases claimOutboxBounded_cases h now owner token leaseUntil with
      ⟨-, heq⟩ | ⟨row, o, -, -, heq⟩
    · rw [Call.run, heq]
      exact h
    · rw [Call.run, heq]
      exact h.leaseDispatch
  | settle outcome attempts now =>
    refine ⟨h.unique, h.stamped, ?_⟩
    intro d hd
    obtain ⟨old, hold, rfl⟩ := List.mem_map.mp hd
    exact h.covered old hold
  | receive inbox now => exact ⟨h.unique, h.stamped, h.covered⟩

/-- The states that transactions lead to. -/
def Reachable (s : Tables) : Prop :=
  ∃ start clock, outboxSystem.Run (fun _ _ => True) Tables.empty start s clock

theorem Reachable.invariant (h : Reachable s) : SchedulerInvariant s := by
  obtain ⟨start, clock, hrun⟩ := h
  induction hrun with
  | refl => exact .empty
  | step _ _ _ ih => exact ih.run _

/-- Whether a transaction is a claim. -/
def Call.isClaim : Call → Bool
  | claim .. => true
  | _ => false

/-- While a tenant waits, it has due work at every claim and none of them serves it. -/
def Waits (tenant : String) (s : Tables) (call : Call) : Prop :=
  call.isClaim = true → s.hasDue call.time tenant = true ∧ call.served s ≠ some tenant

instance : Decidable (Waits tenant s call) := inferInstanceAs (Decidable (_ → _))

theorem services_append (calls others : List Call) :
    services s (calls ++ others) =
      services s calls ++ services (calls.foldl outboxSystem.next s) others := by
  induction calls generalizing s with
  | nil => rfl
  | cons call rest ih =>
    rw [List.cons_append, services, services, ih, List.append_assoc]
    rfl

theorem services_singleton (call : Call) : services s [call] = (call.served s).toList := by
  rw [services, services, List.append_nil]

theorem SchedulerInvariant.foldl (h : SchedulerInvariant s) (calls : List Call) :
    SchedulerInvariant (calls.foldl outboxSystem.next s) := by
  induction calls generalizing s with
  | nil => exact h
  | cons call rest ih => exact ih (h.run call)

/-- The services while a tenant waits overtake it. -/
theorem overtakes_of_waits (h : SchedulerInvariant s) {calls : List Call}
    (hwaits : outboxSystem.Permits (Waits tenant) s calls) :
    Overtakes tenant s.counters (services s calls) (calls.foldl outboxSystem.next s).counters := by
  induction calls using List.reverseRecOn with
  | nil => exact .refl
  | append_singleton calls call ih =>
    obtain ⟨hbefore, hcall, -⟩ := Clocked.permits_append.mp hwaits
    have hinv := h.foldl calls
    rw [services_append, services_singleton, List.foldl_append, List.foldl_cons, List.foldl_nil]
    change Overtakes tenant s.counters _ (call.run _).counters
    rcases call.counters_run hinv with ⟨hserved, heq⟩ | ⟨k, hserved, heq, hleast⟩
    · rw [hserved, heq, Option.toList_none, List.append_nil]
      exact ih hbefore
    · rw [hserved, heq, Option.toList_some]
      have hclaim : call.isClaim = true := by
        cases call with
        | claim => rfl
        | _ => cases hserved
      obtain ⟨hdue, hother⟩ := hcall hclaim
      refine (ih hbefore).serve (lt_of_le_of_ne (hleast tenant hdue) fun hsame => hother ?_)
      -- equal ranks name one tenant, and the claim does not serve the one that waits
      have hname : k = tenant := congrArg (fun r => (ofLex (ofLex r).2).2) hsame
      rw [hserved, hname]

/-- No claim comes back empty while a tenant waits. -/
theorem length_services (h : SchedulerInvariant s) {calls : List Call}
    (hwaits : outboxSystem.Permits (Waits tenant) s calls) :
    (services s calls).length = calls.countP Call.isClaim := by
  induction calls generalizing s with
  | nil => rfl
  | cons call rest ih =>
    rw [services, List.length_append, List.countP_cons, ih (h.run call) hwaits.2, Nat.add_comm]
    congr 1
    cases call with
    | claim owner token leaseUntil now =>
      have hdue := (hwaits.1 rfl).1
      rcases claimOutboxBounded_cases h now owner token leaseUntil with
        ⟨hnone, -⟩ | ⟨row, o, -, -, heq⟩
      · rw [Call.time, hnone] at hdue
        cases hdue
      · rw [Call.served, heq]
        rfl
    | _ => rfl

/-! ## The wait of a tenant -/

/-- While a tenant waits, another one is served at most twice if it was not served more than two
times less before, and the wait is at most two claims for each tenant served in it if that holds of
all of them. Where the wait ends with a service while the other tenant still has due work, this is
exactly when it is served at most twice. -/
theorem overtaken_at_most_twice_iff (hreach : Reachable s) {calls : List Call}
    (hwaits : outboxSystem.Permits (Waits tenant) s calls) :
    (∀ other, s.virtualFinish tenant ≤ s.virtualFinish other + 2 →
        (services s calls).count other ≤ 2) ∧
      ((∀ other ∈ services s calls, s.virtualFinish tenant ≤ s.virtualFinish other + 2) →
        calls.countP Call.isClaim ≤ 2 * (services s calls).toFinset.card) ∧
      ∀ call : Call, call.served (calls.foldl outboxSystem.next s) = some tenant →
        ∀ other, (calls.foldl outboxSystem.next s).hasDue call.time other = true →
          ((services s calls).count other ≤ 2 ↔
            s.virtualFinish tenant ≤ s.virtualFinish other + 2) := by
  have hinv := hreach.invariant
  have hover := overtakes_of_waits hinv hwaits
  have htwice (other : String) (hclose : s.virtualFinish tenant ≤ s.virtualFinish other + 2) :
      (services s calls).count other ≤ 2 := by
    have hcount : (services s calls).count other ≤
        max 1 (s.virtualFinish tenant - s.virtualFinish other) :=
      hover.count_le_max hinv.stamp_le other
    omega
  refine ⟨htwice, fun hclose => ?_, fun call hserved other hdue => ⟨fun hcount => ?_, htwice other⟩⟩
  · rw [← length_services hinv hwaits]
    exact length_le_mul_card fun other hother => htwice other (hclose other hother)
  · rcases call.counters_run (hinv.foldl calls) with ⟨hnone, -⟩ | ⟨k, hk, -, hleast⟩
    · rw [hserved] at hnone
      cases hnone
    · rw [hserved] at hk
      obtain rfl := Option.some.inj hk
      have hcaught : s.virtualFinish tenant - s.virtualFinish other ≤
          (services s calls).count other := hover.le_count (hleast other hdue)
      omega

/-! ### A tenant that comes late -/

/-- A dispatch that is due at once and has attempts left. -/
def sampleDispatch (tenantScope : String) (outboxId : Nat) : DispatchRow :=
  ⟨tenantScope, outboxId, "dispatch", "task", "payload", .pending, 0, 8, 0⟩

def sampleClaim : Call := .claim "worker" "lease" 9 1

/-- One tenant is served three times and still has work when another one comes. -/
def lateTables : Tables :=
  [Call.enqueue (sampleDispatch "a" 1) 1, .enqueue (sampleDispatch "a" 2) 1,
    .enqueue (sampleDispatch "a" 3) 1, .enqueue (sampleDispatch "a" 4) 1, sampleClaim, sampleClaim,
    sampleClaim, .enqueue (sampleDispatch "b" 5) 1, .enqueue (sampleDispatch "b" 6) 1,
    .enqueue (sampleDispatch "b" 7) 1].foldl outboxSystem.next Tables.empty

theorem lateTables_reachable : Reachable lateTables := by
  refine ⟨1, 1, ?_⟩
  apply Clocked.Run.foldl
  · decide
  · decide
  · exact Clocked.permits_of_forall fun _ _ => trivial

/-- One tenant is served twice and still has work when another one comes. -/
def evenTables : Tables :=
  [Call.enqueue (sampleDispatch "b" 1) 1, .enqueue (sampleDispatch "b" 2) 1,
    .enqueue (sampleDispatch "b" 3) 1, sampleClaim, sampleClaim, .enqueue (sampleDispatch "a" 4) 1,
    .enqueue (sampleDispatch "a" 5) 1].foldl outboxSystem.next Tables.empty

theorem evenTables_reachable : Reachable evenTables := by
  refine ⟨1, 1, ?_⟩
  apply Clocked.Run.foldl
  · decide
  · decide
  · exact Clocked.permits_of_forall fun _ _ => trivial

/-- The one that comes later is served twice in a row, which is the most. -/
theorem late_tenant_overtakes_twice :
    outboxSystem.Permits (Waits "b") evenTables [sampleClaim, sampleClaim] ∧
      services evenTables [sampleClaim, sampleClaim] = ["a", "a"] ∧
      (services evenTables [sampleClaim, sampleClaim]).count "a" ≤ 2 := by
  have hwaits : outboxSystem.Permits (Waits "b") evenTables [sampleClaim, sampleClaim] := by
    decide +kernel
  exact ⟨hwaits, by decide +kernel,
    (overtaken_at_most_twice_iff evenTables_reachable hwaits).1 "a" (by decide +kernel)⟩

/-- The late tenant is served three times while the first one has due work all the time. -/
theorem late_tenant_overtakes_thrice :
    Reachable lateTables ∧
      outboxSystem.Permits (Waits "a") lateTables [sampleClaim, sampleClaim, sampleClaim] ∧
      (services lateTables [sampleClaim, sampleClaim, sampleClaim]).count "b" = 3 ∧
      lateTables.virtualFinish "a" = 3 ∧ lateTables.virtualFinish "b" = 0 := by
  refine ⟨lateTables_reachable, ?_⟩
  decide +kernel

end SmeshDurable.Outbox
