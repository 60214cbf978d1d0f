import SmeshDurable.Quota.Overrides
import Mathlib.Algebra.Order.Field.Rat
import Mathlib.Tactic.Positivity
import Mathlib.Tactic.IntervalCases

/-!
# The bucket of reconnects

Reconnects are charged to a token bucket: a row with whole tokens, the remainder of the last
refill and its time. A charge first sets the capacity to the limit in force, then adds what flowed
in since the last refill, at the rate of that limit, and takes its units. A refused charge leaves
the row as it was.
-/

namespace SmeshDurable.Quota

/-! ## Charges -/

/-- A row of `quota_buckets` with the algorithm `tokenBucket`. -/
structure Bucket where
  capacity : Nat
  usedUnits : Nat
  availableTokens : Nat
  lastRefillAt : Int
  refillNumerator : Nat
  refillPeriodMillis : Nat
  refillRemainder : Nat
deriving DecidableEq

namespace Bucket

def create (capacity windowMillis : Nat) (now : Int) : Bucket :=
  { capacity, usedUnits := 0, availableTokens := capacity, lastRefillAt := now,
    refillNumerator := capacity, refillPeriodMillis := windowMillis, refillRemainder := 0 }

/-- The update to the capacity in force; the time of the last refill stays. -/
def setCapacity (b : Bucket) (capacity : Nat) : Bucket :=
  if b.capacity = capacity then b
  else { b with usedUnits := capacity - min b.availableTokens capacity
                availableTokens := min b.availableTokens capacity
                refillNumerator := capacity
                capacity }

def refillTotal (b : Bucket) (now : Int) : Nat :=
  (now - b.lastRefillAt).toNat * b.refillNumerator + b.refillRemainder

def refilled (b : Bucket) (now : Int) : Nat :=
  min b.capacity (b.availableTokens + b.refillTotal now / b.refillPeriodMillis)

/-- Refused if there are too few tokens; the statement fails if the inflow is no `bigint`. -/
def charge (b : Bucket) (units : Nat) (now : Int) : Option Bucket :=
  if (b.refillTotal now / b.refillPeriodMillis : Nat) ≤ i64Max ∧ units ≤ b.refilled now then
    some { b with
      usedUnits := b.capacity - (b.refilled now - units)
      availableTokens := b.refilled now - units
      lastRefillAt := max now b.lastRefillAt
      refillRemainder :=
        if b.refilled now = b.capacity then 0 else b.refillTotal now % b.refillPeriodMillis }
  else none

end Bucket

structure Charge where
  now : Int
  units : Nat
deriving DecidableEq

section Runs

variable (limit : Int → Nat) (window : Nat)

/-- A charge against the bucket, which the first one creates. -/
def applyCharge (bucket : Option Bucket) (c : Charge) : Option Bucket :=
  ((bucket.getD (.create (limit c.now) window c.now)).setCapacity (limit c.now)).charge c.units c.now

/-- A refused charge is rolled back. -/
def step (bucket : Option Bucket) (c : Charge) : Option Bucket :=
  (applyCharge limit window bucket c).or bucket

def after (charges : List Charge) : Option Bucket := charges.foldl (step limit window) none

/-- The charges that are granted. -/
def granted : Option Bucket → List Charge → List Charge
  | _, [] => []
  | bucket, c :: rest =>
    match applyCharge limit window bucket c with
    | some b => c :: granted (some b) rest
    | none => granted bucket rest

/-- The units granted from one instant to another. -/
def grantedUnits (bucket : Option Bucket) (charges : List Charge) (start stop : Int) : Nat :=
  (((granted limit window bucket charges).filter fun c => start ≤ c.now ∧ c.now ≤ stop).map
    Charge.units).sum

/-- The limits of the milliseconds from one instant up to another. -/
def inflow (start stop : Int) : Nat := ∑ i ∈ Finset.range (stop - start).toNat, limit (start + i)

/-- No charge is made under a limit above the average since the last refill. -/
def steady : Option Bucket → List Charge → Bool
  | _, [] => true
  | bucket, c :: rest =>
    (bucket.all fun b => (c.now - b.lastRefillAt).toNat * limit c.now ≤
      inflow limit b.lastRefillAt c.now) &&
    steady (step limit window bucket c) rest

end Runs

/-! ## The ideal bucket -/

section Ideal

variable (limit window : Nat)

/-- Tokens flow in continuously, up to the limit. -/
def flow (level : ℚ) (millis : ℚ) : ℚ := min limit (level + millis * limit / window)

def idealGranted : ℚ → Int → List Charge → List Charge
  | _, _, [] => []
  | level, time, c :: rest =>
    let level' := flow limit window level (c.now - time)
    if c.units ≤ level' then c :: idealGranted (level' - c.units) c.now rest
    else idealGranted level' c.now rest

theorem flow_flow (level : ℚ) {millis millis' : ℚ} (h' : 0 ≤ millis') :
    flow limit window (flow limit window level millis) millis' =
      flow limit window level (millis + millis') := by
  have hinflow : 0 ≤ millis' * limit / window :=
    div_nonneg (mul_nonneg h' (Nat.cast_nonneg _)) (Nat.cast_nonneg _)
  rw [flow, flow, flow, ← min_add_add_right, ← min_assoc, add_mul, add_div, ← add_assoc,
    min_eq_left (le_add_of_nonneg_right hinflow)]

end Ideal

/-! ## States -/

namespace Bucket

variable {b b' : Bucket} {window units : Nat} {now : Int}

/-- What every committed row satisfies. -/
structure Sound (b : Bucket) (window : Nat) : Prop where
  available_le : b.availableTokens ≤ b.capacity
  used : b.usedUnits = b.capacity - b.availableTokens
  numerator : b.refillNumerator = b.capacity
  period : b.refillPeriodMillis = window
  remainder_lt : b.refillRemainder < window

theorem Sound.create (hwindow : 0 < window) (capacity : Nat) (now : Int) :
    (create capacity window now).Sound window :=
  ⟨le_rfl, (Nat.sub_self _).symm, rfl, rfl, hwindow⟩

theorem Sound.setCapacity (h : b.Sound window) (capacity : Nat) :
    (b.setCapacity capacity).Sound window ∧ (b.setCapacity capacity).capacity = capacity ∧
      (b.setCapacity capacity).lastRefillAt = b.lastRefillAt ∧
      (b.setCapacity capacity).availableTokens ≤ b.availableTokens ∧
      (b.setCapacity capacity).refillRemainder = b.refillRemainder := by
  rw [Bucket.setCapacity]
  split
  next heq => exact ⟨h, heq, rfl, le_rfl, rfl⟩
  next => exact ⟨⟨min_le_right _ _, rfl, rfl, h.period, h.remainder_lt⟩, rfl, rfl, min_le_left _ _, rfl⟩

/-- The content of a bucket at a later time, in parts of a token. -/
def content (b : Bucket) (window : Nat) (now : Int) : Nat :=
  min (b.capacity * window)
    (b.availableTokens * window + b.refillRemainder + (now - b.lastRefillAt).toNat * b.capacity)

/-- A refill fills the bucket, or leaves whole tokens and a remainder. -/
theorem Sound.refill_cases (h : b.Sound window) (hwindow : 0 < window) (now : Int) :
    b.refilled now = b.capacity ∧ b.content window now = b.capacity * window ∨
      b.refilled now < b.capacity ∧
        b.content window now = b.refilled now * window + b.refillTotal now % window := by
  have htotal : b.availableTokens * window + b.refillRemainder +
      (now - b.lastRefillAt).toNat * b.capacity =
        (b.availableTokens + b.refillTotal now / window) * window + b.refillTotal now % window := by
    have hdiv := Nat.div_add_mod (b.refillTotal now) window
    rw [add_mul, Nat.add_assoc, Nat.add_assoc, Nat.mul_comm (_ / _), hdiv, refillTotal, h.numerator,
      Nat.add_comm b.refillRemainder]
  have hmod : b.refillTotal now % window < window := Nat.mod_lt _ hwindow
  rw [refilled, content, htotal, h.period]
  rcases Nat.lt_or_ge (b.availableTokens + b.refillTotal now / window) b.capacity with hlt | hge
  · right
    have hroom := Nat.mul_le_mul_right window (Nat.succ_le_of_lt hlt)
    rw [Nat.succ_mul] at hroom
    rw [min_eq_right hlt.le]
    exact ⟨hlt, min_eq_right (by omega)⟩
  · left
    have hfull := Nat.mul_le_mul_right window hge
    exact ⟨min_eq_left hge, min_eq_left (by omega)⟩

theorem Sound.units_le_iff (h : b.Sound window) (hwindow : 0 < window) :
    units ≤ b.refilled now ↔ units * window ≤ b.content window now := by
  rcases h.refill_cases hwindow now with ⟨hfull, hcontent⟩ | ⟨-, hcontent⟩
  · rw [hfull, hcontent, Nat.mul_le_mul_right_iff hwindow]
  · have hmod : b.refillTotal now % window < window := Nat.mod_lt _ hwindow
    rw [hcontent]
    constructor
    · intro hle
      exact (Nat.mul_le_mul_right window hle).trans (Nat.le_add_right _ _)
    · intro hle
      by_contra hlt
      have hroom := Nat.mul_le_mul_right window (Nat.succ_le_of_lt (not_le.mp hlt))
      rw [Nat.succ_mul] at hroom
      omega

/-- A granted charge takes its units off the content. -/
theorem Sound.charge (h : b.Sound window) (hwindow : 0 < window)
    (hcharge : b.charge units now = some b') :
    b'.Sound window ∧ b'.capacity = b.capacity ∧ b'.lastRefillAt = max now b.lastRefillAt ∧
      b'.availableTokens * window + b'.refillRemainder + units * window = b.content window now := by
  unfold Bucket.charge at hcharge
  split at hcharge
  next hgrant =>
    obtain rfl := Option.some.inj hcharge
    have hunits : (b.refilled now - units) * window + units * window = b.refilled now * window := by
      rw [← Nat.add_mul, Nat.sub_add_cancel hgrant.2]
    have hle : b.refilled now - units ≤ b.capacity := (Nat.sub_le _ _).trans (min_le_left _ _)
    rcases h.refill_cases hwindow now with ⟨hfull, hcontent⟩ | ⟨hlt, hcontent⟩
    · refine ⟨⟨hle, rfl, h.numerator, h.period, ?_⟩, rfl, rfl, ?_⟩
      · simpa [hfull] using hwindow
      · simp only [hfull, if_true] at hunits ⊢
        omega
    · refine ⟨⟨hle, rfl, h.numerator, h.period, ?_⟩, rfl, rfl, ?_⟩
      · simpa [hlt.ne, h.period] using Nat.mod_lt _ hwindow
      · simp only [hlt.ne, if_false, h.period]
        omega
  · cases hcharge

end Bucket

section Runs

variable {limit : Int → Nat} {window : Nat} {bucket : Option Bucket} {b : Bucket} {c : Charge}
  {charges : List Charge}

/-- The content that a granted charge leaves, and its units, were there before: at most the limit,
and at most what the bucket had and the inflow. -/
theorem applyCharge_spec (hwindow : 0 < window) (hsound : ∀ b ∈ bucket, b.Sound window)
    {b' : Bucket} (h : applyCharge limit window bucket c = some b') :
    b'.Sound window ∧ (∀ b ∈ bucket, b'.lastRefillAt = max c.now b.lastRefillAt) ∧
      (bucket = none → b'.lastRefillAt = c.now) ∧
      b'.availableTokens * window + b'.refillRemainder + c.units * window ≤ limit c.now * window ∧
      ∀ b ∈ bucket, b'.availableTokens * window + b'.refillRemainder + c.units * window ≤
        b.availableTokens * window + b.refillRemainder +
          (c.now - b.lastRefillAt).toNat * limit c.now := by
  have hstart : (bucket.getD (.create (limit c.now) window c.now)).Sound window := by
    cases bucket with
    | none => exact .create hwindow _ _
    | some b => exact hsound b rfl
  obtain ⟨hset, hcapacity, hlast, havailable, hremainder⟩ := hstart.setCapacity (limit c.now)
  obtain ⟨hsound', -, hlast', hcontent⟩ := hset.charge hwindow h
  rw [Bucket.content, hcapacity, hlast, hremainder] at hcontent
  rw [hlast] at hlast'
  refine ⟨hsound', ?_, ?_, hcontent.trans_le (min_le_left _ _), ?_⟩
  · rintro b rfl
    exact hlast'
  · rintro rfl
    exact hlast'.trans (max_self _)
  · rintro b rfl
    have htokens := Nat.mul_le_mul_right window havailable
    refine hcontent.trans_le ((min_le_right _ _).trans ?_)
    simpa using htokens

theorem step_sound (hwindow : 0 < window) (hsound : ∀ b ∈ bucket, b.Sound window) (c : Charge) :
    ∀ b ∈ step limit window bucket c, b.Sound window := by
  rw [step]
  cases h : applyCharge limit window bucket c with
  | none => exact hsound
  | some b' =>
    simpa using (applyCharge_spec hwindow hsound h).1

/-- Every committed row is sound. -/
theorem after_sound (hwindow : 0 < window) : ∀ b ∈ after limit window charges, b.Sound window := by
  have hrun : ∀ bucket, (∀ b ∈ bucket, b.Sound window) →
      ∀ b ∈ charges.foldl (step limit window) bucket, b.Sound window := by
    induction charges with
    | nil => exact fun _ h => h
    | cons c charges ih => exact fun _ h => ih _ (step_sound hwindow h c)
  exact hrun none (by simp)

/-! ## Grants of an interval -/

variable {start stop : Int}

theorem grantedUnits_granted {b' : Bucket} (h : applyCharge limit window bucket c = some b') :
    grantedUnits limit window bucket (c :: charges) start stop =
      (if start ≤ c.now ∧ c.now ≤ stop then c.units else 0) +
        grantedUnits limit window (some b') charges start stop := by
  rw [grantedUnits, granted, h]
  by_cases hwithin : start ≤ c.now ∧ c.now ≤ stop <;> simp [hwithin, grantedUnits]

theorem grantedUnits_refused (h : applyCharge limit window bucket c = none) :
    grantedUnits limit window bucket (c :: charges) start stop =
      grantedUnits limit window bucket charges start stop := by
  rw [grantedUnits, granted, h]
  rfl

theorem grantedUnits_of_late (h : ∀ c ∈ charges, stop < c.now) :
    grantedUnits limit window bucket charges start stop = 0 := by
  induction charges generalizing bucket with
  | nil => rfl
  | cons c charges ih =>
    have hc := h c List.mem_cons_self
    have hrest := fun bucket => @ih bucket fun c hc => h c (List.mem_cons_of_mem _ hc)
    cases happly : applyCharge limit window bucket c with
    | none => rw [grantedUnits_refused happly, hrest]
    | some b' => rw [grantedUnits_granted happly, hrest, if_neg (by omega)]

/-- What an interval can still be granted: what the bucket has since a refill in the interval, or
else the largest limit, and what flows in. -/
def supply (limit : Int → Nat) (window most : Nat) (start stop : Int) (bucket : Option Bucket) : Nat :=
  match bucket.filter (start ≤ ·.lastRefillAt) with
  | some b => b.availableTokens * window + b.refillRemainder + inflow limit b.lastRefillAt stop
  | none => window * most + inflow limit start stop

theorem inflow_add {middle : Int} (hstart : start ≤ middle) (hstop : middle ≤ stop) :
    inflow limit start middle + inflow limit middle stop = inflow limit start stop := by
  have hlength : (stop - start).toNat = (middle - start).toNat + (stop - middle).toNat := by omega
  rw [inflow, inflow, inflow, hlength, Finset.sum_range_add]
  refine congrArg _ (Finset.sum_congr rfl fun i _ => congrArg limit ?_)
  omega

/-- A charge in the interval is covered by the supply, and leaves the supply behind it. -/
theorem units_add_supply_le (hwindow : 0 < window) (hsound : ∀ b ∈ bucket, b.Sound window)
    (hlater : ∀ b ∈ bucket, b.lastRefillAt ≤ c.now ∧ (c.now - b.lastRefillAt).toNat * limit c.now ≤
      inflow limit b.lastRefillAt c.now)
    (hwithin : start ≤ c.now ∧ c.now ≤ stop) {most : Nat} (hmost : limit c.now ≤ most) {b' : Bucket}
    (happly : applyCharge limit window bucket c = some b') (hlast : b'.lastRefillAt = c.now) :
    window * c.units + supply limit window most start stop (some b') ≤
      supply limit window most start stop bucket := by
  obtain ⟨-, -, -, hcapped, hcontent⟩ := applyCharge_spec hwindow hsound happly
  rw [Nat.mul_comm c.units] at hcapped hcontent
  simp only [supply, Option.filter_some, hlast, hwithin.1, decide_true, if_true]
  split
  next b hb =>
    obtain ⟨hmem, -⟩ := Option.filter_eq_some_iff.mp hb
    obtain ⟨hbefore, hinflow⟩ := hlater b hmem
    -- the inflow up to the charge, and the one behind it
    rw [← inflow_add hbefore hwithin.2]
    have hcovered := hcontent b hmem
    omega
  next =>
    have hlimit := Nat.mul_le_mul_left window hmost
    rw [← inflow_add hwithin.1 hwithin.2]
    rw [Nat.mul_comm (limit c.now)] at hcapped
    omega

/-- In an interval no more is granted than the supply. -/
theorem grantedUnits_le (hwindow : 0 < window) (hsound : ∀ b ∈ bucket, b.Sound window)
    (htimes : charges.Pairwise fun c c' => c.now ≤ c'.now)
    (hlater : ∀ b ∈ bucket, ∀ c ∈ charges, b.lastRefillAt ≤ c.now)
    (hsteady : steady limit window bucket charges = true) {most : Nat}
    (hmost : ∀ time, start ≤ time → time ≤ stop → limit time ≤ most) :
    window * grantedUnits limit window bucket charges start stop ≤
      supply limit window most start stop bucket := by
  induction charges generalizing bucket with
  | nil => exact Nat.zero_le _
  | cons c charges ih =>
    obtain ⟨hhead, htimes⟩ := List.pairwise_cons.mp htimes
    rw [steady, Bool.and_eq_true, Option.all_eq_true] at hsteady
    obtain ⟨hrate, hsteady⟩ := hsteady
    rw [step] at hsteady
    cases happly : applyCharge limit window bucket c with
    | none =>
      rw [happly, Option.none_or] at hsteady
      rw [grantedUnits_refused happly]
      exact ih hsound htimes (fun b hb c hc => hlater b hb c (List.mem_cons_of_mem _ hc)) hsteady
    | some b' =>
      rw [happly, Option.some_or] at hsteady
      have hbefore : ∀ b ∈ bucket, b.lastRefillAt ≤ c.now := fun b hb => hlater b hb c List.mem_cons_self
      obtain ⟨hsound', hlast, hnew, -, -⟩ := applyCharge_spec hwindow hsound happly
      have hlast' : b'.lastRefillAt = c.now := by
        cases bucket with
        | none => exact hnew rfl
        | some b => exact (hlast b rfl).trans (max_eq_left (hbefore b rfl))
      have hrest := ih (by simpa using hsound') htimes
        (by simpa using fun c' hc' => hlast'.trans_le (hhead c' hc')) hsteady
      rw [grantedUnits_granted happly, Nat.mul_add]
      split
      next hwithin =>
        have hcovered := units_add_supply_le hwindow hsound
          (fun b hb => ⟨hbefore b hb, of_decide_eq_true (hrate b hb)⟩) hwithin
          (hmost _ hwithin.1 hwithin.2) happly hlast'
        omega
      next hwithin =>
        rw [Nat.mul_zero, Nat.zero_add]
        rcases lt_or_ge c.now start with hearly | hstart
        · -- no refill of the interval, before or after
          have hnone : ∀ row : Option Bucket, (∀ b ∈ row, b.lastRefillAt ≤ c.now) →
              row.filter (start ≤ ·.lastRefillAt) = none := fun row hrow =>
            Option.filter_eq_none_iff.mpr fun b hb => by simpa using (hrow b hb).trans_lt hearly
          simpa only [supply, hnone _ hbefore, hnone (some b') (by simp [hlast'])] using hrest
        · rw [grantedUnits_of_late fun c' hc' => (by omega : stop < c.now).trans_le (hhead c' hc')]
          exact Nat.zero_le _

end Runs

/-! ## A constant limit -/

section Constant

variable {limit : Int → Nat} {constant window : Nat} {b : Bucket} {charges : List Charge} {time : Int}

/-- What flows into the row is what flows into the ideal bucket. -/
theorem content_flow (hwindow : 0 < window) (hcapacity : b.capacity = constant)
    (hlast : b.lastRefillAt ≤ time) {now : Int} (hnow : time ≤ now) :
    flow constant window (b.content window time / window) (now - time) =
      b.content window now / window := by
  have hwindow' : (0 : ℚ) < window := by exact_mod_cast hwindow
  have hmillis : ((now : ℚ) - time) = ((now - time).toNat : Nat) := by
    rw [← Int.cast_sub, ← Int.cast_natCast (R := ℚ), Int.toNat_of_nonneg (by omega)]
  have helapsed : (now - b.lastRefillAt).toNat * constant =
      (time - b.lastRefillAt).toNat * constant + (now - time).toNat * constant := by
    rw [← Nat.add_mul]
    congr 1
    omega
  have hcontent : b.content window now =
      min (constant * window) (b.content window time + (now - time).toNat * constant) := by
    rw [Bucket.content, Bucket.content, hcapacity, helapsed]
    omega
  rw [flow, hmillis, hcontent, Nat.cast_min, ← min_div_div_right hwindow'.le]
  push_cast
  rw [mul_div_cancel_right₀ _ hwindow'.ne', add_div]

theorem charge_eq_some_iff (hwindow : 0 < window) (hsound : b.Sound window)
    (hcapacity : b.capacity = constant) {start now : Int} (hstart : start ≤ b.lastRefillAt)
    (hnow : start ≤ now) (hfits : (now - start) * constant < i64Max * window) {units : Nat} :
    (∃ b', b.charge units now = some b') ↔ (units : ℚ) ≤ b.content window now / window := by
  have hwindow' : (0 : ℚ) < window := by exact_mod_cast hwindow
  have hcast : ((b.refillTotal now / b.refillPeriodMillis : Nat) : Int) ≤ i64Max := by
    have helapsed : ((now - b.lastRefillAt).toNat : Int) * constant ≤ (now - start) * constant :=
      mul_le_mul_of_nonneg_right (by omega) (Int.natCast_nonneg _)
    have hremainder := hsound.remainder_lt
    rw [hsound.period, Int.natCast_ediv, ← Int.lt_add_one_iff]
    apply Int.ediv_lt_of_lt_mul (by omega)
    rw [Bucket.refillTotal, hsound.numerator, hcapacity, add_mul, one_mul]
    push_cast
    omega
  rw [le_div_iff₀ hwindow', ← Nat.cast_mul, Nat.cast_le, ← hsound.units_le_iff hwindow]
  constructor
  · rintro ⟨b', h⟩
    by_contra hunits
    rw [Bucket.charge, if_neg fun hgrant => hunits hgrant.2] at h
    cases h
  · intro hunits
    exact ⟨_, if_pos ⟨hcast, hunits⟩⟩

/-- A row grants what the ideal bucket grants. -/
theorem granted_eq_ideal_of_row (hwindow : 0 < window) (hsound : b.Sound window)
    (hcapacity : b.capacity = constant) {start : Int} (hstart : start ≤ b.lastRefillAt)
    (hlast : b.lastRefillAt ≤ time) (htimes : charges.Pairwise fun c c' => c.now ≤ c'.now)
    (hlater : ∀ c ∈ charges, time ≤ c.now) (hlimit : ∀ c ∈ charges, limit c.now = constant)
    (hfits : ∀ c ∈ charges, (c.now - start) * constant < i64Max * window) :
    granted limit window (some b) charges =
      idealGranted constant window (b.content window time / window) time charges := by
  induction charges generalizing b time with
  | nil => rfl
  | cons c charges ih =>
    obtain ⟨hhead, htimes⟩ := List.pairwise_cons.mp htimes
    obtain ⟨hlimit, hlimits⟩ := List.forall_mem_cons.mp hlimit
    obtain ⟨hfits, hrest⟩ := List.forall_mem_cons.mp hfits
    have hnow := hlater c List.mem_cons_self
    have hgrant : (∃ b', b.charge c.units c.now = some b') ↔ _ :=
      charge_eq_some_iff hwindow hsound hcapacity hstart (hstart.trans (hlast.trans hnow)) hfits
    have happly : applyCharge limit window (some b) c = b.charge c.units c.now := by
      rw [applyCharge, hlimit, Option.getD_some, Bucket.setCapacity, if_pos hcapacity]
    rw [granted, idealGranted, happly, content_flow hwindow hcapacity hlast hnow]
    cases hcharge : b.charge c.units c.now with
    | none =>
      have hrefused : ¬ ∃ b', b.charge c.units c.now = some b' := by simp [hcharge]
      rw [if_neg (mt hgrant.mpr hrefused)]
      exact ih hsound hcapacity hstart (hlast.trans hnow) htimes hhead hlimits hrest
    | some b' =>
      obtain ⟨hsound', hcapacity', hlast', hcontent⟩ := hsound.charge hwindow hcharge
      rw [max_eq_left (hlast.trans hnow)] at hlast'
      have hcontent' : b'.content window c.now + c.units * window = b.content window c.now := by
        have hle : b.content window c.now ≤ b.capacity * window := min_le_left _ _
        rw [Bucket.content, hlast', Int.sub_self, Int.toNat_zero, Nat.zero_mul, hcapacity']
        omega
      have hlevel : (b.content window c.now / window : ℚ) - c.units =
          b'.content window c.now / window := by
        have hwindow' : (window : ℚ) ≠ 0 := by exact_mod_cast hwindow.ne'
        rw [← hcontent', Nat.cast_add, Nat.cast_mul, add_div, mul_div_cancel_right₀ _ hwindow',
          add_sub_cancel_right]
      rw [if_pos (hgrant.mp ⟨b', hcharge⟩), hlevel]
      exact congrArg (c :: ·) (ih hsound' (hcapacity'.trans hcapacity)
        (hlast' ▸ hstart.trans (hlast.trans hnow)) hlast'.le htimes hhead hlimits hrest)

/-- A full bucket stays full, whenever it was created. -/
theorem charge_create (hwindow : 0 < window) {start now : Int} (hnow : start ≤ now)
    (hfits : (now - start) * constant < i64Max * window) (units : Nat) :
    (Bucket.create constant window start).charge units now =
      (Bucket.create constant window now).charge units now := by
  have hcast : (now - start) * constant / window ≤ 9223372036854775807 :=
    (Int.ediv_lt_of_lt_mul (by omega) hfits).le
  simp [Bucket.charge, Bucket.create, Bucket.refilled, Bucket.refillTotal, hcast, hnow, i64Max]

/-- With a constant limit the grants are those of the ideal bucket. -/
theorem granted_eq_ideal (hwindow : 0 < window) {start : Int}
    (htimes : charges.Pairwise fun c c' => c.now ≤ c'.now) (hlater : ∀ c ∈ charges, start ≤ c.now)
    (hlimit : ∀ c ∈ charges, limit c.now = constant)
    (hfits : ∀ c ∈ charges, (c.now - start) * constant < i64Max * window) :
    granted limit window none charges = idealGranted constant window constant start charges := by
  have hrow : granted limit window none charges =
      granted limit window (some (.create constant window start)) charges := by
    clear htimes
    induction charges with
    | nil => rfl
    | cons c charges ih =>
      obtain ⟨hnow, hlater⟩ := List.forall_mem_cons.mp hlater
      obtain ⟨hlimit, hlimits⟩ := List.forall_mem_cons.mp hlimit
      obtain ⟨hfits, hrest⟩ := List.forall_mem_cons.mp hfits
      have hsame : applyCharge limit window none c =
          applyCharge limit window (some (.create constant window start)) c := by
        have hset : ∀ now, (Bucket.create constant window now).setCapacity constant =
            .create constant window now := fun _ => if_pos rfl
        rw [applyCharge, applyCharge, hlimit, Option.getD_none, Option.getD_some, hset, hset,
          charge_create hwindow hnow hfits]
      rw [granted, granted, hsame]
      split
      · rfl
      · exact ih hlater hlimits hrest
  have hwindow' : (window : ℚ) ≠ 0 := by exact_mod_cast hwindow.ne'
  have hfull : ((Bucket.create constant window start).content window start : ℚ) / window =
      constant := by
    simp [Bucket.content, Bucket.create, hwindow']
  rw [hrow, ← hfull]
  exact granted_eq_ideal_of_row hwindow (.create hwindow constant start) rfl le_rfl le_rfl htimes
    hlater hlimit hfits

end Constant

/-! ## Reconnects -/

section Reconnects

variable [ContentDigest]

/-- The limit in force for the reconnects of a scope. -/
def reconnectLimit (p : QuotaPolicy) (scopeKind : QuotaScopeKind) (scopeId : String) (now : Int) :
    Nat :=
  p.document.limitAt scopeKind scopeId .reconnect .reconnectCount now

/-- The bucket of the reconnects of a scope: its rows are sound; in every interval it grants at
most the largest limit in it and the integral of the limit over it, in parts of a token, if no
charge is made under a limit above the average since the last refill; and under a constant limit it
grants what the ideal bucket grants, for which it does not matter how the time is split. -/
theorem reconnect_bucket_bounded (p : QuotaPolicy) (scopeKind : QuotaScopeKind) (scopeId : String)
    (charges : List Charge) (htimes : charges.Pairwise fun c c' => c.now ≤ c'.now) :
    let limit := reconnectLimit p scopeKind scopeId
    let window := p.document.reconnectWindowMillis
    (∀ b, after limit window charges = some b →
      b.availableTokens ≤ b.capacity ∧ b.usedUnits = b.capacity - b.availableTokens ∧
        b.refillRemainder < b.refillPeriodMillis) ∧
    (steady limit window none charges = true → ∀ start stop most,
      (∀ time, start ≤ time → time ≤ stop → limit time ≤ most) →
        window * grantedUnits limit window none charges start stop ≤
          window * most + inflow limit start stop) ∧
    (∀ start constant, (∀ c ∈ charges, start ≤ c.now) → (∀ c ∈ charges, limit c.now = constant) →
      (∀ c ∈ charges, (c.now - start) * constant < i64Max * window) →
        granted limit window none charges = idealGranted constant window constant start charges) ∧
    ∀ (constant : Nat) (level millis millis' : ℚ), 0 ≤ millis' →
      flow constant window (flow constant window level millis) millis' =
        flow constant window level (millis + millis') := by
  have hwindow := (accepted_of_check p.checked).windows.2
  refine ⟨?_, ?_, ?_, fun constant level millis millis' h => flow_flow _ _ level h⟩
  · intro b hb
    obtain ⟨hle, hused, -, hperiod, hlt⟩ := after_sound hwindow b hb
    exact ⟨hle, hused, hperiod ▸ hlt⟩
  · intro hsteady start stop most hmost
    exact grantedUnits_le hwindow (by simp) htimes (by simp) hsteady hmost
  · intro start constant hlater hlimit hfits
    exact granted_eq_ideal hwindow htimes hlater hlimit hfits

end Reconnects

attribute [local instance] checksumDigest

/-- Two overrides of a millisecond each, one window apart. -/
def spikeDocument : PolicyDocument :=
  { sampleDocument (["a", "b"].zipWith (fun id time => { sampleOverride id time (time + 1) with
      operation := .reconnect, dimension := .reconnectCount, newLimit := 10 }) [10, 20]) with
    reconnectWindowMillis := 10 }

def spikePolicy : QuotaPolicy := policyOf spikeDocument (by decide)

/-- Reconnects at one rate, before the first override. -/
theorem calm_reconnects_granted :
    granted (reconnectLimit spikePolicy .tenant "t") 10 none [⟨1, 8⟩, ⟨2, 1⟩, ⟨3, 1⟩] =
      idealGranted 8 10 8 1 [⟨1, 8⟩, ⟨2, 1⟩, ⟨3, 1⟩] ∧
    10 * grantedUnits (reconnectLimit spikePolicy .tenant "t") 10 none [⟨1, 8⟩, ⟨2, 1⟩, ⟨3, 1⟩] 1 3 ≤
      10 * 8 + inflow (reconnectLimit spikePolicy .tenant "t") 1 3 := by
  obtain ⟨-, hbound, hideal, -⟩ :=
    reconnect_bucket_bounded spikePolicy .tenant "t" [⟨1, 8⟩, ⟨2, 1⟩, ⟨3, 1⟩] (by decide)
  refine ⟨hideal 1 8 (by decide) (by decide) (by decide), hbound (by decide) 1 3 8 ?_⟩
  intro time hstart hstop
  interval_cases time <;> decide

/-- Ten reconnects are granted in each override, where the limit was eight for all but two of the
eleven milliseconds. -/
theorem spikes_refill_at_their_own_rate :
    grantedUnits (reconnectLimit spikePolicy .tenant "t") 10 none
        (List.replicate 10 ⟨10, 1⟩ ++ List.replicate 10 ⟨20, 1⟩) 10 20 = 20 ∧
      10 * 10 + inflow (reconnectLimit spikePolicy .tenant "t") 10 20 + 10 < 10 * 20 := by
  decide +kernel

end SmeshDurable.Quota
