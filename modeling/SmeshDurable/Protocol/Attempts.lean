import SmeshDurable.Protocol.EventLog

/-!
# The attempts of a dispatch

Attempts are numbered from one, and only the last one of a leased row is open, under
the row's own token. A lease adds an attempt after closing what was open, a release
gives the open attempt a new token, and every other change of the outbox closes the
attempts it finds open.
-/

namespace SmeshDurable

/-- The columns of one attempt agree. -/
structure AttemptRow.Valid (now : Int) (attempt : AttemptRow) : Prop where
  started : attempt.startedAt ≤ now
  finished : ∀ finishedAt ∈ attempt.finishedAt, attempt.startedAt ≤ finishedAt
  outcome : attempt.finishedAt.isNone = attempt.outcome.isNone
  error : optionalBytes attempt.error ≤ 4096

/-- The attempts of an outbox row with the given state, count and token. -/
structure AttemptsValid (state : OutboxState) (attemptCount : Nat) (leaseToken : Option String)
    (attempts : List AttemptRow) (now : Int) : Prop where
  count : attemptCount = attempts.length
  numbered : attempts.map AttemptRow.attemptNo = List.range' 1 attempts.length
  settled : state ≠ .leased → ∀ attempt ∈ attempts, attempt.isOpen = false
  current : state = .leased → ∃ earlier attempt, attempts = earlier ++ [attempt] ∧
    (∀ x ∈ earlier, x.isOpen = false) ∧ attempt.isOpen = true ∧
    leaseToken = some attempt.leaseToken
  rows : ∀ attempt ∈ attempts, attempt.Valid now

/-- The second attempt is the first one, closed at `now` if it was open. -/
inductive AttemptRow.ClosesTo (now : Int) : AttemptRow → AttemptRow → Prop
  | closed {attempt : AttemptRow} (hclosed : attempt.isOpen = false) : ClosesTo now attempt attempt
  | closing {attempt : AttemptRow} (outcome : AttemptOutcome) (error : Option String)
      (next : Option Int) (hopen : attempt.isOpen = true) (herror : optionalBytes error ≤ 4096) :
      ClosesTo now attempt
        { attempt with finishedAt := some now, outcome := some outcome, error, nextAttemptAt := next }

namespace AttemptRow

variable {now now' : Int} {attempt attempt' : AttemptRow}

theorem Valid.mono (h : attempt.Valid now) (hle : now ≤ now') : attempt.Valid now' :=
  ⟨h.started.trans hle, h.finished, h.outcome, h.error⟩

namespace ClosesTo

theorem attemptNo_eq (h : ClosesTo now attempt attempt') :
    attempt'.attemptNo = attempt.attemptNo := by
  cases h <;> rfl

theorem isOpen_eq_false (h : ClosesTo now attempt attempt') : attempt'.isOpen = false := by
  cases h with
  | closed hclosed => exact hclosed
  | closing => rfl

theorem valid (h : ClosesTo now' attempt attempt') (hvalid : attempt.Valid now)
    (hle : now ≤ now') : attempt'.Valid now' := by
  cases h with
  | closed => exact hvalid.mono hle
  | closing outcome error next hopen herror =>
    refine ⟨hvalid.started.trans hle, ?_, rfl, herror⟩
    intro finishedAt hmem
    obtain rfl : now' = finishedAt := by simpa using hmem
    exact hvalid.started.trans hle

end ClosesTo

theorem close_closesTo {outcome : AttemptOutcome} {error : Option String}
    (hvalid : attempt.Valid now) (herror : optionalBytes error ≤ 4096) :
    ClosesTo now' attempt (attempt.close outcome error now') := by
  unfold close
  split
  case isTrue hopen =>
    refine .closing outcome _ attempt.nextAttemptAt hopen ?_
    cases error with
    | none => exact hvalid.error
    | some error => exact herror
  case isFalse hopen => exact .closed (by simpa using hopen)

end AttemptRow

namespace AttemptsValid

variable {state : OutboxState} {attemptCount : Nat} {leaseToken : Option String}
  {attempts attempts' : List AttemptRow} {now now' : Int}

theorem admitted : AttemptsValid .pending 0 leaseToken [] now :=
  ⟨rfl, rfl, by simp, by simp, by simp⟩

theorem mono (h : AttemptsValid state attemptCount leaseToken attempts now) (hle : now ≤ now') :
    AttemptsValid state attemptCount leaseToken attempts now' :=
  ⟨h.count, h.numbered, h.settled, h.current, fun attempt hmem => (h.rows attempt hmem).mono hle⟩

/-- An open attempt is the counted one and has the row's token. -/
theorem of_isOpen (h : AttemptsValid state attemptCount leaseToken attempts now)
    {attempt : AttemptRow} (hmem : attempt ∈ attempts) (hopen : attempt.isOpen = true) :
    state = .leased ∧ attempt.attemptNo = attemptCount ∧
      leaseToken = some attempt.leaseToken := by
  have hleased : state = .leased := by
    by_contra hne
    simp [h.settled hne attempt hmem] at hopen
  obtain ⟨earlier, last, rfl, hearlier, -, htoken⟩ := h.current hleased
  rw [List.mem_append, List.mem_singleton] at hmem
  rcases hmem with hmem | rfl
  · simp [hearlier attempt hmem] at hopen
  · refine ⟨hleased, ?_, htoken⟩
    have hnumbered := h.numbered
    rw [List.length_append, List.length_singleton, List.range'_concat, List.map_append] at hnumbered
    have hlast := (List.append_inj hnumbered (by simp)).2
    rw [h.count, List.length_append, List.length_singleton]
    have : attempt.attemptNo = 1 + 1 * earlier.length := by simpa using hlast
    omega

/-- A row leaves the leased state with all its attempts closed. -/
theorem close (h : AttemptsValid state attemptCount leaseToken attempts now)
    (hcloses : List.Forall₂ (AttemptRow.ClosesTo now') attempts attempts') (hle : now ≤ now')
    {state' : OutboxState} {leaseToken' : Option String} (hstate : state' ≠ .leased) :
    AttemptsValid state' attemptCount leaseToken' attempts' now' := by
  have hlength : attempts.length = attempts'.length := hcloses.length_eq
  have hmem : ∀ attempt' ∈ attempts', ∃ attempt ∈ attempts, attempt.ClosesTo now' attempt' := by
    intro attempt' hmem'
    obtain ⟨i, hi, rfl⟩ := List.getElem_of_mem hmem'
    exact ⟨attempts[i], List.getElem_mem _, (List.forall₂_iff_get.mp hcloses).2 i (by omega) hi⟩
  refine ⟨h.count.trans hlength, ?_, ?_, fun hleased => absurd hleased hstate, ?_⟩
  · rw [← hlength, ← h.numbered]
    clear hmem hlength h
    induction hcloses with
    | nil => rfl
    | cons hhead _ ih => rw [List.map_cons, List.map_cons, hhead.attemptNo_eq, ih]
  · intro _ attempt' hmem'
    obtain ⟨attempt, -, hcloses⟩ := hmem attempt' hmem'
    exact hcloses.isOpen_eq_false
  · intro attempt' hmem'
    obtain ⟨attempt, hattempt, hcloses⟩ := hmem attempt' hmem'
    exact hcloses.valid (h.rows attempt hattempt) hle

/-- Closing every open attempt. -/
theorem closesTo_map_close (h : AttemptsValid state attemptCount leaseToken attempts now)
    (now' : Int) (outcome : AttemptOutcome) (error : Option String)
    (herror : optionalBytes error ≤ 4096) :
    List.Forall₂ (AttemptRow.ClosesTo now') attempts
      (attempts.map (AttemptRow.close outcome error now')) := by
  rw [List.forall₂_map_right_iff, List.forall₂_same]
  intro attempt hmem
  exact AttemptRow.close_closesTo (h.rows attempt hmem) herror

/-- Closing the attempt with the row's number and token closes every open attempt. -/
theorem closesTo_map (h : AttemptsValid state attemptCount leaseToken attempts now)
    {finish : AttemptRow → AttemptRow}
    (hclosed : ∀ attempt, attempt.isOpen = false → finish attempt = attempt)
    (hopen : ∀ attempt ∈ attempts, attempt.isOpen = true → attempt.attemptNo = attemptCount →
      leaseToken = some attempt.leaseToken → attempt.ClosesTo now' (finish attempt)) :
    List.Forall₂ (AttemptRow.ClosesTo now') attempts (attempts.map finish) := by
  rw [List.forall₂_map_right_iff, List.forall₂_same]
  intro attempt hmem
  cases hisOpen : attempt.isOpen with
  | false =>
    rw [hclosed attempt hisOpen]
    exact .closed hisOpen
  | true =>
    obtain ⟨-, hnumber, htoken⟩ := h.of_isOpen hmem hisOpen
    exact hopen attempt hmem hisOpen hnumber htoken

/-- A new attempt under a new token. -/
theorem lease (h : AttemptsValid state attemptCount leaseToken attempts now) (hle : now ≤ now')
    (token : String) :
    AttemptsValid .leased (attemptCount + 1) (some token)
      (attempts.map (AttemptRow.close .leaseExpired none now') ++
        [{ attemptNo := attemptCount + 1, leaseToken := token, startedAt := now',
           finishedAt := none, outcome := none, error := none, nextAttemptAt := none }]) now' := by
  have hclosed : AttemptsValid .pending attemptCount none _ now' :=
    h.close (h.closesTo_map_close now' .leaseExpired none (Nat.zero_le _)) hle (by decide)
  refine ⟨?_, ?_, fun hne => absurd rfl hne, fun _ => ⟨_, _, rfl, ?_, rfl, rfl⟩, ?_⟩
  · rw [List.length_append, List.length_singleton, List.length_map, h.count]
  · rw [List.map_append, hclosed.numbered, List.length_append, List.length_singleton,
      List.range'_concat, ← hclosed.count]
    simp [Nat.add_comm]
  · exact hclosed.settled (by decide)
  · intro attempt hmem
    rw [List.mem_append, List.mem_singleton] at hmem
    rcases hmem with hmem | rfl
    · exact hclosed.rows attempt hmem
    · exact ⟨le_rfl, by simp, rfl, Nat.zero_le _⟩

/-- The open attempt under a new token. -/
theorem release (h : AttemptsValid .leased attemptCount leaseToken attempts now)
    (hle : now ≤ now') (token : String) :
    AttemptsValid .leased attemptCount (some token)
      (attempts.map (AttemptRow.refence attemptCount token now')) now' := by
  obtain ⟨earlier, last, rfl, hearlier, hopen, htoken⟩ := h.current rfl
  obtain ⟨-, hnumber, -⟩ := h.of_isOpen (by simp) hopen
  have hkeep : earlier.map (AttemptRow.refence attemptCount token now') = earlier := by
    refine (List.map_congr_left fun x hx => ?_).trans (List.map_id _)
    simp [AttemptRow.refence, hearlier x hx]
  rw [List.map_append, hkeep, List.map_singleton, AttemptRow.refence, if_pos ⟨hnumber, hopen⟩]
  refine ⟨?_, ?_, fun hne => absurd rfl hne, fun _ => ⟨earlier, _, rfl, hearlier, rfl, rfl⟩, ?_⟩
  · simpa using h.count
  · simpa using h.numbered
  · intro attempt hmem
    rw [List.mem_append, List.mem_singleton] at hmem
    rcases hmem with hmem | rfl
    · exact (h.rows attempt (by simp [hmem])).mono hle
    · exact ⟨le_rfl, by simp, rfl, Nat.zero_le _⟩

end AttemptsValid

end SmeshDurable
