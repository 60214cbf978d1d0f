import SmeshDurable.Auth.Refresh

/-!
# What concurrent refreshes keep

Every key that is answered comes from a snapshot that was fresh when the call began or was
installed since, and snapshots are installed in the order they were fetched. Refreshes for unknown
keys are apart by the configured interval as far as the calls sampled the clock; a call that waited
for the lock starts its fetch later than that.
-/

namespace SmeshDurable.Auth

/-- What holds of every call and is kept for the others holds after one call changed. -/
theorem forall_update_call {calls : Nat → Option Call} {id : Nat} {next : Option Call}
    {P Q : Nat → Call → Prop} (h : ∀ other call, calls other = some call → P other call)
    (hkeep : ∀ other call, other ≠ id → calls other = some call → P other call → Q other call)
    (hnext : ∀ call ∈ next, Q id call) :
    ∀ other call, Function.update calls id next other = some call → Q other call := by
  intro other call hcall
  by_cases heq : other = id
  · subst heq
    rw [Function.update_self] at hcall
    exact hnext call hcall
  · rw [Function.update_of_ne heq] at hcall
    exact hkeep other call heq hcall (h other call hcall)

/-! ## Running calls -/

/-- What is known of a running call: it is alone in holding the lock, its fetch is the last one
and newer than every snapshot, and if nothing was installed since it began, it saw the revision of
the cache. -/
structure Placed (s : Verifier) (t : Int) (id : Nat) (call : Call) : Prop where
  held : call.phase.holds = true → s.refreshLock = some id
  since : call.since ≤ s.installs.length
  observed : ∀ observed, call.phase.observed? = some observed →
    call.since = s.installs.length → observed = s.cache.revision
  number : ∀ number, call.phase.number? = some number →
    number = s.fetches.length ∧ ∀ install ∈ s.installs, install.number < number
  found : ∀ snapshot number, call.phase = .clearing snapshot number → number ∈ s.found
  sampled : (call.now : Int) ≤ t

section Placed

variable {s s' : Verifier} {t t' : Int} {id other : Nat} {call call' : Call}

theorem Phase.number?_of_idle {phase : Phase} (h : phase.holds = false) : phase.number? = none := by
  cases phase <;> first | rfl | cases h

/-- A call without the lock depends on the snapshots only, and not on those that follow. -/
theorem Placed.of_idle (h : Placed s t id call) (hidle : call.phase.holds = false) (ht : t ≤ t')
    (hinstalls : s'.installs = s.installs ∧ s'.cache = s.cache ∨
      s.installs.length < s'.installs.length) : Placed s' t' id call where
  held hholds := by rw [hidle] at hholds; cases hholds
  since := by
    have hsince := h.since
    obtain ⟨hsame, -⟩ | hlt := hinstalls
    · rw [hsame]
      exact hsince
    · omega
  observed observed hobserved hlength := by
    have hsince := h.since
    obtain ⟨hsame, hcache⟩ | hlt := hinstalls
    · rw [hsame] at hlength
      rw [hcache]
      exact h.observed observed hobserved hlength
    · omega
  number number hnumber := by rw [Phase.number?_of_idle hidle] at hnumber; cases hnumber
  found snapshot number hphase := by rw [hphase] at hidle; cases hidle
  sampled := h.sampled.trans ht

/-- A call depends on the records and on the lock it holds. -/
theorem Placed.of_records (h : Placed s t id call) (ht : t ≤ t')
    (hlock : call.phase.holds = true → s'.refreshLock = s.refreshLock)
    (hcache : s'.cache = s.cache) (hinstalls : s'.installs = s.installs)
    (hfetches : s'.fetches = s.fetches) (hfound : s'.found = s.found) : Placed s' t' id call where
  held hholds := by rw [hlock hholds, h.held hholds]
  since := by rw [hinstalls]; exact h.since
  observed := by rw [hinstalls, hcache]; exact h.observed
  number := by rw [hinstalls, hfetches]; exact h.number
  found := by rw [hfound]; exact h.found
  sampled := h.sampled.trans ht

/-- Beside a call that holds the lock no other one does. -/
theorem Placed.idle_beside (h : Placed s t id call) (hheld : call.phase.holds = true)
    (h' : Placed s t other call') (hne : other ≠ id) : call'.phase.holds = false := by
  by_contra hboth
  have hlock := h'.held (by simpa using hboth)
  rw [h.held hheld] at hlock
  exact hne (Option.some.inj hlock).symm

end Placed

/-! ## The invariant -/

/-- The key is that of the snapshot that was there when the call began, which was fresh then, or of
one installed since. -/
def Timely (installs : List Install) (call : Call) (key : Jwk) : Prop :=
  ∃ n install, installs[n]? = some install ∧
    install.snapshot.keys.lookup call.kid = some key ∧
    (n + 1 = call.since ∧ call.now < install.snapshot.freshUntil ∨ call.since ≤ n)

theorem Timely.append {installs : List Install} {call : Call} {key : Jwk}
    (h : Timely installs call key) (more : List Install) : Timely (installs ++ more) call key := by
  obtain ⟨n, install, hn, hkey, htime⟩ := h
  refine ⟨n, install, ?_, hkey, htime⟩
  rw [List.getElem?_append_left (List.getElem?_eq_some_iff.mp hn).1, hn]

/-- Two unknown-key refreshes, the first of which did not find its key, nor did one between. -/
structure Verifier.Successive (s : Verifier) (i j : Nat) (f g : Fetch) : Prop where
  order : i < j
  first : s.fetches[i]? = some f
  second : s.fetches[j]? = some g
  unknown : f.unknown = true ∧ g.unknown = true
  unfound : ∀ number, i < number → number ≤ j → number ∉ s.found

structure Sound (config : JwtVerifierConfig) (s : Verifier) (t : Int) : Prop where
  placed : ∀ id call, s.calls id = some call → Placed s t id call
  current : ∃ earlier number, s.installs = earlier ++ [⟨s.cache, number⟩]
  answered : ∀ answer ∈ s.answers, ∀ key, answer.result = .ok key →
    Timely s.installs answer.call key
  ordered : (s.installs.map Install.number).Pairwise (· < ·)
  numbered : ∀ install ∈ s.installs, install.number ≤ s.fetches.length
  found_le : ∀ number ∈ s.found, number ≤ s.fetches.length
  /-- A refresh that did not find its key, nor did a later one, left a reservation. -/
  reserved : 0 < config.unknownKidRefreshIntervalSeconds → ∀ (i : Nat) (f : Fetch),
    s.fetches[i]? = some f → f.unknown = true → (∀ number, i < number → number ∉ s.found) →
    ∃ previous, s.lastUnknownRefresh = some previous ∧ f.sampled ≤ previous
  spaced : 0 < config.unknownKidRefreshIntervalSeconds → ∀ i j f g, s.Successive i j f g →
    f.sampled + config.unknownKidRefreshIntervalSeconds ≤ g.sampled
  started : (s.fetches.map Fetch.started).Pairwise (· ≤ ·)
  past : ∀ f ∈ s.fetches, f.sampled ≤ f.started ∧ (f.started : Int) ≤ t

section Sound

variable {config : JwtVerifierConfig} {s s' : Verifier} {t t' : Int} {id : Nat} {call : Call}

theorem Sound.opened (config : JwtVerifierConfig) (snapshot : JwksSnapshot) (t : Int) :
    Sound config (Verifier.opened snapshot) t where
  placed id call hcall := by cases hcall
  current := ⟨[], 0, rfl⟩
  answered answer hanswer := by cases hanswer
  ordered := by simp [Verifier.opened]
  numbered install hinstall := by
    rw [List.mem_singleton.mp hinstall]
    exact Nat.zero_le _
  found_le number hnumber := by cases hnumber
  reserved _ i f hf := by simp [Verifier.opened] at hf
  spaced _ i j f g h := by simpa [Verifier.opened] using h.first
  started := List.Pairwise.nil
  past f hf := by cases hf

/-- A step that only moves calls and answers. -/
theorem Sound.of_records (h : Sound config s t) (ht : t ≤ t') (hcache : s'.cache = s.cache)
    (hinstalls : s'.installs = s.installs) (hfetches : s'.fetches = s.fetches)
    (hfound : s'.found = s.found) (hlast : s'.lastUnknownRefresh = s.lastUnknownRefresh)
    (hplaced : ∀ id call, s'.calls id = some call → Placed s' t' id call)
    (hanswered : ∀ answer ∈ s'.answers, answer ∈ s.answers ∨
      ∀ key, answer.result = .ok key → Timely s.installs answer.call key) :
    Sound config s' t' where
  placed := hplaced
  current := by rw [hinstalls, hcache]; exact h.current
  answered answer hanswer key hkey := by
    rw [hinstalls]
    obtain hold | hnew := hanswered answer hanswer
    · exact h.answered answer hold key hkey
    · exact hnew key hkey
  ordered := by rw [hinstalls]; exact h.ordered
  numbered := by rw [hinstalls, hfetches]; exact h.numbered
  found_le := by rw [hfound, hfetches]; exact h.found_le
  reserved := by rw [hfound, hfetches, hlast]; exact h.reserved
  spaced hpos i j f g hsuccessive := by
    obtain ⟨horder, hfirst, hsecond, hunknown, hunfound⟩ := hsuccessive
    rw [hfetches] at hfirst hsecond
    rw [hfound] at hunfound
    exact h.spaced hpos i j f g ⟨horder, hfirst, hsecond, hunknown, hunfound⟩
  started := by rw [hfetches]; exact h.started
  past f hf := by
    rw [hfetches] at hf
    exact ⟨(h.past f hf).1, (h.past f hf).2.trans ht⟩

/-- The other calls after one ended. -/
theorem Sound.placed_finish (h : Sound config s t) (ht : t ≤ t') (hcall : s.calls id = some call)
    (hrecords : s'.cache = s.cache ∧ s'.installs = s.installs ∧ s'.fetches = s.fetches ∧
      s'.found = s.found)
    (hcalls : s'.calls = Function.update s.calls id none)
    (hlock : s'.refreshLock = if call.phase.holds then none else s.refreshLock) :
    ∀ other c, s'.calls other = some c → Placed s' t' other c := by
  obtain ⟨hcache, hinstalls, hfetches, hfound⟩ := hrecords
  rw [hcalls]
  refine forall_update_call h.placed (fun other c hne hc hplaced => ?_) (by simp)
  by_cases hheld : call.phase.holds = true
  · have hidle := (h.placed id call hcall).idle_beside hheld hplaced hne
    exact hplaced.of_idle hidle ht (.inl ⟨hinstalls, hcache⟩)
  · refine hplaced.of_records ht (fun _ => ?_) hcache hinstalls hfetches hfound
    rw [hlock, if_neg hheld]

/-- A call ends, with an answer or dropped. -/
theorem Sound.answer (h : Sound config s t) (ht : t ≤ t') (hcall : s.calls id = some call)
    {result : Except AuthenticationError Jwk}
    (hresult : ∀ key, result = .ok key → Timely s.installs call key) :
    Sound config (s.answer id call result) t' := by
  refine h.of_records ht rfl rfl rfl rfl rfl
    (h.placed_finish ht hcall ⟨rfl, rfl, rfl, rfl⟩ rfl rfl) ?_
  intro answer hanswer
  obtain hold | hnew := List.mem_append.mp hanswer
  · exact .inl hold
  · rw [List.mem_singleton.mp hnew]
    exact .inr hresult

/-- The cached snapshot is timely for a call that finds it fresh, or finds it changed. -/
theorem Sound.timely (h : Sound config s t) (hcall : s.calls id = some call) {key : Jwk}
    (hkey : s.cache.keys.lookup call.kid = some key)
    (hfresh : call.now < s.cache.freshUntil ∨
      ∃ observed, call.phase.observed? = some observed ∧ s.cache.revision ≠ observed) :
    Timely s.installs call key := by
  obtain ⟨earlier, number, hinstalls⟩ := h.current
  have hsince := (h.placed id call hcall).since
  have hlength : s.installs.length = earlier.length + 1 := by rw [hinstalls]; simp
  refine ⟨earlier.length, ⟨s.cache, number⟩, by rw [hinstalls]; simp, hkey, ?_⟩
  by_cases hnew : call.since ≤ earlier.length
  · exact .inr hnew
  · -- nothing was installed since the call began, so its revision is the observed one
    have hsame : call.since = s.installs.length := by omega
    obtain hfresh | ⟨observed, hobserved, hne⟩ := hfresh
    · exact .inl ⟨by omega, hfresh⟩
    · exact absurd ((h.placed id call hcall).observed observed hobserved hsame).symm hne

/-- A call that holds the lock comes further, and the records stay. -/
theorem Sound.goto (h : Sound config s t) (ht : t ≤ t') (hcall : s.calls id = some call)
    (hheld : call.phase.holds = true) (phase : Phase)
    (hobserved : phase.observed? = none) (hfound : ∀ snapshot number, phase ≠ .clearing snapshot number)
    (hnumber : ∀ number ∈ phase.number?, call.phase.number? = some number) :
    Sound config (s.goto id call phase) t' := by
  have hplaced := h.placed id call hcall
  refine h.of_records ht rfl rfl rfl rfl rfl ?_ fun answer hanswer => .inl hanswer
  refine forall_update_call h.placed (fun other c hne hc hc' => ?_) ?_
  · exact hc'.of_idle (hplaced.idle_beside hheld hc' hne) ht (.inl ⟨rfl, rfl⟩)
  · intro c hc
    cases hc
    exact {
      held := fun _ => hplaced.held hheld
      since := hplaced.since
      observed := fun observed hsome => by simp [hobserved] at hsome
      number := fun number hsome => hplaced.number number (hnumber number hsome)
      found := fun snapshot number hphase => absurd hphase (hfound snapshot number)
      sampled := hplaced.sampled.trans ht }

/-- The call that holds the lock starts a fetch. -/
theorem Sound.startFetch (h : Sound config s t) {now : Nat} (ht : t ≤ now)
    (hcall : s.calls id = some call) (hheld : call.phase.holds = true) {unknown : Bool}
    {last : Option Nat}
    (hlast : unknown = true ∧ s.grants config call.now ∧ last = some call.now ∨
      unknown = false ∧ last = s.lastUnknownRefresh) :
    Sound config { s.startFetch id call unknown now with lastUnknownRefresh := last } now := by
  have hplaced := h.placed id call hcall
  -- an earlier refresh whose key is still unknown was sampled an interval before
  have hearlier : unknown = true → 0 < config.unknownKidRefreshIntervalSeconds →
      ∀ (i : Nat) (f : Fetch), s.fetches[i]? = some f → f.unknown = true →
      (∀ number, i < number → number ∉ s.found) →
      f.sampled + config.unknownKidRefreshIntervalSeconds ≤ call.now := by
    intro htrue hpos i f hf hunknown hunfound
    obtain ⟨previous, hprevious, hle⟩ := h.reserved hpos i f hf hunknown hunfound
    obtain ⟨-, hgrants, -⟩ | ⟨hfalse, -⟩ := hlast
    · have hgap := hgrants previous hprevious
      omega
    · rw [htrue] at hfalse
      cases hfalse
  have hsplit : ∀ (i : Nat) (f : Fetch),
      (s.fetches ++ [⟨call.kid, unknown, call.now, now⟩])[i]? = some f →
      s.fetches[i]? = some f ∨ i = s.fetches.length ∧ f = ⟨call.kid, unknown, call.now, now⟩ := by
    intro i f hf
    by_cases hi : i < s.fetches.length
    · rw [List.getElem?_append_left hi] at hf
      exact .inl hf
    · rw [List.getElem?_append_right (by omega), List.getElem?_singleton] at hf
      split at hf
      · exact .inr ⟨by omega, (Option.some.inj hf).symm⟩
      · cases hf
  refine ⟨?_, h.current, h.answered, h.ordered, ?_, ?_, ?_, ?_, ?_, ?_⟩
  · refine forall_update_call h.placed (fun other c hne hc hc' => ?_) ?_
    · exact hc'.of_idle (hplaced.idle_beside hheld hc' hne) ht (.inl ⟨rfl, rfl⟩)
    · intro c hc
      cases hc
      exact {
        held := fun _ => hplaced.held hheld
        since := hplaced.since
        observed := fun observed hsome => by cases hsome
        number := fun number hsome => by
          cases hsome
          refine ⟨by simp [Verifier.startFetch], fun install hinstall => ?_⟩
          exact Nat.lt_succ_of_le (h.numbered install hinstall)
        found := fun snapshot number hphase => by cases hphase
        sampled := hplaced.sampled.trans ht }
  · intro install hinstall
    have hle := h.numbered install hinstall
    simp only [Verifier.startFetch, List.length_append, List.length_singleton]
    omega
  · intro number hnumber
    have hle := h.found_le number hnumber
    simp only [Verifier.startFetch, List.length_append, List.length_singleton]
    omega
  · intro hpos i f hf hunknown hunfound
    obtain hold | ⟨-, rfl⟩ := hsplit i f hf
    · obtain ⟨htrue, -, rfl⟩ | ⟨-, rfl⟩ := hlast
      · have hgap := hearlier htrue hpos i f hold hunknown hunfound
        exact ⟨call.now, rfl, by omega⟩
      · exact h.reserved hpos i f hold hunknown hunfound
    · obtain ⟨-, -, rfl⟩ | ⟨rfl, -⟩ := hlast
      · exact ⟨call.now, rfl, Nat.le_refl _⟩
      · cases hunknown
  · intro hpos i j f g hsuccessive
    obtain ⟨horder, hfirst, hsecond, hunknown, hunfound⟩ := hsuccessive
    obtain hfirst | ⟨rfl, -⟩ := hsplit i f hfirst
    · obtain hsecond | ⟨rfl, rfl⟩ := hsplit j g hsecond
      · exact h.spaced hpos i j f g ⟨horder, hfirst, hsecond, hunknown, hunfound⟩
      · refine hearlier hunknown.2 hpos i f hfirst hunknown.1 fun number hlt hmem => ?_
        exact hunfound number hlt (h.found_le number hmem) hmem
    · obtain hsecond | ⟨rfl, -⟩ := hsplit j g hsecond
      · have := (List.getElem?_eq_some_iff.mp hsecond).1
        omega
      · omega
  · change ((s.fetches ++ [_]).map Fetch.started).Pairwise (· ≤ ·)
    rw [List.map_append, List.pairwise_append]
    refine ⟨h.started, List.pairwise_singleton _ _, ?_⟩
    intro a ha b hb
    obtain ⟨f, hf, rfl⟩ := List.mem_map.mp ha
    rw [List.map_singleton, List.mem_singleton] at hb
    subst hb
    exact_mod_cast (h.past f hf).2.trans ht
  · intro f hf
    obtain hold | hnew := List.mem_append.mp hf
    · exact ⟨(h.past f hold).1, (h.past f hold).2.trans ht⟩
    · rw [List.mem_singleton.mp hnew]
      exact ⟨by exact_mod_cast hplaced.sampled.trans ht, le_rfl⟩

/-- A refresh finds the key the cache lacked. -/
theorem Sound.discover (h : Sound config s t) (ht : t ≤ t') {number : Nat}
    (hcall : s.calls id = some call) (hphase : call.phase = .fetching true number)
    (snapshot : JwksSnapshot) :
    Sound config { s.goto id call (.clearing snapshot number) with
      found := s.found ++ [number] } t' := by
  have hplaced := h.placed id call hcall
  have hheld : call.phase.holds = true := by rw [hphase]; rfl
  have hnumber := hplaced.number number (by rw [hphase]; rfl)
  refine ⟨?_, h.current, h.answered, h.ordered, h.numbered, ?_, ?_, ?_, h.started, ?_⟩
  · refine forall_update_call h.placed (fun other c hne hc hc' => ?_) ?_
    · exact hc'.of_idle (hplaced.idle_beside hheld hc' hne) ht (.inl ⟨rfl, rfl⟩)
    · intro c hc
      cases hc
      exact {
        held := fun _ => hplaced.held hheld
        since := hplaced.since
        observed := fun observed hsome => by cases hsome
        number := fun n hsome => by cases hsome; exact hnumber
        found := fun _ n heq => by cases heq; exact List.mem_append_right _ (List.mem_singleton_self _)
        sampled := hplaced.sampled.trans ht }
  · intro n hn
    obtain hold | hnew := List.mem_append.mp hn
    · exact h.found_le n hold
    · rw [List.mem_singleton.mp hnew]
      exact Nat.le_of_eq hnumber.1
  · intro hpos i f hf hunknown hunfound
    exact h.reserved hpos i f hf hunknown fun n hlt hmem =>
      hunfound n hlt (List.mem_append_left _ hmem)
  · intro hpos i j f g hsuccessive
    obtain ⟨horder, hfirst, hsecond, hunknown, hunfound⟩ := hsuccessive
    exact h.spaced hpos i j f g ⟨horder, hfirst, hsecond, hunknown, fun n hlt hle hmem =>
      hunfound n hlt hle (List.mem_append_left _ hmem)⟩
  · intro f hf
    exact ⟨(h.past f hf).1, (h.past f hf).2.trans ht⟩

/-- The reservation is given back: every refresh up to the last one has a found key behind it. -/
theorem Sound.clear (h : Sound config s t) (ht : t ≤ t') {number : Nat} {snapshot : JwksSnapshot}
    (hcall : s.calls id = some call) (hphase : call.phase = .clearing snapshot number) :
    Sound config (s.clear id call snapshot number) t' := by
  have hplaced := h.placed id call hcall
  have hheld : call.phase.holds = true := by rw [hphase]; rfl
  have hgoto := h.goto ht hcall hheld (.installing snapshot number) rfl (by simp)
    (by rintro n hn; cases hn; rw [hphase]; rfl)
  refine ⟨fun other c hc => (hgoto.placed other c hc).of_records le_rfl (fun _ => rfl) rfl rfl rfl rfl,
    h.current, h.answered, h.ordered, h.numbered, h.found_le, ?_, ?_, h.started, hgoto.past⟩
  · intro hpos i f hf hunknown hunfound
    have hlast := (hplaced.number number (by rw [hphase]; rfl)).1
    have hi : i < s.fetches.length := (List.getElem?_eq_some_iff.mp hf).1
    exact absurd (hplaced.found snapshot number hphase) (hunfound number (by omega))
  · intro hpos i j f g hsuccessive
    obtain ⟨horder, hfirst, hsecond, hunknown, hunfound⟩ := hsuccessive
    exact h.spaced hpos i j f g ⟨horder, hfirst, hsecond, hunknown, hunfound⟩

/-- The new snapshot is newer than all before it. -/
theorem Sound.install (h : Sound config s t) (ht : t ≤ t') {number : Nat} {snapshot : JwksSnapshot}
    (hcall : s.calls id = some call) (hphase : call.phase = .installing snapshot number) :
    Sound config (s.install id call snapshot number) t' := by
  have hplaced := h.placed id call hcall
  have hheld : call.phase.holds = true := by rw [hphase]; rfl
  obtain ⟨hnumber, hnewest⟩ := hplaced.number number (by rw [hphase]; rfl)
  refine ⟨?_, ⟨s.installs, number, rfl⟩, ?_, ?_, ?_, h.found_le, h.reserved, ?_, h.started, ?_⟩
  · refine forall_update_call h.placed (fun other c hne hc hc' => ?_) (by simp)
    exact hc'.of_idle (hplaced.idle_beside hheld hc' hne) ht (.inr (by simp [Verifier.install]))
  · intro answer hanswer key hkey
    obtain hold | hnew := List.mem_append.mp hanswer
    · exact (h.answered answer hold key hkey).append _
    · rw [List.mem_singleton.mp hnew] at hkey ⊢
      exact ⟨s.installs.length, ⟨_, number⟩, List.getElem?_concat_length, by simpa using hkey,
        .inr hplaced.since⟩
  · change ((s.installs ++ [_]).map Install.number).Pairwise (· < ·)
    rw [List.map_append, List.pairwise_append]
    refine ⟨h.ordered, List.pairwise_singleton _ _, ?_⟩
    intro a ha b hb
    obtain ⟨install, hinstall, rfl⟩ := List.mem_map.mp ha
    rw [List.map_singleton, List.mem_singleton] at hb
    subst hb
    exact hnewest install hinstall
  · intro install hinstall
    obtain hold | hnew := List.mem_append.mp hinstall
    · exact h.numbered install hold
    · rw [List.mem_singleton.mp hnew]
      exact Nat.le_of_eq hnumber
  · intro hpos i j f g hsuccessive
    obtain ⟨horder, hfirst, hsecond, hunknown, hunfound⟩ := hsuccessive
    exact h.spaced hpos i j f g ⟨horder, hfirst, hsecond, hunknown, hunfound⟩
  · intro f hf
    exact ⟨(h.past f hf).1, (h.past f hf).2.trans ht⟩

/-- Every change keeps the invariant. -/
theorem Sound.moves (h : Sound config s t) {a : Action} (ht : t ≤ a.now)
    (hmoves : s.Moves config a s') : Sound config s' a.now := by
  cases hmoves with
  | begin id kid hfree =>
    refine h.of_records ht rfl rfl rfl rfl rfl ?_ fun answer hanswer => .inl hanswer
    refine forall_update_call h.placed (fun other c _ _ hc => ?_) ?_
    · exact hc.of_records ht (fun _ => rfl) rfl rfl rfl rfl
    · intro c hc
      cases hc
      exact ⟨by simp [Phase.holds], Nat.le_refl _, by simp [Phase.observed?],
        by simp [Phase.number?], by simp, le_rfl⟩
  | drop id call hcall =>
    exact h.of_records ht rfl rfl rfl rfl rfl
      (h.placed_finish ht hcall ⟨rfl, rfl, rfl, rfl⟩ rfl rfl) fun answer hanswer => .inl hanswer
  | hit id call key hcall hkey hfresh =>
    refine h.answer ht hcall fun k hk => ?_
    cases hk
    exact h.timely hcall hkey hfresh
  | miss id call hcall hphase =>
    refine h.of_records ht rfl rfl rfl rfl rfl ?_ fun answer hanswer => .inl hanswer
    refine forall_update_call h.placed (fun other c _ _ hc => ?_) ?_
    · exact hc.of_records ht (fun _ => rfl) rfl rfl rfl rfl
    · intro c hc
      cases hc
      have hplaced := h.placed id call hcall
      refine ⟨by simp [Phase.holds], hplaced.since, ?_, by simp [Phase.number?], by simp,
        hplaced.sampled.trans ht⟩
      intro observed hobserved _
      exact (Option.some.inj hobserved).symm
  | lock id call observed hcall hphase hopen =>
    have hplaced := h.placed id call hcall
    refine h.of_records ht rfl rfl rfl rfl rfl ?_ fun answer hanswer => .inl hanswer
    refine forall_update_call h.placed (fun other c _ _ hc => ?_) ?_
    · refine hc.of_idle ?_ ht (.inl ⟨rfl, rfl⟩)
      -- the lock was open
      by_contra hholds
      have hlock := hc.held (by simpa using hholds)
      rw [hopen] at hlock
      cases hlock
    · intro c hc
      cases hc
      refine ⟨fun _ => rfl, hplaced.since, ?_, by simp [Phase.number?], by simp,
        hplaced.sampled.trans ht⟩
      intro seen hseen hsince
      refine hplaced.observed seen ?_ hsince
      rw [hphase]
      exact hseen
  | stale id call hcall hheld => exact h.startFetch ht hcall hheld (.inr ⟨rfl, rfl⟩)
  | lack id call hcall hheld =>
    exact h.goto ht hcall hheld .unknown rfl (by simp) (by simp [Phase.number?])
  | reserve id call _ hcall hphase hgrants =>
    exact h.startFetch ht hcall (by rw [hphase]; rfl) (.inl ⟨rfl, hgrants, rfl⟩)
  | fail id call e hcall => exact h.answer ht hcall fun key hkey => by cases hkey
  | discover id call snapshot number hcall hphase => exact h.discover ht hcall hphase snapshot
  | fetched id call snapshot unknown number hcall hphase =>
    refine h.goto ht hcall (by rw [hphase]; rfl) (.installing snapshot number) rfl (by simp) ?_
    intro n hn
    cases hn
    rw [hphase]
    rfl
  | clear id call snapshot number hcall hphase => exact h.clear ht hcall hphase
  | install id call snapshot number hcall hphase => exact h.install ht hcall hphase

end Sound

/-! ## Runs -/

section Runs

variable [JwkSetParser] {config : JwtVerifierConfig}

theorem Sound.next {s : Verifier} {t : Int} (h : Sound config s t) {a : Action} (ht : t ≤ a.now) :
    Sound config (s.next config a) a.now := by
  obtain hsame | hmoves := s.next_cases a
  · rw [hsame]
    refine h.of_records ht rfl rfl rfl rfl rfl (fun id call hcall => ?_)
      fun answer hanswer => .inl hanswer
    exact (h.placed id call hcall).of_records ht (fun _ => rfl) rfl rfl rfl rfl
  · exact h.moves ht hmoves

variable (config)

/-- A call that gets the reservation of an unknown-key refresh gets it in the second in which it
sampled the clock. -/
def Prompt (s : Verifier) (a : Action) : Prop :=
  ∀ id call, a.event = .reserve id → s.calls id = some call → call.phase = .unknown →
    s.grants config call.now → call.now = a.now

variable {config} {allowed : Verifier → Action → Prop} {snapshot : JwksSnapshot} {s : Verifier}
  {t₀ t : Int}

theorem sound_of_run (hrun : (refreshSystem config).Run allowed (.opened snapshot) t₀ s t) :
    Sound config s t :=
  hrun.invariant (fun _ _ _ h ht _ => h.next ht) (Sound.opened config snapshot t₀)

/-- Unknown-key refreshes of prompt calls start when their calls sampled the clock. -/
theorem started_of_run
    (hrun : (refreshSystem config).Run (Prompt config) (.opened snapshot) t₀ s t) :
    ∀ f ∈ s.fetches, f.unknown = true → f.started = f.sampled := by
  induction hrun with
  | refl =>
    intro f hf
    cases hf
  | @step s t a _ _ hprompt ih =>
    have hadded : ∀ (call : Call) (unknown : Bool),
        (unknown = true → call.now = a.now) →
        ∀ f ∈ s.fetches ++ [⟨call.kid, unknown, call.now, a.now⟩], f.unknown = true →
          f.started = f.sampled := by
      intro call unknown hnow f hf hunknown
      obtain hold | hnew := List.mem_append.mp hf
      · exact ih f hold hunknown
      · rw [List.mem_singleton.mp hnew] at hunknown ⊢
        exact (hnow hunknown).symm
    change ∀ f ∈ (s.next config a).fetches, _
    generalize hnext : s.next config a = s'
    obtain hsame | hmoves := s.next_cases a
    · rw [← hnext, hsame]
      exact ih
    · rw [hnext] at hmoves
      cases hmoves with
      | stale id call => exact hadded call false (by simp)
      | reserve id call hevent hcall hphase hgrants =>
        exact hadded call true fun _ => hprompt id call hevent hcall hphase hgrants
      | _ => exact ih

/-- In every run the keys answered are timely and the snapshots installed are newer each time; and
where calls are prompt, two unknown-key refreshes are apart by the interval unless one found its
key. -/
theorem refreshes_timely_ordered_spaced (config : JwtVerifierConfig) (snapshot : JwksSnapshot)
    (t₀ : Int) :
    (∀ s t, (refreshSystem config).Run (fun _ _ => True) (.opened snapshot) t₀ s t →
      (∀ answer ∈ s.answers, ∀ key, answer.result = .ok key →
        Timely s.installs answer.call key) ∧
      (s.installs.map Install.number).Pairwise (· < ·)) ∧
    ∀ s t, (refreshSystem config).Run (Prompt config) (.opened snapshot) t₀ s t →
      ∀ i j f g, s.Successive i j f g →
        f.started + config.unknownKidRefreshIntervalSeconds ≤ g.started := by
  refine ⟨fun s t hrun => ?_, fun s t hrun i j f g hsuccessive => ?_⟩
  · have hsound := sound_of_run hrun
    exact ⟨hsound.answered, hsound.ordered⟩
  · have hsound := sound_of_run hrun
    have hmem := List.mem_of_getElem? hsuccessive.first
    have hfirst := started_of_run hrun f hmem hsuccessive.unknown.1
    have hsecond := (hsound.past g (List.mem_of_getElem? hsuccessive.second)).1
    by_cases hpos : 0 < config.unknownKidRefreshIntervalSeconds
    · have hgap := hsound.spaced hpos i j f g hsuccessive
      omega
    · -- without an interval the order of the fetches is enough
      have hsorted := List.pairwise_iff_getElem.mp hsound.started
      obtain ⟨hi, hf⟩ := List.getElem?_eq_some_iff.mp hsuccessive.first
      obtain ⟨hj, hg⟩ := List.getElem?_eq_some_iff.mp hsuccessive.second
      have hle := hsorted i j (by simpa using hi) (by simpa using hj) hsuccessive.order
      rw [List.getElem_map, List.getElem_map, hf, hg] at hle
      omega

end Runs

/-! ## Runs of the strict policy -/

section Sample

/-- An RSA key with the smallest modulus accepted. -/
def sampleKey : Jwk where
  keyId := some "k"
  publicKeyUse := some .signature
  keyOperations := none
  algorithm := .rsa (String.ofList ('g' :: List.replicate 341 'A')) "AQAB"

theorem acceptableKey_sampleKey : acceptableKey sampleKey = true := by
  unfold acceptableKey sampleKey
  simp only [String.toList_ofList]
  decide +kernel

/-- The document of the provider. -/
def sampleBody : List UInt8 := [123, 125]

/-- Reads the document as the set with the key. -/
@[reducible] def sampleParser : JwkSetParser where
  parse body := if body = sampleBody then some [sampleKey] else none

attribute [local instance] sampleParser

def sampleSnapshot : JwksSnapshot := ⟨[("k", sampleKey)], 10, 0, by simp⟩

theorem fetchSnapshot_sample : fetchSnapshot .strict (some ⟨sampleBody, 10⟩) 0 = .ok sampleSnapshot := by
  have hsize : ¬ (JwtVerifierConfig.strict.maxKidBytes < "k".utf8ByteSize) := by decide
  have htake : takeKeys .strict [sampleKey] [] List.nodup_nil =
      some ⟨[("k", sampleKey)], by simp⟩ := by
    unfold takeKeys
    simp [takeKeys, acceptableKey_sampleKey, hsize, show sampleKey.keyId = some "k" from rfl]
  unfold fetchSnapshot
  simp only [Transaction.bind_eq_ok, Transaction.expect_eq_ok, Transaction.require_eq_ok]
  exact ⟨_, rfl, (), by decide, [sampleKey], rfl, (), ⟨by simp, by decide⟩, _, htake, rfl⟩

/-- The steps of a call up to the reservation, all at one second. -/
def unknownCall (id : Nat) (kid : String) (now : Nat) : List Action :=
  [⟨.begin id kid, now⟩, ⟨.look id, now⟩, ⟨.lock id, now⟩, ⟨.lookAgain id, now⟩,
    ⟨.reserve id, now⟩]

/-- Two calls for unknown keys, an interval apart, while the provider fails. -/
def promptRun : List Action :=
  unknownCall 1 "x" 20 ++ [⟨.provide 1 none, 20⟩] ++ unknownCall 2 "y" 50

/-- Call 1 refreshes the stale snapshot for 100 seconds. Call 2 began with it and waits for the
lock; its reservation is dated when it began, and call 3 is granted another one a second later. -/
def delayedRun : List Action :=
  [⟨.begin 1 "k", 20⟩, ⟨.begin 2 "x", 20⟩, ⟨.look 1, 20⟩, ⟨.look 2, 20⟩, ⟨.lock 1, 20⟩,
    ⟨.lookAgain 1, 20⟩, ⟨.provide 1 none, 120⟩, ⟨.lock 2, 120⟩, ⟨.lookAgain 2, 120⟩,
    ⟨.reserve 2, 120⟩, ⟨.provide 2 none, 120⟩] ++ unknownCall 3 "y" 121

def runOf (actions : List Action) : Verifier :=
  actions.foldl (refreshSystem .strict).next (.opened sampleSnapshot)

theorem fetches_delayedRun : (runOf delayedRun).fetches =
    [⟨"k", false, 20, 20⟩, ⟨"x", true, 20, 120⟩, ⟨"y", true, 121, 121⟩] ∧
      (runOf delayedRun).found = [] := by
  decide

theorem run_of {allowed : Verifier → Action → Prop} (actions : List Action)
    (hsorted : (actions.map (refreshSystem .strict).time).Pairwise (· ≤ ·))
    (hallowed : (refreshSystem .strict).Permits allowed (.opened sampleSnapshot) actions) :
    ∃ t, (refreshSystem .strict).Run allowed (.opened sampleSnapshot) 0 (runOf actions) t := by
  refine ⟨_, Clocked.Run.foldl actions hsorted (fun a _ => ?_) hallowed⟩
  exact Int.natCast_nonneg a.now

/-- The two refreshes of the prompt run start 30 seconds apart. -/
theorem prompt_refreshes_spaced : (runOf promptRun).Successive 0 1 ⟨"x", true, 20, 20⟩
    ⟨"y", true, 50, 50⟩ ∧ 20 + JwtVerifierConfig.strict.unknownKidRefreshIntervalSeconds ≤ 50 := by
  have hprompt : (refreshSystem .strict).Permits (Prompt .strict) (.opened sampleSnapshot)
      promptRun := by
    have hother : ∀ (s : Verifier) (event : Event) (now : Nat), (∀ id, event ≠ .reserve id) →
        Prompt .strict s ⟨event, now⟩ := fun s event now hne id call hevent => absurd hevent (hne id)
    refine ⟨hother _ _ _ (by simp), hother _ _ _ (by simp), hother _ _ _ (by simp),
      hother _ _ _ (by simp), ?_, hother _ _ _ (by simp), hother _ _ _ (by simp),
      hother _ _ _ (by simp), hother _ _ _ (by simp), hother _ _ _ (by simp), ?_, trivial⟩
    · intro id call hevent hcall _ _
      cases hevent
      exact congrArg Call.now (Option.some.inj hcall).symm
    · intro id call hevent hcall _ _
      cases hevent
      exact congrArg Call.now (Option.some.inj hcall).symm
  obtain ⟨t, hrun⟩ := run_of promptRun (by decide) hprompt
  have hsuccessive : (runOf promptRun).Successive 0 1 ⟨"x", true, 20, 20⟩ ⟨"y", true, 50, 50⟩ :=
    ⟨by decide, by decide, by decide, by decide, by
      rw [show (runOf promptRun).found = [] by decide]
      simp⟩
  exact ⟨hsuccessive, (refreshes_timely_ordered_spaced .strict sampleSnapshot 0).2 _ t hrun 0 1 _ _
    hsuccessive⟩

/-- With the first snapshot that a provider may answer, two refreshes for unknown keys, neither of
which finds its key, start one second apart. -/
theorem delayed_refreshes_crowd :
    fetchSnapshot .strict (some ⟨sampleBody, 10⟩) 0 = .ok sampleSnapshot ∧
      (∃ t, (refreshSystem .strict).Run (fun _ _ => True) (.opened sampleSnapshot) 0
        (runOf delayedRun) t) ∧
      (runOf delayedRun).Successive 1 2 ⟨"x", true, 20, 120⟩ ⟨"y", true, 121, 121⟩ ∧
      ¬ 120 + JwtVerifierConfig.strict.unknownKidRefreshIntervalSeconds ≤ 121 := by
  obtain ⟨hfetches, hfound⟩ := fetches_delayedRun
  refine ⟨fetchSnapshot_sample, run_of delayedRun (by decide)
    (Clocked.permits_of_forall fun _ _ => trivial), ?_, by decide⟩
  exact ⟨by decide, by rw [hfetches]; rfl, by rw [hfetches]; rfl, by decide, by simp [hfound]⟩

end Sample

end SmeshDurable.Auth
