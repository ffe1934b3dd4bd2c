import MsysCore.Core.RestartBackoff

/-!
# Every failure is recorded and waited for

What the generations, the watchers and the starts of a component agree on while no start gets
between a watcher's finalization and its record: the exit of each generation is recorded once,
and every start past the look at the entry waits for the delay of that record.
-/

namespace MsysCore.Core.Restart

open Python Runs

/-! ## The invariant -/

/-- Who deals with the exit of a generation. -/
inductive GenerationInv (p : Provider) (s : State) (i : ℕ) (g : Generation) : Prop
  | live (pending : g.finalized = false) (watcher : s.watchers i = .waiting)
      (entry : s.entry = some i) (count : timesRecorded s i = 0)
  | watched {rc} (exited : g.returncode = some rc) (final : g.finalized = true)
      (watcher : s.watchers i = .finalizing)
      (entry : componentShouldRestart p rc = true → s.entry = some i)
      (count : timesRecorded s i = 0)
  | started {c rc} (exited : g.returncode = some rc) (final : g.finalized = true)
      (watcher : s.watchers i = .done) (call : s.calls c = some (.finalizing i))
      (entry : s.entry = some i) (count : timesRecorded s i = 0)
  | settled {rc} (exited : g.returncode = some rc) (final : g.finalized = true)
      (idle : s.watchers i ≠ .waiting ∧ s.watchers i ≠ .finalizing)
      (once : timesRecorded s i = if componentShouldRestart p rc then 1 else 0)

/-- The exit of the entry is over, and its delays have passed at the given time. -/
def Rested (p : Provider) (s : State) (time : ℚ) : Prop :=
  ∀ i, s.entry = some i → (∃ g rc, s.generations i = some g ∧ g.returncode = some rc ∧
      g.finalized = true ∧ (s.watchers i = .finalizing → componentShouldRestart p rc = false)) ∧
    ∀ r ∈ s.records, r.object = i → ∀ d, r.delay = some d → r.time + d ≤ time

/-- What the phase of a call says. -/
def PhaseInv (p : Provider) (s : State) : Phase → Prop
  | .waiting => True
  | .delayed _ => True
  | .finalizing i => s.entry = some i ∧ s.watchers i = .done ∧ timesRecorded s i = 0 ∧
    ∃ g, s.generations i = some g ∧ g.finalized = true ∧ g.returncode ≠ none
  | .backoff wake => Rested p s wake
  | .starting => Rested p s s.now

structure BackoffInv (p : Provider) (s : State) : Prop where
  fresh : ∀ i, s.allocated ≤ i → s.generations i = none
  newest : ∀ i, s.entry = some i → i + 1 = s.allocated
  freshCall : ∀ c, s.nextCall ≤ c → s.calls c = none
  held : ∀ c phase, s.calls c = some phase → phase ≠ .waiting → s.lock = some c
  phase : ∀ c phase, s.calls c = some phase → PhaseInv p s phase
  generation : ∀ i g, s.generations i = some g → GenerationInv p s i g
  recorded : ∀ r ∈ s.records, ∃ g, s.generations r.object = some g ∧
    ∀ d, r.delay = some d → r.time + d ≤ g.backoffUntil
  spawned : ∀ i, i < s.allocated → ∃ n ∈ s.spawns, n.object = i
  past : ∀ n ∈ s.spawns, n.object < s.allocated ∧ n.time ≤ s.now
  absent : s.entry = none → s.allocated = 0
  present : ∀ i, s.entry = some i → ∃ g, s.generations i = some g
  unwatched : ∀ i, s.generations i = none → s.watchers i = .done
  spaced : Spaced s

theorem backoffInv_initial (p : Provider) (now : ℚ) : BackoffInv p (initial now) where
  fresh := fun _ _ => rfl
  newest := by rintro _ ⟨⟩
  freshCall := fun _ _ => rfl
  held := by rintro _ _ ⟨⟩
  phase := by rintro _ _ ⟨⟩
  generation := by rintro _ _ ⟨⟩
  recorded := by rintro _ ⟨⟩
  spawned := by rintro _ ⟨⟩
  past := by rintro _ ⟨⟩
  absent := fun _ => rfl
  present := by rintro _ ⟨⟩
  unwatched := fun _ _ => rfl
  spaced := by rintro _ ⟨⟩

section

variable {p : Provider} {s : State}

theorem BackoffInv.recordedOnce (hinv : BackoffInv p s) : RecordedOnce p s := by
  intro i g rc hgeneration hexited
  have hpending : timesRecorded s i = 0 → Awaited s i →
      if componentShouldRestart p rc then
        timesRecorded s i = 1 ∨ timesRecorded s i = 0 ∧ Awaited s i
      else timesRecorded s i = 0 := by
    intro hcount hawaited
    split
    · exact .inr ⟨hcount, hawaited⟩
    · exact hcount
  cases hinv.generation i g hgeneration with
  | live pending watcher entry count => exact hpending count (.inl ⟨entry, watcher⟩)
  | watched exited final watcher entry count => exact hpending count (.inr (.inl watcher))
  | started exited final watcher call entry count =>
    exact hpending count (.inr (.inr ⟨_, call⟩))
  | settled exited final idle once =>
    rw [hexited] at exited
    cases exited
    split at once
    · rw [if_pos ‹_›]
      exact .inl once
    · rw [if_neg ‹_›]
      exact once

theorem BackoffInv.lt_nextCall (hinv : BackoffInv p s) {c : ℕ} {phase : Phase}
    (hcall : s.calls c = some phase) : c < s.nextCall := by
  by_contra hle
  rw [hinv.freshCall c (by omega)] at hcall
  cases hcall

theorem BackoffInv.lt_allocated (hinv : BackoffInv p s) {i : ℕ} {g : Generation}
    (hgeneration : s.generations i = some g) : i < s.allocated := by
  by_contra hle
  rw [hinv.fresh i (by omega)] at hgeneration
  cases hgeneration

theorem GenerationInv.congr {s' : State} {i : ℕ} {g g' : Generation} (h : GenerationInv p s i g)
    (hexit : g'.returncode = g.returncode ∨ g.returncode = none)
    (hfinal : g'.finalized = g.finalized) (hwatcher : s'.watchers i = s.watchers i)
    (hentry : s'.entry = s.entry) (hcount : timesRecorded s' i = timesRecorded s i)
    (hcalls : ∀ c, s.calls c = some (.finalizing i) → s'.calls c = some (.finalizing i)) :
    GenerationInv p s' i g' := by
  have hsame : ∀ {rc}, g.returncode = some rc → g'.returncode = some rc := by
    intro rc hrc
    rcases hexit with heq | hnone
    · rw [heq, hrc]
    · rw [hnone] at hrc
      cases hrc
  cases h with
  | live pending watcher entry count =>
    exact .live (hfinal.trans pending) (hwatcher.trans watcher) (hentry.trans entry)
      (hcount.trans count)
  | watched exited final watcher entry count =>
    exact .watched (hsame exited) (hfinal.trans final) (hwatcher.trans watcher)
      (fun hrestart => hentry.trans (entry hrestart)) (hcount.trans count)
  | started exited final watcher call entry count =>
    exact .started (hsame exited) (hfinal.trans final) (hwatcher.trans watcher) (hcalls _ call)
      (hentry.trans entry) (hcount.trans count)
  | settled exited final idle once =>
    exact .settled (hsame exited) (hfinal.trans final) (by rw [hwatcher]; exact idle)
      (hcount.trans once)

theorem Rested.mono {time time' : ℚ} (h : Rested p s time) (hle : time ≤ time') :
    Rested p s time' :=
  fun i hentry => ⟨(h i hentry).1, fun r hr hobject d hd => ((h i hentry).2 r hr hobject d hd).trans hle⟩

/-- Only the failure tables differ. -/
theorem BackoffInv.tables (hinv : BackoffInv p s) (failureHistory : List ℚ) (quarantined : Bool)
    (spawnBackoffUntil : Option ℚ) :
    BackoffInv p { s with
      failureHistory := failureHistory
      quarantined := quarantined
      spawnBackoffUntil := spawnBackoffUntil } := by
  refine ⟨hinv.fresh, hinv.newest, hinv.freshCall, hinv.held, hinv.phase, ?_, hinv.recorded,
    hinv.spawned, hinv.past, hinv.absent, hinv.present, hinv.unwatched, hinv.spaced⟩
  intro i g hgeneration
  exact (hinv.generation i g hgeneration).congr (.inl rfl) rfl rfl rfl rfl fun c hcall => hcall

theorem BackoffInv.tick (hinv : BackoffInv p s) {δ : ℚ} (hδ : 0 ≤ δ) :
    BackoffInv p { s with now := s.now + δ } := by
  have hle : s.now ≤ s.now + δ := le_add_of_nonneg_right hδ
  refine ⟨hinv.fresh, hinv.newest, hinv.freshCall, hinv.held, ?_, ?_, hinv.recorded,
    hinv.spawned, fun n hn => ⟨(hinv.past n hn).1, (hinv.past n hn).2.trans hle⟩, hinv.absent,
    hinv.present, hinv.unwatched, hinv.spaced⟩
  · intro c phase hcall
    have hphase := hinv.phase c phase hcall
    cases phase with
    | starting => exact Rested.mono hphase hle
    | _ => exact hphase
  · intro i g hgeneration
    exact (hinv.generation i g hgeneration).congr (.inl rfl) rfl rfl rfl rfl fun c hcall => hcall

/-- A process exits. -/
theorem BackoffInv.exit (hinv : BackoffInv p s) {i : ℕ} {g : Generation} (rc : ℤ)
    (hgeneration : s.generations i = some g) (hruns : g.returncode = none) :
    BackoffInv p (s.modify i fun g => { g with returncode := some rc }) := by
  have hold : ∀ {j g'}, (s.modify i fun g => { g with returncode := some rc }).generations j =
      some g' → ∃ a, s.generations j = some a ∧ (g'.returncode = a.returncode ∨
        a.returncode = none) ∧ g'.finalized = a.finalized := by
    intro j g' hg'
    by_cases hj : j = i
    · subst hj
      simp only [State.modify, Function.update_self, hgeneration, Option.map_some,
        Option.some.injEq] at hg'
      subst hg'
      exact ⟨g, hgeneration, .inr hruns, rfl⟩
    · simp only [State.modify, Function.update_of_ne hj] at hg'
      exact ⟨g', hg', .inl rfl, rfl⟩
  -- every other generation, and so every exited one, is the same
  have hsame : ∀ {j a}, s.generations j = some a → a.returncode ≠ none →
      (s.modify i fun g => { g with returncode := some rc }).generations j = some a := by
    intro j a ha hexited
    have hj : j ≠ i := by
      rintro rfl
      rw [hgeneration] at ha
      cases ha
      exact hexited hruns
    simp only [State.modify, Function.update_of_ne hj]
    exact ha
  have hrested : ∀ {time}, Rested p s time →
      Rested p (s.modify i fun g => { g with returncode := some rc }) time := by
    intro time h j hentry
    obtain ⟨⟨a, rc', ha, hexited, hrest⟩, hrecords⟩ := h j hentry
    exact ⟨⟨a, rc', hsame ha (by simp [hexited]), hexited, hrest⟩, hrecords⟩
  refine ⟨?_, hinv.newest, hinv.freshCall, hinv.held, ?_, ?_, ?_, hinv.spawned, hinv.past,
    hinv.absent, ?_, ?_, hinv.spaced⟩
  · intro j hj
    have hne : j ≠ i := by
      have := hinv.lt_allocated hgeneration
      change s.allocated ≤ j at hj
      omega
    simp only [State.modify, Function.update_of_ne hne]
    exact hinv.fresh j hj
  · intro c phase hcall
    have hphase := hinv.phase c phase hcall
    cases phase with
    | finalizing j =>
      obtain ⟨hentry, hwatcher, hcount, a, ha, hfinal, hexited⟩ := hphase
      exact ⟨hentry, hwatcher, hcount, a, hsame ha hexited, hfinal, hexited⟩
    | backoff wake => exact hrested hphase
    | starting => exact hrested hphase
    | _ => trivial
  · intro j g' hg'
    obtain ⟨a, ha, hexit, hfinal⟩ := hold hg'
    exact (hinv.generation j a ha).congr hexit hfinal rfl rfl rfl fun c hcall => hcall
  · intro r hr
    obtain ⟨a, ha, hbackoff⟩ := hinv.recorded r hr
    by_cases hj : r.object = i
    · rw [hj, hgeneration] at ha
      cases ha
      exact ⟨{ g with returncode := some rc }, by simp [State.modify, hj, hgeneration], hbackoff⟩
    · exact ⟨a, by simpa [State.modify, hj] using ha, hbackoff⟩
  · intro j hentry
    obtain ⟨a, ha⟩ := hinv.present j hentry
    by_cases hj : j = i
    · exact ⟨{ g with returncode := some rc }, by simp [State.modify, hj, hgeneration]⟩
    · exact ⟨a, by simpa [State.modify, hj] using ha⟩
  · intro j hnone
    by_cases hj : j = i
    · simp [State.modify, hj, hgeneration] at hnone
    · exact hinv.unwatched j (by simpa [State.modify, hj] using hnone)

/-- A call moves on, opens or ends. A finalization that it leaves has been recorded if it should. -/
theorem BackoffInv.setCall (hinv : BackoffInv p s) {c next : ℕ} {new : Option Phase}
    {lock : Option ℕ} (hnext : s.nextCall ≤ next) (hc : next ≤ c → new = none)
    (hlock : ∀ c' phase, c' ≠ c → s.calls c' = some phase → phase ≠ .waiting → lock = some c')
    (hnew : ∀ phase, new = some phase →
      PhaseInv p s phase ∧ (phase ≠ .waiting → lock = some c))
    (hdone : ∀ i, s.calls c = some (.finalizing i) → ∀ g rc, s.generations i = some g →
      g.returncode = some rc →
        timesRecorded s i = if componentShouldRestart p rc then 1 else 0) :
    BackoffInv p { s with
      calls := Function.update s.calls c new
      lock := lock
      nextCall := next } := by
  refine ⟨hinv.fresh, hinv.newest, ?_, ?_, ?_, ?_, hinv.recorded, hinv.spawned, hinv.past,
    hinv.absent, hinv.present, hinv.unwatched, hinv.spaced⟩
  · intro c' hc'
    by_cases hcc : c' = c
    · subst hcc
      simp [hc hc']
    · simp only [Function.update_of_ne hcc]
      exact hinv.freshCall c' (hnext.trans hc')
  · intro c' phase hcall hphase
    by_cases hcc : c' = c
    · subst hcc
      simp only [Function.update_self] at hcall
      exact (hnew phase hcall).2 hphase
    · simp only [Function.update_of_ne hcc] at hcall
      exact hlock c' phase hcc hcall hphase
  · intro c' phase hcall
    by_cases hcc : c' = c
    · subst hcc
      simp only [Function.update_self] at hcall
      exact (hnew phase hcall).1
    · simp only [Function.update_of_ne hcc] at hcall
      exact hinv.phase c' phase hcall
  · intro i g hgeneration
    have hold := hinv.generation i g hgeneration
    by_cases hfinalizes : s.calls c = some (.finalizing i)
    · obtain ⟨-, hwatcher, -, a, ha, hfinal, hexited⟩ := hinv.phase c _ hfinalizes
      change s.generations i = some g at hgeneration
      rw [hgeneration] at ha
      cases ha
      obtain ⟨rc, hrc⟩ := Option.ne_none_iff_exists'.mp hexited
      have hidle : s.watchers i ≠ .waiting ∧ s.watchers i ≠ .finalizing := by
        rw [hwatcher]
        exact ⟨(by rintro ⟨⟩), (by rintro ⟨⟩)⟩
      exact .settled hrc hfinal hidle (hdone i hfinalizes g rc hgeneration hrc)
    · refine hold.congr (.inl rfl) rfl rfl rfl rfl fun c' hcall => ?_
      have hcc : c' ≠ c := by
        rintro rfl
        exact hfinalizes hcall
      simpa [hcc] using hcall

/-- Nobody leaves a finalization that is still to be recorded. -/
def Done (p : Provider) (s : State) (c : ℕ) : Prop :=
  ∀ i, s.calls c = some (.finalizing i) → ∀ g rc, s.generations i = some g →
    g.returncode = some rc → timesRecorded s i = if componentShouldRestart p rc then 1 else 0

theorem done_of_phase {c : ℕ} {phase : Phase} (hcall : s.calls c = some phase)
    (hphase : ∀ i, phase ≠ .finalizing i) : Done p s c := by
  intro i hfinalizes
  rw [hcall] at hfinalizes
  cases hfinalizes
  exact (hphase i rfl).elim

theorem BackoffInv.goOn (hinv : BackoffInv p s) {c : ℕ} {phase : Phase} (hc : c < s.nextCall)
    (hlock : s.lock = none ∨ s.lock = some c) (hphase : PhaseInv p s phase)
    (hdone : Done p s c) : BackoffInv p (s.goOn c phase) := by
  refine hinv.setCall le_rfl (fun hle => by omega) ?_ ?_ hdone
  · intro c' phase' hne hcall hwaits
    have hheld := hinv.held c' phase' hcall hwaits
    rw [hheld] at hlock
    rcases hlock with hfree | hown
    · cases hfree
    · exact (hne (Option.some.inj hown)).elim
  · rintro _ ⟨⟩
    exact ⟨hphase, fun _ => rfl⟩

theorem BackoffInv.close (hinv : BackoffInv p s) {c : ℕ} (hdone : Done p s c) :
    BackoffInv p (s.close c) := by
  refine hinv.setCall le_rfl (fun _ => rfl) ?_ (by rintro _ ⟨⟩) hdone
  intro c' phase hne hcall hwaits
  have hheld := hinv.held c' phase hcall hwaits
  have hother : s.lock ≠ some c := by
    rw [hheld]
    simpa using hne
  rw [if_neg hother, hheld]

theorem BackoffInv.openCall (hinv : BackoffInv p s) : BackoffInv p s.openCall := by
  refine hinv.setCall (Nat.le_succ _) (fun hle => absurd hle (Nat.not_succ_le_self _))
    (fun c' phase _ hcall hwaits => hinv.held c' phase hcall hwaits) ?_ ?_
  · rintro _ ⟨⟩
    exact ⟨trivial, fun hwaits => (hwaits rfl).elim⟩
  · intro i hcall
    rw [hinv.freshCall s.nextCall le_rfl] at hcall
    cases hcall

theorem BackoffInv.rest (hinv : BackoffInv p s) {c : ℕ} {wake : ℚ} (hc : c < s.nextCall)
    (hlock : s.lock = none ∨ s.lock = some c) (hrested : Rested p s wake) (hdone : Done p s c) :
    BackoffInv p (rest s c wake) := by
  unfold Restart.rest
  split_ifs with hlate
  · exact hinv.goOn hc hlock hrested hdone
  · exact hinv.goOn hc hlock (hrested.mono (not_lt.mp hlate)) hdone

/-! ### Finalizations -/

/-- One generation changes with its watcher, and `extra` is recorded of it. -/
structure Touched (s s' : State) (i : ℕ) (g : Generation) (w : Watcher) (extra : List Record) :
    Prop where
  generations : s'.generations = Function.update s.generations i (some g)
  watchers : s'.watchers = Function.update s.watchers i w
  records : s'.records = s.records ++ extra
  own : ∀ r ∈ extra, r.object = i
  entry : s'.entry = s.entry
  allocated : s'.allocated = s.allocated
  nextCall : s'.nextCall = s.nextCall
  now : s'.now = s.now
  spawns : s'.spawns = s.spawns

section Touch

variable {s' : State} {i : ℕ} {g g' : Generation} {w : Watcher} {extra : List Record}

theorem Touched.count_ne (ht : Touched s s' i g' w extra) {j : ℕ} (hj : j ≠ i) :
    timesRecorded s' j = timesRecorded s j := by
  have hextra : extra.countP (fun r => r.object = j) = 0 := by
    rw [List.countP_eq_zero]
    intro r hr
    simpa [ht.own r hr] using hj.symm
  simp [timesRecorded, ht.records, List.countP_append, hextra]

theorem Touched.count_self (ht : Touched s s' i g' w extra) :
    timesRecorded s' i = timesRecorded s i + extra.length := by
  have hextra : extra.countP (fun r => r.object = i) = extra.length := by
    rw [List.countP_eq_length]
    intro r hr
    simpa using ht.own r hr
  simp [timesRecorded, ht.records, List.countP_append, hextra]

theorem Rested.touched {time : ℚ} (h : Rested p s time) (ht : Touched s s' i g' w extra)
    (hexited : g'.returncode ≠ none) (hfinal : g'.finalized = true)
    (hrest : s.entry = some i → w ≠ .finalizing ∧ extra = []) : Rested p s' time := by
  intro j hentry
  rw [ht.entry] at hentry
  obtain ⟨⟨a, rc, ha, hrc, hclosed, hwatcher⟩, hrecords⟩ := h j hentry
  by_cases hj : j = i
  · subst hj
    obtain ⟨hw, rfl⟩ := hrest hentry
    obtain ⟨rc', hrc'⟩ := Option.ne_none_iff_exists'.mp hexited
    refine ⟨⟨g', rc', by simp [ht.generations], hrc', hfinal, ?_⟩, ?_⟩
    · intro hbusy
      rw [ht.watchers, Function.update_self] at hbusy
      exact (hw hbusy).elim
    · rw [ht.records, List.append_nil]
      exact hrecords
  · refine ⟨⟨a, rc, by simp [ht.generations, hj, ha], hrc, hclosed, ?_⟩, ?_⟩
    · rw [ht.watchers, Function.update_of_ne hj]
      exact hwatcher
    · intro r hr hobject d hd
      rw [ht.records] at hr
      rcases List.mem_append.mp hr with hr | hr
      · exact hrecords r hr hobject d hd
      · exact (hj (hobject.symm.trans (ht.own r hr))).elim

/-- A call that does not finalize this generation. -/
theorem PhaseInv.touched {phase : Phase} (h : PhaseInv p s phase)
    (ht : Touched s s' i g' w extra) (hexited : g'.returncode ≠ none)
    (hfinal : g'.finalized = true) (hother : phase ≠ .finalizing i)
    (hrest : s.entry = some i → ∀ time, Rested p s time → w ≠ .finalizing ∧ extra = []) :
    PhaseInv p s' phase := by
  cases phase with
  | waiting => trivial
  | delayed wake => trivial
  | finalizing j =>
    have hj : j ≠ i := by
      rintro rfl
      exact hother rfl
    obtain ⟨hentry, hwatcher, hcount, a, ha, hclosed⟩ := h
    refine ⟨ht.entry.trans hentry, ?_, (ht.count_ne hj).trans hcount, a, ?_, hclosed⟩
    · rw [ht.watchers, Function.update_of_ne hj, hwatcher]
    · rw [ht.generations, Function.update_of_ne hj, ha]
  | backoff wake =>
    exact Rested.touched h ht hexited hfinal fun hentry => hrest hentry wake h
  | starting =>
    have hrested : Rested p s s.now := h
    have hnow := hrested.touched ht hexited hfinal fun hentry => hrest hentry s.now hrested
    rw [← ht.now] at hnow
    exact hnow

theorem BackoffInv.touched (hinv : BackoffInv p s) (ht : Touched s s' i g' w extra)
    (hgeneration : s.generations i = some g) (hg' : GenerationInv p s' i g')
    (hentry : extra ≠ [] → s.entry = some i)
    (hback : ∀ r ∈ s'.records, r.object = i → ∀ d, r.delay = some d →
      r.time + d ≤ g'.backoffUntil)
    (hfresh : ∀ c, s.nextCall ≤ c → s'.calls c = none)
    (hheld : ∀ c phase, s'.calls c = some phase → phase ≠ .waiting → s'.lock = some c)
    (hphase : ∀ c phase, s'.calls c = some phase → PhaseInv p s' phase)
    (hcalls : ∀ c j, j ≠ i → s.calls c = some (.finalizing j) → s'.calls c = some (.finalizing j)) :
    BackoffInv p s' := by
  have hi := hinv.lt_allocated hgeneration
  refine ⟨?_, ?_, ?_, hheld, hphase, ?_, ?_, ?_, ?_, ?_, ?_, ?_, ?_⟩
  · intro j hj
    rw [ht.allocated] at hj
    rw [ht.generations, Function.update_of_ne (by omega)]
    exact hinv.fresh j hj
  · rw [ht.entry, ht.allocated]
    exact hinv.newest
  · rw [ht.nextCall]
    exact hfresh
  · intro j a ha
    rw [ht.generations] at ha
    by_cases hj : j = i
    · subst hj
      rw [Function.update_self] at ha
      cases ha
      exact hg'
    · rw [Function.update_of_ne hj] at ha
      refine (hinv.generation j a ha).congr (.inl rfl) rfl ?_ ht.entry (ht.count_ne hj)
        fun c => hcalls c j hj
      rw [ht.watchers, Function.update_of_ne hj]
  · intro r hr
    by_cases hj : r.object = i
    · exact ⟨g', by simp [ht.generations, hj], hback r hr hj⟩
    · rw [ht.records] at hr
      rcases List.mem_append.mp hr with hr | hr
      · obtain ⟨a, ha, hbackoff⟩ := hinv.recorded r hr
        exact ⟨a, by simpa [ht.generations, hj] using ha, hbackoff⟩
      · exact (hj (ht.own r hr)).elim
  · rw [ht.allocated, ht.spawns]
    exact hinv.spawned
  · rw [ht.allocated, ht.spawns, ht.now]
    exact hinv.past
  · rw [ht.entry, ht.allocated]
    exact hinv.absent
  · intro j hentry'
    rw [ht.entry] at hentry'
    obtain ⟨a, ha⟩ := hinv.present j hentry'
    by_cases hj : j = i
    · exact ⟨g', by simp [ht.generations, hj]⟩
    · exact ⟨a, by simpa [ht.generations, hj] using ha⟩
  · intro j hnone
    rw [ht.generations] at hnone
    by_cases hj : j = i
    · simp [hj] at hnone
    · rw [ht.watchers, Function.update_of_ne hj]
      exact hinv.unwatched j (by simpa [hj] using hnone)
  · intro r hr d hd n hn hlt
    rw [ht.spawns] at hn
    rw [ht.records] at hr
    rcases List.mem_append.mp hr with hr | hr
    · exact hinv.spaced r hr d hd n hn hlt
    · -- what is recorded now is the newest generation
      have hnewest := hinv.newest i (hentry (List.ne_nil_of_mem hr))
      have hpast := (hinv.past n hn).1
      rw [ht.own r hr] at hlt
      omega

end Touch

theorem object_ne_of_unrecorded {i : ℕ} {r : Record} (hcount : timesRecorded s i = 0)
    (hr : r ∈ s.records) : r.object ≠ i := by
  rw [timesRecorded, List.countP_eq_zero] at hcount
  simpa using hcount r hr

theorem recordComponentFailure_spec (s : State) : ∃ failures quarantined delay,
    recordComponentFailure s =
      ({ s with failureHistory := failures, quarantined := quarantined }, delay) := by
  unfold recordComponentFailure
  dsimp only
  split
  · exact ⟨_, _, _, rfl⟩
  · exact ⟨_, s.quarantined, _, rfl⟩

theorem recordRestartFailure_spec {i : ℕ} {g : Generation} (hgeneration : s.generations i = some g) :
    ∃ failures quarantined delay g', recordRestartFailure s i =
      ({ s with
        failureHistory := failures
        quarantined := quarantined
        generations := Function.update s.generations i (some g')
        records := s.records ++ [⟨i, s.now, delay⟩] }, delay) ∧
      g'.returncode = g.returncode ∧ g'.finalized = g.finalized ∧
      ∀ d, delay = some d → g'.backoffUntil = s.now + d := by
  obtain ⟨failures, quarantined, delay, hrecord⟩ := recordComponentFailure_spec s
  refine ⟨failures, quarantined, delay, ?_⟩
  simp only [recordRestartFailure, hrecord]
  cases delay with
  | none =>
    refine ⟨g, ?_, rfl, rfl, (by simp)⟩
    rw [← hgeneration, Function.update_eq_self]
  | some d =>
    refine ⟨{ g with backoffUntil := s.now + d }, ?_, rfl, rfl, ?_⟩
    · simp [State.modify, hgeneration]
    · rintro _ ⟨⟩
      rfl

theorem exit_rc {g : Generation} {rc : ℤ} (hrc : g.returncode = some rc) :
    componentShouldRestart p (g.returncode.getD 0) = componentShouldRestart p rc := by
  rw [hrc, Option.getD_some]

theorem BackoffInv.back_of_records {g : Generation} {i : ℕ} (hinv : BackoffInv p s)
    (hgeneration : s.generations i = some g) {r : Record} (hr : r ∈ s.records)
    (hobject : r.object = i) {d : ℚ} (hd : r.delay = some d) : r.time + d ≤ g.backoffUntil := by
  obtain ⟨a, ha, hbackoff⟩ := hinv.recorded r hr
  rw [hobject, hgeneration] at ha
  cases ha
  exact hbackoff d hd

/-- The delays of the records of the entry end by its `backoff_until`. -/
theorem BackoffInv.rested_entry (hinv : BackoffInv p s) {i : ℕ} {g : Generation}
    (hentry : s.entry = some i) (hgeneration : s.generations i = some g)
    (hexited : g.returncode ≠ none) (hfinal : g.finalized = true)
    (hwatcher : ∀ rc, g.returncode = some rc → s.watchers i = .finalizing →
      componentShouldRestart p rc = false) : Rested p s g.backoffUntil := by
  obtain ⟨rc, hrc⟩ := Option.ne_none_iff_exists'.mp hexited
  intro j hj
  rw [hentry] at hj
  cases hj
  exact ⟨⟨g, rc, hgeneration, hrc, hfinal, hwatcher rc hrc⟩,
    fun r hr hobject d hd => hinv.back_of_records hgeneration hr hobject hd⟩

/-- The lock is free for the other calls only to wait for. -/
theorem BackoffInv.others_wait (hinv : BackoffInv p s) {c c' : ℕ} {phase : Phase}
    (hlock : s.lock = none ∨ s.lock = some c) (hne : c' ≠ c) (hcall : s.calls c' = some phase) :
    phase = .waiting := by
  by_contra hbusy
  have hheld := hinv.held c' phase hcall hbusy
  rcases hlock with hfree | hown
  · rw [hfree] at hheld
    cases hheld
  · rw [hown] at hheld
    exact hne (Option.some.inj hheld).symm

/-! ### The watcher -/

/-- The generation changes in a step of its watcher. -/
theorem BackoffInv.watcherTouched {s' : State} {i : ℕ} {g g' : Generation} {w : Watcher}
    {extra : List Record} (hinv : BackoffInv p s) (ht : Touched s s' i g' w extra)
    (hcalls : s'.calls = s.calls) (hlock : s'.lock = s.lock)
    (hgeneration : s.generations i = some g) (hg' : GenerationInv p s' i g')
    (hexited : g'.returncode ≠ none) (hfinal : g'.finalized = true)
    (hother : s.watchers i ≠ .done)
    (hrest : s.entry = some i → ∀ time, Rested p s time → w ≠ .finalizing ∧ extra = [])
    (hentry : extra ≠ [] → s.entry = some i)
    (hback : ∀ r ∈ s'.records, r.object = i → ∀ d, r.delay = some d →
      r.time + d ≤ g'.backoffUntil) : BackoffInv p s' := by
  refine hinv.touched ht hgeneration hg' hentry hback ?_ ?_ ?_ ?_
  · rw [hcalls]
    exact hinv.freshCall
  · rw [hcalls, hlock]
    exact hinv.held
  · intro c phase hcall
    rw [hcalls] at hcall
    have hphase := hinv.phase c phase hcall
    refine hphase.touched ht hexited hfinal ?_ hrest
    rintro rfl
    exact hother hphase.2.1
  · intro c j _ hcall
    rw [hcalls]
    exact hcall

theorem BackoffInv.watch (hinv : BackoffInv p s) {i : ℕ} {g : Generation}
    (hgeneration : s.generations i = some g) (hwaits : s.watchers i = .waiting)
    (hexited : g.returncode ≠ none) : BackoffInv p (watchStep s i g) := by
  cases hinv.generation i g hgeneration with
  | live pending watcher entry count =>
    rw [watchStep, if_pos ⟨entry, pending⟩]
    set s' := (s.modify i fun g => { g with finalized := true }).setWatcher i .finalizing
    have ht : Touched s s' i { g with finalized := true } .finalizing [] := by
      refine ⟨?_, rfl, (List.append_nil _).symm, (by simp), rfl, rfl, rfl, rfl, rfl⟩
      simp [s', State.modify, State.setWatcher, hgeneration]
    obtain ⟨rc, hrc⟩ := Option.ne_none_iff_exists'.mp hexited
    refine hinv.watcherTouched ht rfl rfl hgeneration ?_ hexited rfl ?_ ?_ ?_ ?_
    · exact .watched hrc rfl (by simp [ht.watchers]) (fun _ => entry) (ht.count_self.trans count)
    · rw [watcher]
      rintro ⟨⟩
    · intro hentry time hrested
      obtain ⟨⟨a, -, ha, -, hfinal, -⟩, -⟩ := hrested i hentry
      rw [hgeneration] at ha
      cases ha
      rw [pending] at hfinal
      cases hfinal
    · exact fun h => (h rfl).elim
    · intro r hr hobject d hd
      rw [ht.records, List.append_nil] at hr
      exact hinv.back_of_records hgeneration hr hobject hd
  | watched exited final watcher entry count =>
    rw [hwaits] at watcher
    cases watcher
  | started exited final watcher call entry count =>
    rw [hwaits] at watcher
    cases watcher
  | settled exited final idle once => exact (idle.1 hwaits).elim

/-- A watcher that has nothing more to record is done. -/
theorem BackoffInv.watcherDone (hinv : BackoffInv p s) {i : ℕ} {rc : ℤ} {g : Generation}
    (hgeneration : s.generations i = some g) (hnotDone : s.watchers i ≠ .done)
    (exited : g.returncode = some rc) (final : g.finalized = true)
    (once : timesRecorded s i = if componentShouldRestart p rc then 1 else 0) :
    BackoffInv p (s.setWatcher i .done) := by
  have ht : Touched s (s.setWatcher i .done) i g .done [] := by
    refine ⟨?_, rfl, (List.append_nil _).symm, (by simp), rfl, rfl, rfl, rfl, rfl⟩
    rw [← hgeneration, Function.update_eq_self]
    rfl
  refine hinv.watcherTouched ht rfl rfl hgeneration ?_ (by simp [exited]) final hnotDone
    (fun _ _ _ => ⟨(by rintro ⟨⟩), rfl⟩) (fun h => (h rfl).elim) ?_
  · exact .settled exited final (by simp [ht.watchers]) (ht.count_self.trans once)
  · intro r hr hobject d hd
    exact hinv.back_of_records hgeneration hr hobject hd

theorem BackoffInv.watched (hinv : BackoffInv p s) {i : ℕ} {g : Generation}
    (hgeneration : s.generations i = some g) (hbusy : s.watchers i = .finalizing) :
    BackoffInv p (watchedStep p s i g) := by
  have hnotDone : s.watchers i ≠ .done := by
    rw [hbusy]
    rintro ⟨⟩
  cases hinv.generation i g hgeneration with
  | live pending watcher entry count =>
    rw [hbusy] at watcher
    cases watcher
  | started exited final watcher call entry count => exact (hnotDone watcher).elim
  | settled exited final idle once => exact (idle.2 hbusy).elim
  | @watched rc exited final watcher entry count =>
    rw [watchedStep, exit_rc exited]
    cases hrestart : componentShouldRestart p rc with
    | false =>
      simp only [Bool.false_eq_true, if_false]
      exact hinv.watcherDone hgeneration hnotDone exited final (by rw [hrestart]; exact count)
    | true =>
      simp only [if_true]
      obtain ⟨failures, quarantined, delay, g', hrecord, hrc', hfinal', hbackoff⟩ :=
        recordRestartFailure_spec hgeneration
      have hsettles : ∀ w : Watcher, w ≠ .waiting → w ≠ .finalizing →
          BackoffInv p ((recordRestartFailure s i).1.setWatcher i w) := by
        intro w hwait hfinalizing
        rw [hrecord]
        set s' := State.setWatcher _ i w
        have ht : Touched s s' i g' w [⟨i, s.now, delay⟩] :=
          ⟨rfl, rfl, rfl, by simp, rfl, rfl, rfl, rfl, rfl⟩
        refine hinv.watcherTouched ht rfl rfl hgeneration ?_ (by simp [hrc', exited])
          (hfinal'.trans final) hnotDone ?_ (fun _ => entry hrestart) ?_
        · refine .settled (hrc'.trans exited) (hfinal'.trans final) ?_ ?_
          · simp [ht.watchers, hwait, hfinalizing]
          · rw [hrestart, ht.count_self, count]
            rfl
        · intro hentry time hrested
          obtain ⟨⟨a, rc', ha, hrc, -, hwatcher⟩, -⟩ := hrested i hentry
          rw [hgeneration] at ha
          cases ha
          rw [exited] at hrc
          cases hrc
          rw [hwatcher hbusy] at hrestart
          cases hrestart
        · intro r hr hobject d hd
          rcases List.mem_append.mp hr with hr | hr
          · exact (object_ne_of_unrecorded count hr hobject).elim
          · cases List.mem_singleton.mp hr
            exact (hbackoff d hd).ge
      have hresult : (recordRestartFailure s i).2 = delay := by rw [hrecord]
      split
      · rename_i recorded heq
        have := hsettles .done (by rintro ⟨⟩) (by rintro ⟨⟩)
        rwa [heq] at this
      · rename_i recorded d heq
        have := hsettles (.sleeping (s.now + d)) (by rintro ⟨⟩) (by rintro ⟨⟩)
        rwa [heq] at this

theorem BackoffInv.watcherWoken (hinv : BackoffInv p s) {i : ℕ} {wake : ℚ}
    (hsleeps : s.watchers i = .sleeping wake) : BackoffInv p (s.setWatcher i .done) := by
  have hnotDone : s.watchers i ≠ .done := by
    rw [hsleeps]
    rintro ⟨⟩
  obtain ⟨g, hgeneration⟩ := Option.ne_none_iff_exists'.mp fun hnone =>
    hnotDone (hinv.unwatched i hnone)
  cases hinv.generation i g hgeneration with
  | live pending watcher entry count =>
    rw [hsleeps] at watcher
    cases watcher
  | watched exited final watcher entry count =>
    rw [hsleeps] at watcher
    cases watcher
  | started exited final watcher call entry count => exact (hnotDone watcher).elim
  | settled exited final idle once =>
    exact hinv.watcherDone hgeneration hnotDone exited final once

/-! ### Starts -/

/-- The generation changes in a step of a start that goes on with the lock. -/
theorem BackoffInv.startTouched {s' : State} {i c : ℕ} {g g' : Generation} {w : Watcher}
    {extra : List Record} {phase : Phase} (hinv : BackoffInv p s)
    (ht : Touched s s' i g' w extra) (hc : c < s.nextCall)
    (hlock : s.lock = none ∨ s.lock = some c)
    (hcalls : s'.calls = Function.update s.calls c (some phase)) (hlock' : s'.lock = some c)
    (hgeneration : s.generations i = some g) (hg' : GenerationInv p s' i g')
    (hphase : PhaseInv p s' phase) (hown : ∀ j, s.calls c = some (.finalizing j) → j = i)
    (hentry : extra ≠ [] → s.entry = some i)
    (hback : ∀ r ∈ s'.records, r.object = i → ∀ d, r.delay = some d →
      r.time + d ≤ g'.backoffUntil) : BackoffInv p s' := by
  have hother : ∀ {c'}, c' ≠ c → s'.calls c' = s.calls c' := by
    intro c' hne
    rw [hcalls, Function.update_of_ne hne]
  have hself : s'.calls c = some phase := by rw [hcalls, Function.update_self]
  refine hinv.touched ht hgeneration hg' hentry hback ?_ ?_ ?_ ?_
  · intro c' hc'
    rw [hother (by omega)]
    exact hinv.freshCall c' hc'
  · intro c' phase' hcall' hbusy
    by_cases hcc : c' = c
    · rw [hcc, hlock']
    · rw [hother hcc] at hcall'
      exact (hbusy (hinv.others_wait hlock hcc hcall')).elim
  · intro c' phase' hcall'
    by_cases hcc : c' = c
    · rw [hcc, hself] at hcall'
      cases hcall'
      exact hphase
    · rw [hother hcc] at hcall'
      rw [hinv.others_wait hlock hcc hcall']
      trivial
  · intro c' j hj hcall'
    have hcc : c' ≠ c := by
      rintro rfl
      exact hj (hown j hcall')
    rw [hother hcc]
    exact hcall'

/-- `_ensure_started_locked` looks at the entry. -/
theorem BackoffInv.examine (hinv : BackoffInv p s) {c : ℕ} {phase : Phase}
    (hcall : s.calls c = some phase) (hearly : phase = .waiting ∨ ∃ wake, phase = .delayed wake)
    (hlock : s.lock = none ∨ s.lock = some c) (hrecorded : unrecorded p s = false) :
    BackoffInv p (examine s c) := by
  have hc := hinv.lt_nextCall hcall
  have hnot : ∀ i, phase ≠ .finalizing i := by
    rintro i rfl
    rcases hearly with h | ⟨wake, h⟩
    · cases h
    · cases h
  have hdone : Done p s c := done_of_phase hcall hnot
  unfold Restart.examine
  cases hentry : s.entry with
  | none =>
    refine hinv.goOn hc hlock ?_ hdone
    intro i hi
    rw [hentry] at hi
    cases hi
  | some i =>
    obtain ⟨g, hgeneration⟩ := hinv.present i hentry
    simp only [hgeneration]
    by_cases hruns : g.returncode = none
    · rw [if_pos hruns]
      exact hinv.close hdone
    rw [if_neg hruns]
    by_cases hfinal : g.finalized = true
    · rw [if_pos hfinal]
      refine hinv.rest hc hlock (hinv.rested_entry hentry hgeneration hruns hfinal ?_) hdone
      intro rc hrc hbusy
      simpa [unrecorded, hentry, hgeneration, hrc, hbusy] using hrecorded
    · rw [if_neg hfinal]
      cases hinv.generation i g hgeneration with
      | watched exited final watcher entry count => exact (hfinal final).elim
      | started exited final watcher call entry count => exact (hfinal final).elim
      | settled exited final idle once => exact (hfinal final).elim
      | live pending watcher entry count =>
        set s' := State.goOn _ c (.finalizing i)
        have ht : Touched s s' i { g with finalized := true } .done [] := by
          refine ⟨?_, rfl, (List.append_nil _).symm, (by simp), rfl, rfl, rfl, rfl, rfl⟩
          simp [s', State.goOn, State.modify, State.setWatcher, hgeneration]
        have hself : s'.calls c = some (.finalizing i) := Function.update_self ..
        have hcount : timesRecorded s' i = 0 := ht.count_self.trans count
        have hwatcher : s'.watchers i = .done := by simp [ht.watchers]
        obtain ⟨rc, hrc⟩ := Option.ne_none_iff_exists'.mp hruns
        refine hinv.startTouched ht hc hlock rfl rfl hgeneration ?_ ?_ ?_ (fun h => (h rfl).elim) ?_
        · exact .started hrc rfl hwatcher hself entry hcount
        · exact ⟨entry, hwatcher, hcount, { g with finalized := true }, by simp [ht.generations],
            rfl, hruns⟩
        · intro j hj
          rw [hcall] at hj
          exact (hnot j (Option.some.inj hj)).elim
        · intro r hr hobject d hd
          rw [ht.records, List.append_nil] at hr
          exact hinv.back_of_records hgeneration hr hobject hd

theorem BackoffInv.lockStep (hinv : BackoffInv p s) {c : ℕ} {ready : Bool}
    (hcall : s.calls c = some .waiting) (hlock : s.lock = none)
    (hpatient : s.quarantined = false → (∀ wake ∈ s.spawnBackoffUntil, wake ≤ s.now) →
      unrecorded p s = false) : BackoffInv p (lockStep s c ready) := by
  have hdone : Done p s c := done_of_phase hcall (by simp)
  unfold Restart.lockStep
  cases hquarantined : s.quarantined with
  | true => exact hinv.close hdone
  | false =>
    simp only [Bool.false_eq_true, if_false]
    split
    · exact hinv.close hdone
    cases hbackoff : s.spawnBackoffUntil with
    | none =>
      refine hinv.examine hcall (.inl rfl) (.inl hlock) (hpatient hquarantined ?_)
      rw [hbackoff]
      rintro _ ⟨⟩
    | some wake =>
      dsimp only
      split
      · exact hinv.goOn (hinv.lt_nextCall hcall) (.inl hlock) trivial hdone
      · rename_i hpassed
        refine hinv.examine hcall (.inl rfl) (.inl hlock) (hpatient hquarantined ?_)
        rw [hbackoff]
        rintro _ ⟨⟩
        exact not_lt.mp hpassed

theorem goOn_goOn (s : State) (c : ℕ) (first second : Phase) :
    (s.goOn c first).goOn c second = s.goOn c second := by
  simp [State.goOn]

theorem rest_goOn (s : State) (c : ℕ) (first : Phase) (wake : ℚ) :
    rest (s.goOn c first) c wake = rest s c wake := by
  simp only [rest, goOn_goOn]
  rfl

theorem close_goOn (c : ℕ) (phase : Phase) (hlock : s.lock = some c) :
    (s.goOn c phase).close c = s.close c := by
  simp [State.goOn, State.close, hlock]

theorem BackoffInv.finalizedStep (hinv : BackoffInv p s) {c i : ℕ} {g : Generation}
    (hcall : s.calls c = some (.finalizing i)) (hgeneration : s.generations i = some g) :
    BackoffInv p (finalizedStep p s c i g) := by
  have hc := hinv.lt_nextCall hcall
  have hlock : s.lock = some c := hinv.held c _ hcall (by rintro ⟨⟩)
  obtain ⟨hentry, hwatcher, hcount, a, ha, hfinal, hexited⟩ := hinv.phase c _ hcall
  rw [hgeneration] at ha
  cases ha
  obtain ⟨rc, hrc⟩ := Option.ne_none_iff_exists'.mp hexited
  unfold Restart.finalizedStep
  rw [exit_rc hrc]
  cases hrestart : componentShouldRestart p rc with
  | false =>
    simp only [Bool.false_eq_true, if_false]
    refine hinv.rest hc (.inr hlock) (hinv.rested_entry hentry hgeneration hexited hfinal ?_) ?_
    · rw [hwatcher]
      rintro _ _ ⟨⟩
    · intro j hj a rc' ha hrc'
      rw [hcall] at hj
      cases hj
      rw [hgeneration] at ha
      cases ha
      rw [hrc] at hrc'
      cases hrc'
      rw [hcount, hrestart]
      rfl
  | true =>
    simp only [if_true]
    obtain ⟨failures, quarantined, delay, g', hrecord, hrc', hfinal', hbackoff⟩ :=
      recordRestartFailure_spec hgeneration
    -- the record is made as the call leaves the finalization
    have hleft : BackoffInv p ((recordRestartFailure s i).1.goOn c (.delayed s.now)) ∧
        ∀ d, delay = some d →
          Rested p ((recordRestartFailure s i).1.goOn c (.delayed s.now)) (s.now + d) := by
      rw [hrecord]
      set s' := State.goOn _ c (.delayed s.now)
      have ht : Touched s s' i g' .done [⟨i, s.now, delay⟩] := by
        refine ⟨rfl, ?_, rfl, by simp, rfl, rfl, rfl, rfl, rfl⟩
        rw [← hwatcher, Function.update_eq_self]
        rfl
      have hnew : ∀ r ∈ s'.records, r.object = i → ∀ d, r.delay = some d →
          r.time = s.now ∧ delay = some d := by
        intro r hr hobject d hd
        rcases List.mem_append.mp hr with hr | hr
        · exact (object_ne_of_unrecorded hcount hr hobject).elim
        · cases List.mem_singleton.mp hr
          exact ⟨rfl, hd⟩
      constructor
      · refine hinv.startTouched ht hc (.inr hlock) rfl rfl hgeneration ?_ trivial ?_
          (fun _ => hentry) ?_
        · refine .settled (hrc'.trans hrc) (hfinal'.trans hfinal) (by simp [ht.watchers]) ?_
          rw [hrestart, ht.count_self, hcount]
          rfl
        · intro j hj
          rw [hcall] at hj
          cases hj
          rfl
        · intro r hr hobject d hd
          obtain ⟨htime, hdelay⟩ := hnew r hr hobject d hd
          rw [htime, hbackoff d hdelay]
      · intro d hd j hj
        rw [ht.entry, hentry] at hj
        cases hj
        refine ⟨⟨g', rc, by simp [ht.generations], hrc'.trans hrc, hfinal'.trans hfinal, ?_⟩, ?_⟩
        · simp [ht.watchers]
        · intro r hr hobject d' hd'
          obtain ⟨htime, hdelay⟩ := hnew r hr hobject d' hd'
          rw [hd] at hdelay
          cases hdelay
          rw [htime]
    rw [hrecord] at hleft ⊢
    obtain ⟨hleft, hrests⟩ := hleft
    cases delay with
    | none =>
      have hclosed := hleft.close (done_of_phase (Function.update_self ..) (by simp))
      rw [close_goOn] at hclosed
      · exact hclosed
      · exact hlock
    | some d =>
      dsimp only at hleft ⊢
      rw [← rest_goOn _ c (.delayed s.now)]
      exact hleft.rest hc (.inr rfl) (hrests d rfl) (done_of_phase (Function.update_self ..) (by simp))

@[simp] theorem close_calls (s : State) (c : ℕ) :
    (s.close c).calls = Function.update s.calls c none := rfl

@[simp] theorem spawnStep_generations (s : State) (c : ℕ) : (spawnStep s c).generations =
    Function.update s.generations s.allocated (some ⟨none, false, 0⟩) := rfl

@[simp] theorem spawnStep_watchers (s : State) (c : ℕ) : (spawnStep s c).watchers =
    Function.update s.watchers s.allocated .waiting := rfl

theorem BackoffInv.spawnStep (hinv : BackoffInv p s) {c : ℕ} (hcall : s.calls c = some .starting) :
    BackoffInv p (spawnStep s c) := by
  have hlock : s.lock = some c := hinv.held c _ hcall (by rintro ⟨⟩)
  have hrested : Rested p s s.now := hinv.phase c _ hcall
  -- the other calls wait for the lock
  have hwait : ∀ {c' phase}, (s.close c).calls c' = some phase → phase = .waiting := by
    intro c' phase hcall'
    by_cases hcc : c' = c
    · simp [hcc] at hcall'
    · rw [close_calls, Function.update_of_ne hcc] at hcall'
      exact hinv.others_wait (.inr hlock) hcc hcall'
  have hclosed : BackoffInv p (s.close c) := hinv.close (done_of_phase hcall (by simp))
  have hold : ∀ {r}, r ∈ s.records → r.object < s.allocated := by
    intro r hr
    obtain ⟨g, hgeneration, -⟩ := hinv.recorded r hr
    exact hinv.lt_allocated hgeneration
  refine ⟨?_, ?_, hclosed.freshCall, hclosed.held, ?_, ?_, ?_, ?_, ?_, (by rintro ⟨⟩), ?_, ?_, ?_⟩
  · intro i hi
    change s.allocated + 1 ≤ i at hi
    rw [spawnStep_generations, Function.update_of_ne (by omega)]
    exact hinv.fresh i (by omega)
  · rintro _ ⟨⟩
    rfl
  · intro c' phase hcall'
    rw [hwait hcall']
    trivial
  · intro i g hgeneration
    by_cases hi : i = s.allocated
    · rw [spawnStep_generations, hi, Function.update_self] at hgeneration
      cases hgeneration
      refine .live rfl (by simp [hi]) (congrArg some hi.symm) ?_
      rw [timesRecorded, List.countP_eq_zero]
      intro r hr
      have := hold hr
      simp only [decide_eq_true_eq]
      omega
    · rw [spawnStep_generations, Function.update_of_ne hi] at hgeneration
      have hwatcher : (Restart.spawnStep s c).watchers i = s.watchers i := Function.update_of_ne hi ..
      have hgone : ∀ g' rc, s.entry = some i → s.generations i = some g' →
          g'.returncode = some rc → g'.finalized = true ∧
            (s.watchers i = .finalizing → componentShouldRestart p rc = false) := by
        intro g' rc hentry hg' hrc'
        obtain ⟨⟨a, rc', ha, hrc, hfinal, hover⟩, -⟩ := hrested i hentry
        rw [hg'] at ha
        cases ha
        rw [hrc'] at hrc
        cases hrc
        exact ⟨hfinal, hover⟩
      cases hclosed.generation i g hgeneration with
      | live pending watcher entry count =>
        obtain ⟨⟨a, rc, ha, hrc, hfinal, -⟩, -⟩ := hrested i entry
        change s.generations i = some g at hgeneration
        rw [hgeneration] at ha
        cases ha
        rw [pending] at hfinal
        cases hfinal
      | watched exited final watcher entry count =>
        refine .watched exited final (hwatcher.trans watcher) ?_ count
        intro hrestart
        rw [(hgone g _ (entry hrestart) hgeneration exited).2 watcher] at hrestart
        cases hrestart
      | started exited final watcher call entry count => cases hwait call
      | settled exited final idle once =>
        exact .settled exited final (by rw [hwatcher]; exact idle) once
  · intro r hr
    obtain ⟨g, hgeneration, hbackoff⟩ := hinv.recorded r hr
    refine ⟨g, ?_, hbackoff⟩
    rw [spawnStep_generations, Function.update_of_ne (hold hr).ne]
    exact hgeneration
  · intro i hi
    change i < s.allocated + 1 at hi
    by_cases hnew : i = s.allocated
    · exact ⟨⟨s.allocated, s.now⟩, by simp [Restart.spawnStep], hnew.symm⟩
    · obtain ⟨n, hn, hobject⟩ := hinv.spawned i (by omega)
      exact ⟨n, List.mem_append_left _ hn, hobject⟩
  · intro n hn
    rcases List.mem_append.mp hn with hn | hn
    · exact ⟨Nat.lt_succ_of_lt (hinv.past n hn).1, (hinv.past n hn).2⟩
    · cases List.mem_singleton.mp hn
      exact ⟨Nat.lt_succ_self _, le_rfl⟩
  · rintro _ ⟨⟩
    exact ⟨_, Function.update_self ..⟩
  · intro i hnone
    by_cases hi : i = s.allocated
    · simp [hi] at hnone
    · rw [spawnStep_generations, Function.update_of_ne hi] at hnone
      rw [spawnStep_watchers, Function.update_of_ne hi]
      exact hinv.unwatched i hnone
  · intro r hr d hd n hn hlt
    rcases List.mem_append.mp hn with hn | hn
    · exact hinv.spaced r hr d hd n hn hlt
    cases List.mem_singleton.mp hn
    cases hentry : s.entry with
    | none =>
      rw [hinv.absent hentry] at hlt
      exact (Nat.not_lt_zero _ hlt).elim
    | some e =>
      have hnewest := hinv.newest e hentry
      by_cases hr' : r.object = e
      · exact (hrested e hentry).2 r hr hr' d hd
      · -- the entry itself was spawned late enough
        obtain ⟨m, hm, hobject⟩ := hinv.spawned e (by omega)
        have hbefore : r.object < m.object := by
          change r.object < s.allocated at hlt
          omega
        exact (hinv.spaced r hr d hd m hm hbefore).trans (hinv.past m hm).2

theorem BackoffInv.spawnFailedStep (hinv : BackoffInv p s) {c : ℕ}
    (hcall : s.calls c = some .starting) : BackoffInv p (spawnFailedStep s c) := by
  obtain ⟨failures, quarantined, delay, hrecord⟩ := recordComponentFailure_spec s
  have hclosed := hinv.close (done_of_phase hcall (by simp))
  rw [Restart.spawnFailedStep, hrecord]
  cases delay with
  | none => exact hclosed.tables failures quarantined s.spawnBackoffUntil
  | some d => exact hclosed.tables failures quarantined (some (s.now + d))

/-- A cancelled start leaves no exit unrecorded. -/
theorem done_of_patient (hinv : BackoffInv p s) {c : ℕ} (hpatient : Patient p s (.cancel c)) :
    Done p s c := by
  intro i hcall g rc hgeneration hrc
  rw [hpatient i hcall g rc hgeneration hrc]
  exact (hinv.phase c _ hcall).2.2.1

/-! ## Runs -/

theorem BackoffInv.step (hinv : BackoffInv p s) {s' : State} {l : Label}
    (hpatient : Patient p s l) (h : step p s l = some s') : BackoffInv p s' := by
  cases l with
  | tick δ =>
    rw [Restart.step] at h
    split at h <;> cases h
    exact hinv.tick ‹_›
  | exit i rc =>
    simp only [Restart.step] at h
    split at h
    · rename_i g hgeneration
      split at h <;> cases h
      exact hinv.exit rc hgeneration ‹_›
    · cases h
  | enter =>
    cases h
    exact hinv.openCall
  | lock c ready =>
    simp only [Restart.step] at h
    split at h
    · rename_i hcall
      split at h <;> cases h
      exact hinv.lockStep hcall ‹_› hpatient
    · cases h
  | woken c =>
    simp only [Restart.step] at h
    split at h
    · rename_i wake hcall
      split at h <;> cases h
      exact hinv.examine hcall (.inr ⟨wake, rfl⟩) (.inr (hinv.held c _ hcall (by rintro ⟨⟩))) hpatient
    · cases h
  | finalized c =>
    simp only [Restart.step] at h
    split at h
    · rename_i i hcall
      obtain ⟨g, hgeneration, rfl⟩ := Option.map_eq_some_iff.mp h
      exact hinv.finalizedStep hcall hgeneration
    · cases h
  | rested c =>
    simp only [Restart.step] at h
    split at h
    · rename_i wake hcall
      split at h <;> cases h
      have hrested : Rested p s wake := hinv.phase c _ hcall
      exact hinv.goOn (hinv.lt_nextCall hcall) (.inr (hinv.held c _ hcall (by rintro ⟨⟩)))
        (hrested.mono ‹_›) (done_of_phase hcall (by simp))
    · cases h
  | spawn c =>
    rw [Restart.step] at h
    split at h <;> cases h
    exact hinv.spawnStep ‹_›
  | spawnFailed c =>
    rw [Restart.step] at h
    split at h <;> cases h
    exact hinv.spawnFailedStep ‹_›
  | failed c =>
    rw [Restart.step] at h
    split at h <;> cases h
    rename_i hcall
    exact hinv.close (done_of_phase hcall (by simp))
  | cancel c =>
    cases h
    exact hinv.close (done_of_patient hinv hpatient)
  | watch i =>
    simp only [Restart.step] at h
    split at h
    · rename_i g hgeneration
      split at h <;> cases h
      rename_i hexited
      exact hinv.watch hgeneration hexited.1 hexited.2
    · cases h
  | watched i =>
    simp only [Restart.step] at h
    split at h
    · rename_i g hgeneration
      split at h <;> cases h
      exact hinv.watched hgeneration ‹_›
    · cases h
  | watcherWoken i =>
    simp only [Restart.step] at h
    split at h
    · rename_i wake hsleeps
      split at h <;> cases h
      have hwoken := hinv.watcherWoken hsleeps
      split
      · exact hwoken.openCall
      · exact hwoken
    · cases h
  | tables failures quarantined wake =>
    cases h
    exact hinv.tables failures quarantined wake

end

theorem recordedOnce_spaced_of_patient (p : Provider) (now : ℚ) (ls : List Label) (s : State)
    (halong : Along (step p) (Patient p) (initial now) ls)
    (hrun : run (step p) (initial now) ls = some s) : RecordedOnce p s ∧ Spaced s := by
  have hinv : BackoffInv p s := run_invariant (fun _ _ _ hinv hpatient hstep =>
    hinv.step hpatient hstep) ls (backoffInv_initial p now) halong hrun
  exact ⟨hinv.recordedOnce, hinv.spaced⟩

instance (s : State) : Decidable (Spaced s) :=
  inferInstanceAs (Decidable (∀ r ∈ s.records, ∀ d ∈ r.delay, ∀ n ∈ s.spawns, _))

theorem patient_cancel_iff {p : Provider} {s : State} {c i : ℕ}
    (hcall : s.calls c = some (.finalizing i)) : Patient p s (.cancel c) ↔
      ∀ g ∈ s.generations i, ∀ rc ∈ g.returncode, componentShouldRestart p rc = false := by
  constructor
  · intro h g hg rc hrc
    exact h i hcall g rc hg hrc
  · intro h j hj g rc hg hrc
    rw [hcall] at hj
    cases hj
    exact h g hg rc hrc

instance (p : Provider) (s : State) : (l : Label) → Decidable (Patient p s l)
  | .lock _ _ => inferInstanceAs (Decidable (_ → _ → _))
  | .woken _ => inferInstanceAs (Decidable (_ = _))
  | .cancel c => match hcall : s.calls c with
    | some (.finalizing i) =>
      decidable_of_iff (∀ g ∈ s.generations i, ∀ rc ∈ g.returncode,
          componentShouldRestart p rc = false) (patient_cancel_iff hcall).symm
    | none | some .waiting | some (.delayed _) | some (.backoff _) | some .starting =>
      isTrue (by simp [Patient, hcall])
  | .tick _ | .exit _ _ | .enter | .finalized _ | .rested _ | .spawn _ | .spawnFailed _
  | .failed _ | .watch _ | .watched _ | .watcherWoken _ | .tables _ _ _ => isTrue trivial

/-- A system service that is always restarted. -/
def sampleProvider : Provider :=
  ⟨lit "system", lit "background", lit "always", [lit "role"]⟩

/-- The first generation is started, and its process exits. -/
def startAndExit : List Label :=
  [.enter, .lock 0 false, .spawn 0, .exit 0 1, .watch 0]

/-- The watcher records the exit and sleeps; a caller's start sleeps for the rest of the delay. -/
def restartAfterDelay : List Label :=
  startAndExit ++ [.watched 0, .tick (1 / 8), .enter, .lock 1 false, .tick (1 / 8),
    .watcherWoken 0, .rested 1, .spawn 1]

theorem restartAfterDelay_recordedOnce_spaced : ∃ s,
    run (step sampleProvider) (initial 0) restartAfterDelay = some s ∧
    s.records = [⟨0, 0, some (1 / 4)⟩] ∧ s.spawns = [⟨0, 0⟩, ⟨1, 1 / 4⟩] ∧
    RecordedOnce sampleProvider s ∧ Spaced s := by
  have hlast : (run (step sampleProvider) (initial 0) restartAfterDelay).map (fun s =>
      (s.records, s.spawns)) = some ([⟨0, 0, some (1 / 4)⟩], [⟨0, 0⟩, ⟨1, 1 / 4⟩]) := by
    decide +kernel
  have halong : Along (step sampleProvider) (Patient sampleProvider) (initial 0)
      restartAfterDelay := by
    decide +kernel
  obtain ⟨s, hrun, hs⟩ := Option.map_eq_some_iff.mp hlast
  obtain ⟨hrecords, hspawns⟩ := Prod.mk.inj hs
  exact ⟨s, hrun, hrecords, hspawns, recordedOnce_spaced_of_patient sampleProvider 0
    restartAfterDelay s halong hrun⟩

/-- A start looks at the entry while the watcher is still finalizing it. -/
def startWhileFinalizing : List Label :=
  startAndExit ++ [.enter, .lock 1 false, .spawn 1, .watched 0]

/-- The successor is there when the watcher records the failure. -/
theorem startWhileFinalizing_notSpaced :
    ¬ ∀ (p : Provider) (now : ℚ) (ls : List Label) (s : State),
      run (step p) (initial now) ls = some s → RecordedOnce p s ∧ Spaced s := by
  intro hall
  have hlast : (run (step sampleProvider) (initial 0) startWhileFinalizing).map (fun s =>
      decide (Spaced s)) = some false := by
    decide +kernel
  obtain ⟨s, hrun, hspaced⟩ := Option.map_eq_some_iff.mp hlast
  exact of_decide_eq_false hspaced (hall sampleProvider 0 startWhileFinalizing s hrun).2

end MsysCore.Core.Restart
