import MsysCore.Native.SupervisorLoop

/-!
# Ordered shutdown of the native supervisor

A component has a process exactly while it is starting, ready or stopping, and a shutdown
stops one component after the other, the last one started first. The second part holds
however the handlers are nested. The first one fails where an exception leaves the report of
a refused start: `handle_spawn_failure` has cleared the pid by then and `schedule_or_fail`,
which would settle the state, is not reached.
-/

namespace MsysCore.Native

namespace Supervisor

variable {plan : RuntimePlan} {env : Environment} {s s' : Supervisor} {index : ℕ}

/-- `pid > 0` exactly when the state is starting, ready or stopping. -/
def Supervised (r : ComponentRuntime) : Prop :=
  r.pid.isSome = true ↔ r.state = .starting ∨ r.state = .ready ∨ r.state = .stopping

theorem Touch.supervised {r r' : ComponentRuntime} (htouch : Touch r r') (h : Supervised r) :
    Supervised r' := by
  unfold Supervised
  have hiff : r.pid.isSome = true ↔ _ := h
  rw [htouch.pid, hiff]
  rcases htouch.state with hsame | ⟨hpid, -, hstopping⟩
  · rw [hsame]
  · rw [← hiff]
    exact ⟨fun _ => Or.inr (Or.inr hstopping), fun _ => hpid⟩

/-- No process is new and none has another place in the order of starts. -/
structure Keeps (s s' : Supervisor) : Prop where
  pid : ∀ i, (s'.runtime i).pid.isSome = true → (s.runtime i).pid.isSome = true
  sequence : ∀ i, (s'.runtime i).startSequence = (s.runtime i).startSequence
  startSequence : s'.startSequence = s.startSequence
  shuttingDown : s'.shuttingDown = s.shuttingDown
  stopOrder : s'.stopOrder = s.stopOrder
  stoppingIndex : s'.stoppingIndex = s.stoppingIndex
  done : s'.done = s.done

theorem Touches.keeps (h : Touches s s') : Keeps s s' where
  pid i hpid := by rwa [(h.touch i).pid] at hpid
  sequence i := (h.touch i).startSequence
  startSequence := by rw [h.frame]
  shuttingDown := h.shuttingDown
  stopOrder := by rw [h.frame]
  stoppingIndex := by rw [h.frame]
  done := by rw [h.frame]

theorem update_id (s : Supervisor) (index : ℕ) : s.update index id = s := by
  simp [update]

theorem keeps_update {f : ComponentRuntime → ComponentRuntime}
    (hpid : (f (s.runtime index)).pid.isSome = true → (s.runtime index).pid.isSome = true)
    (hsequence : (f (s.runtime index)).startSequence = (s.runtime index).startSequence) :
    Keeps s (s.update index f) where
  pid i := by
    by_cases hi : i = index
    · subst hi
      rw [update_self]
      exact hpid
    · rw [update_ne hi]
      exact id
  sequence i := by
    by_cases hi : i = index
    · subst hi
      rw [update_self]
      exact hsequence
    · rw [update_ne hi]
  startSequence := rfl
  shuttingDown := rfl
  stopOrder := rfl
  stoppingIndex := rfl
  done := rfl

/-- The components with a process, each with a later start than the next. -/
theorem runningOrder_sorted
    (hdistinct : ∀ i j, (s.runtime i).pid.isSome = true → (s.runtime j).pid.isSome = true →
      (s.runtime i).startSequence = (s.runtime j).startSequence → i = j) :
    (runningOrder plan s).Pairwise fun i j =>
      (s.runtime j).startSequence < (s.runtime i).startSequence := by
  let r : ℕ → ℕ → Prop := fun i j => (s.runtime j).startSequence ≤ (s.runtime i).startSequence
  have : Std.Total r := ⟨fun i j => Nat.le_total _ _⟩
  have : IsTrans ℕ r := ⟨fun i j k hij hjk => Nat.le_trans hjk hij⟩
  let running := (List.range plan.components.length).filter fun i => (s.runtime i).pid.isSome
  have hsorted : (running.insertionSort r).Pairwise r := List.pairwise_insertionSort r running
  have hnodup : (running.insertionSort r).Nodup :=
    (List.perm_insertionSort r running).nodup_iff.mpr (List.nodup_range.filter _)
  refine (hsorted.and hnodup).imp_of_mem ?_
  rintro i j hi hj ⟨hle, hne⟩
  have hipid := (List.mem_filter.mp ((List.mem_insertionSort r).mp hi)).2
  have hjpid := (List.mem_filter.mp ((List.mem_insertionSort r).mp hj)).2
  exact Nat.lt_of_le_of_ne hle fun heq => hne (hdistinct i j hipid hjpid heq.symm)

theorem mem_runningOrder {i : ℕ} (hpid : (s.runtime i).pid.isSome = true)
    (hplan : i < plan.components.length) : i ∈ runningOrder plan s :=
  (List.mem_insertionSort _).mpr (List.mem_filter.mpr ⟨List.mem_range.mpr hplan, hpid⟩)

/-- `stop_next` before it closes a session. -/
def stopAt (s : Supervisor) (rest : List ℕ) (index : ℕ) : Supervisor :=
  { s with stopOrder := rest, stoppingIndex := some index }.update index fun r =>
    { r with state := .stopping, idleTimer := none }

@[simp] theorem stopAt_pid (s : Supervisor) (rest : List ℕ) (i : ℕ) :
    ((stopAt s rest index).runtime i).pid = (s.runtime i).pid := by
  by_cases hi : i = index <;> simp [stopAt, update, hi]

@[simp] theorem stopAt_sequence (s : Supervisor) (rest : List ℕ) (i : ℕ) :
    ((stopAt s rest index).runtime i).startSequence = (s.runtime i).startSequence := by
  by_cases hi : i = index <;> simp [stopAt, update, hi]

@[simp] theorem stopAt_startSequence (s : Supervisor) (rest : List ℕ) :
    (stopAt s rest index).startSequence = s.startSequence := rfl

@[simp] theorem stopAt_stopOrder (s : Supervisor) (rest : List ℕ) :
    (stopAt s rest index).stopOrder = rest := rfl

theorem stopNext_none {order : List ℕ}
    (h : (order.find? fun i => (s.runtime i).pid.isSome) = none) :
    stopNext plan env s order = { s with stopOrder := [], done := true } := by
  induction order with
  | nil => rfl
  | cons index rest ih =>
    rw [List.find?_cons] at h
    split at h
    · cases h
    · rename_i hpid
      have hnone : (s.runtime index).pid.isNone = true := by simpa using hpid
      rw [stopNext, if_pos hnone, ih h]

variable (plan env) in
/-- `stop_next` passes over the components that have no process any more. -/
theorem stopNext_some {order : List ℕ}
    (h : (order.find? fun i => (s.runtime i).pid.isSome) = some index) :
    ∃ passed rest, order = passed ++ index :: rest ∧
      (∀ i ∈ passed, (s.runtime i).pid.isSome = false) ∧
      stopNext plan env s order =
        applyEffects plan (stopAt s rest index) (env.unavailable index) := by
  induction order with
  | nil => cases h
  | cons first rest ih =>
    rw [List.find?_cons] at h
    split at h
    · rename_i hpid
      cases h
      refine ⟨[], rest, rfl, by simp, ?_⟩
      have hsome : ¬ (s.runtime index).pid.isNone = true := by
        simpa [Option.isSome_iff_ne_none] using hpid
      rw [stopNext, if_neg hsome]
      rfl
    · rename_i hpid
      obtain ⟨passed, rest', rfl, hpassed, hstop⟩ := ih h
      refine ⟨first :: passed, rest', rfl, ?_, ?_⟩
      · intro i hi
        rcases List.mem_cons.mp hi with rfl | hi
        · simpa using hpid
        · exact hpassed i hi
      · have hnone : (s.runtime first).pid.isNone = true := by simpa using hpid
        rw [stopNext, if_pos hnone, hstop]

end Supervisor

namespace LoopState

open Supervisor History

variable {plan : RuntimePlan} {env : Surroundings} {l : LoopState} {index : ℕ} {c : Prop}
  {but : Option ℕ}

/-- A shutdown that has been going on since its mark. -/
structure OrderedShutdown (l : LoopState) : Prop where
  noSpawn : ∀ before after, l.marks = before ++ .shutdown :: after →
    ∀ i sequence, .spawned i sequence ∉ after
  oneByOne : ∀ before i sequence between j sequence' after,
    l.marks = before ++ .sigterm i sequence :: between ++ .sigterm j sequence' :: after →
      sequence' < sequence ∧ .exited i ∈ between
  done : l.supervisor.done = true → ∀ i, (l.supervisor.runtime i).pid = none

/-! ## The invariant -/

/-- What the marks before it say about a mark. -/
def allowed (before : List Mark) : Mark → Prop
  | .spawned _ _ => .shutdown ∉ before
  | .sigterm _ sequence' => ∀ earlier i sequence between,
      before = earlier ++ .sigterm i sequence :: between →
        sequence' < sequence ∧ .exited i ∈ between
  | _ => True

/-- The process table and the marks; the component `but` is being settled. -/
structure Base (plan : RuntimePlan) (c : Prop) (but : Option ℕ) (l : LoopState) : Prop where
  supervised : c → ∀ i, but ≠ some i → Supervised (l.supervisor.runtime i)
  inPlan : ∀ i, (l.supervisor.runtime i).pid.isSome = true → i < plan.components.length
  sequences : ∀ i, (l.supervisor.runtime i).pid.isSome = true →
    (l.supervisor.runtime i).startSequence ≤ l.supervisor.startSequence
  distinct : ∀ i j, (l.supervisor.runtime i).pid.isSome = true →
    (l.supervisor.runtime j).pid.isSome = true →
    (l.supervisor.runtime i).startSequence = (l.supervisor.runtime j).startSequence → i = j
  marks : Justified allowed l.marks
  thrown : l.failures = true → l.threw = true

structure Running (l : LoopState) : Prop where
  shutdown : .shutdown ∉ l.marks
  sigterm : ∀ i sequence, .sigterm i sequence ∉ l.marks
  stoppingIndex : l.supervisor.stoppingIndex = none
  done : l.supervisor.done = false

/-- `order` is what a shutdown has still to stop. -/
structure ToStop (l : LoopState) (order : List ℕ) : Prop where
  sorted : order.Pairwise fun i j =>
    (l.supervisor.runtime j).startSequence < (l.supervisor.runtime i).startSequence
  below : ∀ i sequence, .sigterm i sequence ∈ l.marks →
    ∀ j ∈ order, (l.supervisor.runtime j).startSequence < sequence

structure Stopping (l : LoopState) : Prop where
  toStop : ToStop l l.supervisor.stopOrder
  left : ∀ i, (l.supervisor.runtime i).pid.isSome = true →
    i ∈ l.supervisor.stopOrder ∨ l.supervisor.stoppingIndex = some i
  answered : ∀ before i sequence after, l.marks = before ++ .sigterm i sequence :: after →
    l.supervisor.stoppingIndex = some i ∨ .exited i ∈ after
  done : l.threw = false → l.supervisor.done = true →
    l.supervisor.stopOrder = [] ∧ l.supervisor.stoppingIndex = none

/-- `c` says that the reports of refused starts have returned. -/
structure LoopInv (plan : RuntimePlan) (c : Prop) (but : Option ℕ) (l : LoopState) : Prop where
  base : Base plan c but l
  running : l.supervisor.shuttingDown = false → Running l
  stopping : l.supervisor.shuttingDown = true → Stopping l

theorem LoopInv.orderedShutdown (h : LoopInv plan c but l) (hthrew : l.threw = false) :
    OrderedShutdown l where
  noSpawn before after hmarks i sequence hspawned := by
    obtain ⟨middle, rest, rfl⟩ := List.append_of_mem hspawned
    have hallowed := h.base.marks (before ++ .shutdown :: middle) (.spawned i sequence) rest
      (by simpa using hmarks)
    exact hallowed (by simp)
  oneByOne before i sequence between j sequence' after hmarks :=
    h.base.marks _ (.sigterm j sequence') after hmarks before i sequence between rfl
  done hdone i := by
    cases hdown : l.supervisor.shuttingDown with
    | false =>
      rw [(h.running hdown).done] at hdone
      cases hdone
    | true =>
      have hstopping := h.stopping hdown
      obtain ⟨hempty, hnone⟩ := hstopping.done hthrew hdone
      rw [← Option.not_isSome_iff_eq_none]
      intro hpid
      rcases hstopping.left i hpid with hleft | hleft
      · rw [hempty] at hleft
        cases hleft
      · rw [hnone] at hleft
        cases hleft

theorem LoopInv.supervised (h : LoopInv plan c none l) (hc : c) (i : ℕ) :
    Supervised (l.supervisor.runtime i) :=
  h.base.supervised hc i (by simp)

theorem LoopInv.weaken {c' : Prop} (h : LoopInv plan c but l) (hc : c' → c) :
    LoopInv plan c' but l where
  base := { h.base with supervised := fun hc' => h.base.supervised (hc hc') }
  running := h.running
  stopping := h.stopping

theorem LoopInv.settle (h : LoopInv plan c (some index) l)
    (hsettled : c → Supervised (l.supervisor.runtime index)) : LoopInv plan c none l where
  base :=
    { h.base with
      supervised := by
        intro hc i _
        by_cases hi : i = index
        · subst hi
          exact hsettled hc
        · exact h.base.supervised hc i (by simpa using Ne.symm hi) }
  running := h.running
  stopping := h.stopping

/-! ## Changes that start nothing -/

theorem LoopInv.keeps {f : Supervisor → Supervisor} {but' : Option ℕ} (h : LoopInv plan c but l)
    (hf : Keeps l.supervisor (f l.supervisor))
    (hsupervised : c → ∀ i, but' ≠ some i → Supervised ((f l.supervisor).runtime i)) :
    LoopInv plan c but' (l.on f) where
  base :=
    { supervised := hsupervised
      inPlan := fun i hpid => h.base.inPlan i (hf.pid i hpid)
      sequences := by
        intro i hpid
        simp only [on, hf.sequence, hf.startSequence]
        exact h.base.sequences i (hf.pid i hpid)
      distinct := by
        intro i j hi hj heq
        simp only [on, hf.sequence] at heq
        exact h.base.distinct i j (hf.pid i hi) (hf.pid j hj) heq
      marks := h.base.marks
      thrown := h.base.thrown }
  running := by
    intro hdown
    have hrunning := h.running (hf.shuttingDown.symm.trans hdown)
    exact
      { shutdown := hrunning.shutdown
        sigterm := hrunning.sigterm
        stoppingIndex := hf.stoppingIndex.trans hrunning.stoppingIndex
        done := hf.done.trans hrunning.done }
  stopping := by
    intro hdown
    have hstopping := h.stopping (hf.shuttingDown.symm.trans hdown)
    exact
      { toStop :=
          { sorted := by simpa only [on, hf.sequence, hf.stopOrder] using hstopping.toStop.sorted
            below := by simpa only [on, hf.sequence, hf.stopOrder] using hstopping.toStop.below }
        left := by
          intro i hpid
          simp only [on, hf.stopOrder, hf.stoppingIndex]
          exact hstopping.left i (hf.pid i hpid)
        answered := by simpa only [on, hf.stoppingIndex] using hstopping.answered
        done := by simpa only [on, hf.stopOrder, hf.stoppingIndex, hf.done] using hstopping.done }

theorem LoopInv.touches {f : Supervisor → Supervisor} (h : LoopInv plan c but l)
    (hf : Touches l.supervisor (f l.supervisor)) : LoopInv plan c but (l.on f) :=
  h.keeps hf.keeps fun hc i hi => (hf.touch i).supervised (h.base.supervised hc i hi)

theorem LoopInv.effects (h : LoopInv plan c but l) (effects : List RouterEffect) :
    LoopInv plan c but (l.on fun s => applyEffects plan s effects) :=
  h.touches (applyEffects_touches plan l.supervisor effects)

/-- A component takes another state, which suits its process. -/
theorem LoopInv.update {f : ComponentRuntime → ComponentRuntime} (h : LoopInv plan c but l)
    (hbut : but = none ∨ but = some index)
    (hpid : (f (l.supervisor.runtime index)).pid.isSome = true →
      (l.supervisor.runtime index).pid.isSome = true)
    (hsequence : (f (l.supervisor.runtime index)).startSequence
      = (l.supervisor.runtime index).startSequence)
    (hsupervised : c → Supervised (f (l.supervisor.runtime index))) :
    LoopInv plan c none (l.on fun s => s.update index f) := by
  refine h.keeps (keeps_update hpid hsequence) fun hc i _ => ?_
  by_cases hi : i = index
  · subst hi
    rw [update_self]
    exact hsupervised hc
  · rw [update_ne hi]
    apply h.base.supervised hc
    rcases hbut with rfl | rfl
    · nofun
    · simpa using Ne.symm hi

/-! ## Marks -/

theorem Base.mark {m : Mark} (h : Base plan c but l) (hm : allowed l.marks m) :
    Base plan c but (l.mark m) :=
  { h with marks := h.marks.append hm }

theorem split_append {marks before after : List Mark} {m m' : Mark}
    (h : marks ++ [m] = before ++ m' :: after) :
    (m' = m ∧ after = []) ∨ ∃ after', after = after' ++ [m] ∧ marks = before ++ m' :: after' := by
  rcases List.eq_nil_or_concat after with rfl | ⟨after', last, rfl⟩
  · obtain ⟨-, hlast⟩ := List.append_inj' h rfl
    cases hlast
    exact Or.inl ⟨rfl, rfl⟩
  · have hsplit : marks ++ [m] = (before ++ m' :: after') ++ [last] := by
      rw [h]
      simp
    obtain ⟨hmarks, hlast⟩ := List.append_inj' hsplit rfl
    cases hlast
    exact Or.inr ⟨after', by simp, hmarks⟩

/-- After its exit a component has answered its SIGTERM. -/
theorem LoopInv.mark_exited (h : LoopInv plan c but l) :
    LoopInv plan c but (l.mark (.exited index)) where
  base := h.base.mark trivial
  running := by
    intro hdown
    have hrunning := h.running hdown
    exact
      { shutdown := by simpa [LoopState.mark] using hrunning.shutdown
        sigterm := by simpa [LoopState.mark] using hrunning.sigterm
        stoppingIndex := hrunning.stoppingIndex
        done := hrunning.done }
  stopping := by
    intro hdown
    have hstopping := h.stopping hdown
    exact
      { toStop :=
          { sorted := hstopping.toStop.sorted
            below := by simpa [LoopState.mark] using hstopping.toStop.below }
        left := hstopping.left
        answered := by
          intro before i sequence after hmarks
          rcases split_append hmarks with ⟨hm, -⟩ | ⟨after', rfl, hbefore⟩
          · cases hm
          · rcases hstopping.answered before i sequence after' hbefore with hindex | hexited
            · exact Or.inl hindex
            · exact Or.inr (List.mem_append_left _ hexited)
        done := hstopping.done }

/-! ## Shutdown -/

/-- Everything that has been sent SIGTERM has exited since. -/
def AllExited (l : LoopState) : Prop :=
  ∀ before i sequence after, l.marks = before ++ .sigterm i sequence :: after → .exited i ∈ after

theorem Base.stopAt (h : Base plan c but l) (rest : List ℕ)
    (hpid : (l.supervisor.runtime index).pid.isSome = true) :
    Base plan c but (l.on fun s => stopAt s rest index) where
  supervised := by
    intro hc i hi
    by_cases heq : i = index
    · subst heq
      simp [on, Supervisor.stopAt, Supervised, hpid]
    · have hsame : (Supervisor.stopAt l.supervisor rest index).runtime i = l.supervisor.runtime i :=
        update_ne heq _
      simp only [on, hsame]
      exact h.supervised hc i hi
  inPlan := by simpa [on] using h.inPlan
  sequences := by simpa [on] using h.sequences
  distinct := by simpa [on] using h.distinct
  marks := h.marks
  thrown := h.thrown

theorem stopNext_inv {order : List ℕ} (hbase : Base plan c but l)
    (hdown : l.supervisor.shuttingDown = true) (hstop : ToStop l order)
    (hleft : ∀ i, (l.supervisor.runtime i).pid.isSome = true → i ∈ order) (hexited : AllExited l)
    (hindex : l.supervisor.stoppingIndex = none)
    (hdone : l.threw = false → l.supervisor.done = false) :
    LoopInv plan c but (stopNext plan env l order) := by
  unfold stopNext
  cases hnext : order.find? fun i => (l.supervisor.runtime i).pid.isSome with
  | none =>
    have hpids : ∀ i, ¬ (l.supervisor.runtime i).pid.isSome = true := fun i hpid =>
      List.find?_eq_none.mp hnext i (hleft i hpid) hpid
    simp only [on, stopNext_none hnext]
    exact
      { base := Base.mark { hbase with } trivial
        running := fun h => absurd (hdown.symm.trans h) (by decide)
        stopping := fun _ =>
          { toStop := ⟨List.Pairwise.nil, nofun⟩
            left := fun i hpid => absurd hpid (hpids i)
            answered := by
              intro before i sequence after hmarks
              rcases split_append hmarks with ⟨hm, -⟩ | ⟨after', rfl, hbefore⟩
              · cases hm
              · exact Or.inr (List.mem_append_left _ (hexited before i sequence after' hbefore))
            done := fun _ _ => ⟨rfl, hindex⟩ } }
  | some index =>
    obtain ⟨passed, rest, rfl, hpassed, hstopped⟩ := stopNext_some plan env.closing hnext
    have hpid := @List.find?_some _ (fun i => (l.supervisor.runtime i).pid.isSome) _ _ hnext
    have hmem : index ∈ passed ++ index :: rest := by simp
    obtain ⟨-, hsorted, -⟩ := List.pairwise_append.mp hstop.sorted
    obtain ⟨hlater, hrest⟩ := List.pairwise_cons.mp hsorted
    have hallowed : allowed l.marks
        (.sigterm index (l.supervisor.runtime index).startSequence) := by
      intro earlier i sequence between hmarks
      refine ⟨hstop.below i sequence ?_ index hmem, hexited earlier i sequence between hmarks⟩
      rw [hmarks]
      simp
    have hstopAt : LoopInv plan c but ((l.on fun s => stopAt s rest index).mark
        (.sigterm index (l.supervisor.runtime index).startSequence)) :=
      { base := (hbase.stopAt rest hpid).mark hallowed
        running := fun h => absurd (hdown.symm.trans h) (by decide)
        stopping := fun _ =>
          { toStop :=
              { sorted := by simpa [on, LoopState.mark] using hrest
                below := by
                  intro i sequence hsigterm j hj
                  have hj : j ∈ rest := hj
                  simp only [LoopState.mark, on, stopAt_sequence]
                  rcases List.mem_append.mp hsigterm with hold | hnew
                  · exact hstop.below i sequence hold j (by simp [hj])
                  · cases List.mem_singleton.mp hnew
                    exact hlater j hj }
            left := by
              intro i hi
              have hi' : (l.supervisor.runtime i).pid.isSome = true := by
                simpa [LoopState.mark, on] using hi
              rcases List.mem_append.mp (hleft i hi') with hmem | hmem
              · rw [hpassed i hmem] at hi'
                cases hi'
              · rcases List.mem_cons.mp hmem with rfl | hmem
                · exact Or.inr rfl
                · exact Or.inl hmem
            answered := by
              intro before i sequence after hmarks
              rcases split_append hmarks with ⟨hm, -⟩ | ⟨after', rfl, hbefore⟩
              · cases hm
                exact Or.inl rfl
              · exact Or.inr (List.mem_append_left _ (hexited before i sequence after' hbefore))
            done := by
              intro hthrew hset
              exact absurd ((hdone hthrew).symm.trans hset) (by decide) } }
    have htouched := hstopAt.effects (env.closing.unavailable index)
    simpa only [on, LoopState.mark, hstopped] using htouched

theorem beginShutdown_inv (h : LoopInv plan c none l) (code : ℕ) :
    LoopInv plan c none (beginShutdown plan env l code) := by
  unfold beginShutdown
  split_ifs with hdown
  · apply h.keeps
    · split_ifs <;> exact ⟨fun _ => id, fun _ => rfl, rfl, rfl, rfl, rfl, rfl⟩
    · intro hc i hi
      split_ifs <;> exact h.base.supervised hc i hi
  · have hrunning := h.running (by simpa using hdown)
    have hbase : Base plan c none (l.on fun s =>
        { s with
          shuttingDown := true
          exitCode := code
          runtime := fun i => haltRuntime (s.runtime i) }) :=
      { supervised := by
          intro hc i hi
          have hbefore := h.base.supervised hc i hi
          simp only [on, haltRuntime, Supervised] at hbefore ⊢
          split_ifs with hstop
          · simp [hstop.1]
          · exact hbefore
        inPlan := h.base.inPlan
        sequences := h.base.sequences
        distinct := h.base.distinct
        marks := h.base.marks
        thrown := h.base.thrown }
    have hmarked := Base.mark (m := .shutdown) hbase trivial
    apply stopNext_inv hmarked
    · rfl
    · exact
        { sorted := runningOrder_sorted h.base.distinct
          below := by
            intro i sequence hsigterm
            exact absurd hsigterm
              (by simpa [LoopState.mark, on] using hrunning.sigterm i sequence) }
    · intro i hpid
      exact mem_runningOrder hpid (h.base.inPlan i hpid)
    · intro before i sequence after hmarks
      rcases split_append hmarks with ⟨hm, -⟩ | ⟨after', rfl, hbefore⟩
      · cases hm
      · refine absurd ?_ (hrunning.sigterm i sequence)
        have hold : l.marks = before ++ .sigterm i sequence :: after' := hbefore
        rw [hold]
        simp
    · exact hrunning.stoppingIndex
    · intro _
      exact hrunning.done

/-! ## Starts -/

/-- The state after a return has `Q`, the one that an exception leaves behind has `P`. -/
def Holds {α : Type} (P : LoopState → Prop) (Q : α → Prop) : Except LoopState α → Prop
  | .ok a => Q a
  | .error l => P l

/-- No exception leaves the report of a refused start. -/
def RefusalsReported (env : Surroundings) : Prop := ∀ i, (env.refused i).throws = false

/-- A handler keeps the invariant. Where it throws, the report of a refused start may be what
threw. -/
abbrev Kept (plan : RuntimePlan) (env : Surroundings) (c : Prop) : Outcome → Prop :=
  Holds (LoopInv plan (c ∧ RefusalsReported env) none) (LoopInv plan c none)

theorem Holds.bind {α β : Type} {P : LoopState → Prop} {Q : α → Prop} {R : β → Prop}
    {o : Except LoopState α} {f : α → Except LoopState β} (h : Holds P Q o)
    (hf : ∀ a, Q a → Holds P R (f a)) : Holds P R (o >>= f) := by
  cases o with
  | ok a => exact hf a h
  | error l => exact h

theorem supervised_idle {r : ComponentRuntime} (hpid : r.pid = none)
    (hstate : ¬ (r.state = .starting ∨ r.state = .ready ∨ r.state = .stopping)) :
    Supervised r := by
  simp [Supervised, hpid, hstate]

theorem report_inv (h : LoopInv plan c none l) (call : RouterCall) :
    Kept plan env c (report plan l call) := by
  have htouched := h.effects call.effects
  unfold report
  dsimp only
  split_ifs
  · exact htouched.weaken And.left
  · exact htouched

theorem failRunningComponent_inv (h : LoopInv plan c none l) :
    Kept plan env c (failRunningComponent plan env l index) := by
  unfold failRunningComponent
  dsimp only
  split_ifs with hguard
  · exact h
  · rw [not_or, Option.isNone_iff_eq_none, ← ne_eq, Option.ne_none_iff_isSome] at hguard
    apply report_inv
    apply h.touches
    exact touches_update (markFailed_touch hguard.1 hguard.2)

theorem scheduleOrFail_inv {failed : Bool} (h : LoopInv plan c (some index) l)
    (hpid : (l.supervisor.runtime index).pid = none) :
    LoopInv plan c none (scheduleOrFail plan env l index failed) := by
  have hstate (f : ComponentRuntime → ComponentRuntime)
      (hf : (f (l.supervisor.runtime index)).pid = none)
      (hsequence : (f (l.supervisor.runtime index)).startSequence
        = (l.supervisor.runtime index).startSequence)
      (hidle : ¬ ((f (l.supervisor.runtime index)).state = .starting ∨
        (f (l.supervisor.runtime index)).state = .ready ∨
        (f (l.supervisor.runtime index)).state = .stopping)) :
      LoopInv plan c none (l.on fun s => s.update index f) := by
    apply h.update (Or.inr rfl) _ hsequence fun _ => supervised_idle hf hidle
    rw [hf]
    nofun
  have hcounted := hstate (countRestart (componentPlan plan index)) hpid rfl
    (by simp [countRestart])
  have hended := hstate (fun r => { r with state := if failed then .failed else .stopped }) hpid rfl
    (by cases failed <;> simp)
  unfold scheduleOrFail
  dsimp only
  by_cases hrestart : mayRestart (componentPlan plan index) (l.supervisor.runtime index) failed
  · rw [if_pos hrestart]
    split_ifs
    · apply hcounted.update (Or.inl rfl) id rfl
      intro _
      apply supervised_idle <;> simp [on, countRestart, hpid]
    · apply beginShutdown_inv
      apply hcounted.update (Or.inl rfl) id rfl
      intro _
      apply supervised_idle <;> simp [on, countRestart, hpid]
  · rw [if_neg hrestart]
    by_cases hcritical : (componentPlan plan index).critical
    · rw [if_pos hcritical]
      exact beginShutdown_inv hended _
    · rw [if_neg hcritical]
      exact hended

/-- A start that could not be made: only a returning report reaches `schedule_or_fail`. -/
theorem handleSpawnFailure_inv (h : LoopInv plan c (some index) l) :
    Kept plan env c (handleSpawnFailure plan env l index) := by
  unfold handleSpawnFailure
  dsimp only
  have hcleared : LoopInv plan c (some index) (l.on fun s => s.update index fun r =>
      { r with pid := none, readinessFailed := true, idleTimer := none }) := by
    apply h.keeps
    · exact keeps_update nofun rfl
    · intro hc i hi
      have hne : i ≠ index := fun heq => hi (by rw [heq])
      simp only [update_ne hne]
      exact h.base.supervised hc i hi
  unfold report
  dsimp only
  have htouches := applyEffects_touches plan (l.supervisor.update index fun r =>
    { r with pid := none, readinessFailed := true, idleTimer := none }) (env.refused index).effects
  have hreported := hcleared.effects (env.refused index).effects
  split_ifs with hthrows
  · apply (hreported.weaken And.left).settle
    rintro ⟨-, hrefused⟩
    rw [hrefused index] at hthrows
    cases hthrows
  · apply scheduleOrFail_inv hreported
    have hpid := (htouches.touch index).pid
    rw [update_self] at hpid
    exact hpid

/-- The next start of a component, before its process is settled. -/
theorem LoopInv.started {f : ComponentRuntime → ComponentRuntime} (h : LoopInv plan c none l)
    (hdown : l.supervisor.shuttingDown = false) (hindex : index < plan.components.length)
    (hf : ∀ r, (f r).startSequence = r.startSequence) :
    LoopInv plan c (some index) (l.on fun s => (markStarting s index).update index f) := by
  have hother : ∀ i, i ≠ index →
      ((markStarting l.supervisor index).update index f).runtime i = l.supervisor.runtime i := by
    intro i hi
    rw [update_ne hi, markStarting, update_ne hi]
  have hself : (((markStarting l.supervisor index).update index f).runtime index).startSequence
      = l.supervisor.startSequence + 1 := by
    rw [update_self, hf, markStarting, update_self]
  have hle : ∀ i, i ≠ index → (l.supervisor.runtime i).pid.isSome = true →
      (l.supervisor.runtime i).startSequence < l.supervisor.startSequence + 1 :=
    fun i _ hpid => Nat.lt_succ_of_le (h.base.sequences i hpid)
  exact
    { base :=
        { supervised := by
            intro hc i hi
            have hne : i ≠ index := fun heq => hi (by rw [heq])
            simp only [on, hother i hne]
            exact h.supervised hc i
          inPlan := by
            intro i hpid
            by_cases hi : i = index
            · rw [hi]
              exact hindex
            · simp only [on, hother i hi] at hpid
              exact h.base.inPlan i hpid
          sequences := by
            intro i hpid
            by_cases hi : i = index
            · subst hi
              simp only [on, hself]
              exact Nat.le_refl _
            · simp only [on, hother i hi] at hpid ⊢
              exact Nat.le_of_lt (hle i hi hpid)
          distinct := by
            intro i j hi hj heq
            by_cases hieq : i = index <;> by_cases hjeq : j = index
            · rw [hieq, hjeq]
            · subst hieq
              simp only [on, hself, hother j hjeq] at hj heq
              have hlt := hle j hjeq hj
              omega
            · subst hjeq
              simp only [on, hself, hother i hieq] at hi heq
              have hlt := hle i hieq hi
              omega
            · simp only [on, hother i hieq, hother j hjeq] at hi hj heq
              exact h.base.distinct i j hi hj heq
          marks := h.base.marks
          thrown := h.base.thrown }
      running := by
        intro _
        have hrunning := h.running hdown
        exact ⟨hrunning.shutdown, hrunning.sigterm, hrunning.stoppingIndex, hrunning.done⟩
      stopping := fun hstop => absurd (hdown.symm.trans hstop) (by decide) }

theorem LoopInv.mark_spawned (h : LoopInv plan c but l) (hdown : l.supervisor.shuttingDown = false)
    (sequence : ℕ) : LoopInv plan c but (l.mark (.spawned index sequence)) := by
  have hrunning := h.running hdown
  exact
    { base := h.base.mark hrunning.shutdown
      running := fun _ =>
        { shutdown := by simpa [LoopState.mark] using hrunning.shutdown
          sigterm := by simpa [LoopState.mark] using hrunning.sigterm
          stoppingIndex := hrunning.stoppingIndex
          done := hrunning.done }
      stopping := fun hstop => absurd (hdown.symm.trans hstop) (by decide) }

section Again

variable {again : LoopState → Outcome}

theorem markReady_inv {generation : ℕ}
    (hagain : ∀ l, LoopInv plan c none l → Kept plan env c (again l)) (h : LoopInv plan c none l) :
    Kept plan env c (markReady plan env again l index generation) := by
  unfold markReady
  dsimp only
  split_ifs with hguard
  · exact h
  · rw [not_or, not_not, not_not] at hguard
    have hready : LoopInv plan c none
        (l.on fun s => s.update index fun r => { r with state := .ready }) := by
      apply h.update (Or.inl rfl) id rfl
      intro hc
      have hbefore := h.supervised hc index
      simp only [Supervised, hguard.2] at hbefore ⊢
      simpa using hbefore
    apply (report_inv hready _).bind
    intro l' hl'
    exact hagain _ (hl'.touches (armIdleTimeout_touches _ _))

theorem spawnComponent_inv (hagain : ∀ l, LoopInv plan c none l → Kept plan env c (again l))
    (hindex : index < plan.components.length) (h : LoopInv plan c none l) :
    Kept plan env c (spawnComponent plan env again l index) := by
  unfold spawnComponent
  dsimp only
  by_cases hdown : l.supervisor.shuttingDown
  · rw [if_pos hdown]
    exact h
  · have hrunning : l.supervisor.shuttingDown = false := by simpa using hdown
    rw [if_neg hdown]
    split
    · apply handleSpawnFailure_inv
      have hstarted := h.started (f := id) hrunning hindex fun _ => rfl
      simpa only [update_id] using hstarted
    · rename_i pid watched _
      have hstarted := h.started (f := fun r => { r with pid := some pid }) hrunning hindex
        fun _ => rfl
      have hsettled := hstarted.settle (by
        intro _
        simp [on, Supervised, markStarting])
      have hspawned := @LoopInv.mark_spawned _ _ index _ _ hsettled hrunning
        (markStarting l.supervisor index).startSequence
      split_ifs
      · exact markReady_inv hagain hspawned
      · exact hspawned
      · exact failRunningComponent_inv hspawned

theorem startRound_inv (hagain : ∀ l, LoopInv plan c none l → Kept plan env c (again l))
    (order : List ℕ) (horder : ∀ i ∈ order, i < plan.components.length) :
    ∀ (l : LoopState) (changed : Bool), LoopInv plan c none l →
      Holds (LoopInv plan (c ∧ RefusalsReported env) none)
        (fun result => LoopInv plan c none result.1)
        (startRound plan env again order l changed) := by
  induction order with
  | nil => exact fun _ _ h => h
  | cons index rest ih =>
    intro l changed h
    have hrest := ih fun i hi => horder i (List.mem_cons_of_mem index hi)
    unfold startRound
    split_ifs
    · have hspawned := spawnComponent_inv hagain (horder index List.mem_cons_self) h
      apply hspawned.bind
      intro l' hl'
      split_ifs
      · exact hl'
      · exact hrest l' true hl'
    · exact hrest l changed h

end Again

/-- By induction on the depth of the nested calls. -/
theorem startEligibleFuel_inv (fuel : ℕ) :
    ∀ l, LoopInv plan c none l → Kept plan env c (startEligibleFuel plan env fuel l) := by
  induction fuel with
  | zero => exact fun _ h => h
  | succ fuel ih =>
    intro l h
    unfold startEligibleFuel
    split_ifs
    · exact h
    · have hround := startRound_inv ih (List.range plan.components.length)
        (fun i hi => List.mem_range.mp hi) l false h
      apply hround.bind
      intro result hresult
      obtain ⟨l', changed⟩ := result
      dsimp only
      split_ifs
      · exact ih l' hresult
      · exact hresult

theorem startEligible_inv (h : LoopInv plan c none l) :
    Kept plan env c (startEligible plan env l) :=
  startEligibleFuel_inv _ l h

/-- A component that is to start has no process. -/
theorem requestStart_inv (h : LoopInv plan c none l)
    (hidle : ¬ ((l.supervisor.runtime index).state = .starting ∨
      (l.supervisor.runtime index).state = .ready ∨
      (l.supervisor.runtime index).state = .stopping)) :
    Kept plan env c (requestStart plan env l index) := by
  apply startEligible_inv
  apply h.update (Or.inl rfl) id rfl
  intro hc
  have hbefore := h.supervised hc index
  simp only [Supervised, hidle] at hbefore ⊢
  simpa using hbefore

theorem brokerStartComponent_inv {component : Bytes} (h : LoopInv plan c none l) :
    Kept plan env c (brokerStartComponent plan env l component) := by
  unfold brokerStartComponent
  cases componentIndex plan component with
  | none => exact h
  | some index =>
    dsimp only
    by_cases hdown : l.supervisor.shuttingDown
    · rw [if_pos hdown]
      exact h
    · rw [if_neg hdown]
      have hrecorded : LoopInv plan c none (l.on fun s => recordStart s index) :=
        h.keeps ⟨fun _ => id, fun _ => rfl, rfl, rfl, rfl, rfl, rfl⟩ h.base.supervised
      have hstarted : Kept plan env c
          (if (l.supervisor.runtime index).state = .stopped ∨
              (l.supervisor.runtime index).state = .failed then
            requestStart plan env (l.on fun s => recordStart s index) index
          else if (l.supervisor.runtime index).state = .waiting then
            startEligible plan env (l.on fun s => recordStart s index)
          else .ok (l.on fun s => recordStart s index)) := by
        split_ifs with hrest
        · apply requestStart_inv hrecorded
          simp only [on, recordStart, commanded, setStartPending]
          rcases hrest with hrest | hrest <;> simp [hrest]
        · exact startEligible_inv hrecorded
        · exact hrecorded
      apply hstarted.bind
      intro l' hl'
      split_ifs
      · exact hl'.touches (armIdleTimeout_touches _ _)
      · exact hl'

theorem routerActivateComponent_inv (h : LoopInv plan c none l) :
    Kept plan env c (routerActivateComponent plan env l index) := by
  have hcommanded : LoopInv plan c none (l.on fun s => commanded s index .activation) :=
    h.keeps ⟨fun _ => id, fun _ => rfl, rfl, rfl, rfl, rfl, rfl⟩ h.base.supervised
  have hrequested (hrest : (l.supervisor.runtime index).state = .stopped ∨
      (l.supervisor.runtime index).state = .failed) :
      Kept plan env c
        (requestStart plan env (l.on fun s => commanded s index .activation) index) := by
    apply requestStart_inv hcommanded
    simp only [on, commanded]
    rcases hrest with hrest | hrest <;> simp [hrest]
  unfold routerActivateComponent
  by_cases hguard : plan.components.length ≤ index ∨ l.supervisor.shuttingDown
  · rw [if_pos hguard]
    exact h
  · rw [if_neg hguard]
    cases hstate : (l.supervisor.runtime index).state with
    | ready => exact hcommanded
    | starting => exact hcommanded
    | waiting => exact hcommanded
    | backoff => exact hcommanded
    | stopping => exact h
    | stopped => exact hrequested (Or.inl hstate)
    | failed => exact hrequested (Or.inr hstate)

theorem markReady_startEligible_inv {generation : ℕ} (h : LoopInv plan c none l) :
    Kept plan env c (markReady plan env (startEligible plan env) l index generation) :=
  markReady_inv (fun _ => startEligible_inv) h

theorem readinessEvent_inv {generation : ℕ} {ready : Bool} (h : LoopInv plan c none l) :
    Kept plan env c (readinessEvent plan env l index generation ready) := by
  unfold readinessEvent
  dsimp only
  split_ifs
  · exact h
  · exact markReady_startEligible_inv h
  · exact failRunningComponent_inv h

theorem brokerComponentReady_inv {component : Bytes} {generation : ℕ}
    (h : LoopInv plan c none l) :
    Kept plan env c (brokerComponentReady plan env l component generation) := by
  unfold brokerComponentReady
  cases componentIndex plan component with
  | none => exact h
  | some index =>
    dsimp only
    split_ifs
    · exact h
    · exact markReady_startEligible_inv h

theorem restartTimerEvent_inv {generation : ℕ} (h : LoopInv plan c none l) :
    Kept plan env c (restartTimerEvent plan env l index generation) := by
  unfold restartTimerEvent
  dsimp only
  by_cases hguard : (l.supervisor.runtime index).generation ≠ generation ∨
      (l.supervisor.runtime index).state ≠ .backoff ∨ l.supervisor.shuttingDown
  · rw [if_pos hguard]
    exact h
  · rw [if_neg hguard]
    simp only [not_or, not_not] at hguard
    apply startEligible_inv
    apply h.update (Or.inl rfl) id rfl
    intro hc
    have hbefore := h.supervised hc index
    simp only [Supervised, hguard.2.1] at hbefore ⊢
    simpa using hbefore

theorem brokerComponentDisconnected_inv {component : Bytes} {generation : ℕ}
    (h : LoopInv plan c none l) :
    Kept plan env c (brokerComponentDisconnected plan env l component generation) := by
  unfold brokerComponentDisconnected
  cases componentIndex plan component with
  | none => exact h
  | some index =>
    dsimp only
    split_ifs
    · exact failRunningComponent_inv h
    · exact h

/-! ## Stops and exits -/

theorem stopIndex_inv (h : LoopInv plan c none l) :
    LoopInv plan c none (l.on fun s => stopIndex plan env.closing s index) := by
  have hrequested : LoopInv plan c none (l.on fun s => stopRequested s index) := by
    have hrecorded : LoopInv plan c none (l.on fun s => recordStop s index) :=
      h.keeps ⟨fun _ => id, fun _ => rfl, rfl, rfl, rfl, rfl, rfl⟩ h.base.supervised
    apply hrecorded.update (Or.inl rfl) id rfl
    exact fun hc => h.supervised hc index
  simp only [stopIndex_eq]
  by_cases hpid : (l.supervisor.runtime index).pid.isNone
  · simp only [on, if_pos hpid]
    apply hrequested.update (Or.inl rfl) id rfl
    intro _
    apply supervised_idle <;> simp_all [on]
  · by_cases hstate : (l.supervisor.runtime index).state = .stopping
    · simp only [on, if_neg hpid, if_pos hstate]
      exact hrequested
    · simp only [on, if_neg hpid, if_neg hstate]
      rw [Option.isNone_iff_eq_none, ← ne_eq, Option.ne_none_iff_isSome] at hpid
      have hstopping : LoopInv plan c none (l.on fun s =>
          (stopRequested s index).update index fun r => { r with state := .stopping }) := by
        apply hrequested.update (Or.inl rfl) id rfl
        intro _
        simp [on, Supervised, hpid]
      exact hstopping.effects _

theorem idleTimerEvent_inv {generation : ℕ} (h : LoopInv plan c none l) :
    LoopInv plan c none (l.on fun s => idleTimerEvent plan env.closing s index generation) := by
  have hcleared : LoopInv plan c none
      (l.on fun s => s.update index fun r => { r with idleTimer := none }) := by
    apply h.touches
    apply touches_update
    exact ⟨rfl, rfl, rfl, rfl, rfl, rfl, rfl, Or.inl rfl⟩
  have hcases : idleTimerEvent plan env.closing l.supervisor index generation =
        stopIndex plan env.closing
          (l.supervisor.update index fun r => { r with idleTimer := none }) index ∨
      idleTimerEvent plan env.closing l.supervisor index generation =
        l.supervisor.update index fun r => { r with idleTimer := none } := by
    unfold idleTimerEvent
    dsimp only
    split_ifs
    · exact Or.inl rfl
    · exact Or.inr rfl
  rcases hcases with heq | heq
  · simp only [on, heq]
    exact stopIndex_inv hcleared
  · simp only [on, heq]
    exact hcleared

/-- The mark of its exit is after every SIGTERM of a component. -/
theorem exited_after {before after : List Mark} {i sequence : ℕ}
    (hmarks : (l.mark (.exited index)).marks = before ++ .sigterm i sequence :: after) :
    .exited index ∈ after := by
  rcases split_append hmarks with ⟨hm, -⟩ | ⟨after', rfl, -⟩
  · cases hm
  · simp

/-- The state of `on_child_exit` once the process is gone. -/
theorem LoopInv.exit (h : LoopInv plan c none l) :
    LoopInv plan c (some index)
      ((l.on fun s => (s.setStartPending index false).update index fun r =>
        { r with pid := none, inflightCalls := 0 }).mark (.exited index)) := by
  have hpending : LoopInv plan c none (l.on fun s => s.setStartPending index false) :=
    h.keeps ⟨fun _ => id, fun _ => rfl, rfl, rfl, rfl, rfl, rfl⟩ h.base.supervised
  have hgone : LoopInv plan c (some index) ((l.on fun s => s.setStartPending index false).on
      fun s => s.update index fun r => { r with pid := none, inflightCalls := 0 }) := by
    apply hpending.keeps
    · exact keeps_update nofun rfl
    · intro hc i hi
      have hne : i ≠ index := fun heq => hi (by rw [heq])
      simp only [update_ne hne]
      exact h.supervised hc i
  exact hgone.mark_exited

/-- The exit of the component that `stop_next` waits for. -/
theorem stopNext_exited_inv (h : LoopInv plan c none l)
    (hdown : l.supervisor.shuttingDown = true) (hindex : l.supervisor.stoppingIndex = some index)
    (hpid : (l.supervisor.runtime index).pid = none)
    (hexited : ∀ before i sequence after, l.marks = before ++ .sigterm i sequence :: after →
      .exited index ∈ after) :
    LoopInv plan c none (stopNext plan env (l.on fun s => { s with stoppingIndex := none })
      l.supervisor.stopOrder) := by
  have hstopping := h.stopping hdown
  apply stopNext_inv
  · exact { h.base with }
  · exact hdown
  · exact ⟨hstopping.toStop.sorted, hstopping.toStop.below⟩
  · intro i hi
    rcases hstopping.left i hi with hleft | hleft
    · exact hleft
    · rw [hindex] at hleft
      cases hleft
      have hi : (l.supervisor.runtime index).pid.isSome = true := hi
      rw [hpid] at hi
      cases hi
  · intro before i sequence after hmarks
    rcases hstopping.answered before i sequence after hmarks with hanswered | hanswered
    · rw [hindex] at hanswered
      cases hanswered
      exact hexited before index sequence after hmarks
    · exact hanswered
  · rfl
  · intro hthrew
    cases hdone : l.supervisor.done with
    | false => exact hdone
    | true =>
      have hnone := (hstopping.done hthrew hdone).2
      rw [hindex] at hnone
      cases hnone

theorem onChildExit_inv {generation pid : ℕ} {failed : Bool} (h : LoopInv plan c none l) :
    Kept plan env c (onChildExit plan env l index generation pid failed) := by
  unfold onChildExit
  dsimp only
  by_cases hguard : (l.supervisor.runtime index).generation ≠ generation ∨
      (l.supervisor.runtime index).pid ≠ some pid
  · rw [if_pos hguard]
    exact h
  · rw [if_neg hguard]
    have hcleared : LoopInv plan c none
        (l.on fun s => s.update index fun r => { r with idleTimer := none }) := by
      apply h.touches
      apply touches_update
      exact ⟨rfl, rfl, rfl, rfl, rfl, rfl, rfl, Or.inl rfl⟩
    apply (report_inv hcleared _).bind
    intro t ht
    let gone := (t.on fun s => (s.setStartPending index false).update index fun r =>
      { r with pid := none, inflightCalls := 0 }).mark (.exited index)
    have hexit : LoopInv plan c (some index) gone := ht.exit
    have hpid : (gone.supervisor.runtime index).pid = none := by
      simp [gone, LoopState.mark, on]
    have hmarks : ∀ before i sequence after,
        gone.marks = before ++ .sigterm i sequence :: after → .exited index ∈ after :=
      fun _ _ _ _ heq => exited_after heq
    have hstopped : LoopInv plan c none
        (gone.on fun s => s.update index fun r => { r with state := .stopped }) := by
      apply hexit.update (Or.inr rfl) id rfl
      exact fun _ => supervised_idle hpid (by simp)
    split_ifs with hdown hstopping hmanual
    · have hself : ((gone.on fun s => s.update index fun r =>
          { r with state := .stopped }).supervisor.runtime index).pid = none := by
        simpa [on] using hpid
      exact stopNext_exited_inv hstopped hdown hstopping hself hmarks
    · exact hstopped
    · apply hexit.update (Or.inr rfl) id rfl
      exact fun _ => supervised_idle hpid (by simp)
    · have hreset : LoopInv plan c (some index)
          (gone.on fun s => s.update index fun r => { r with readinessFailed := false }) := by
        apply hexit.keeps
        · exact keeps_update id rfl
        · intro hc i hi
          have hne : i ≠ index := fun heq => hi (by rw [heq])
          simp only [update_ne hne]
          exact hexit.base.supervised hc i hi
      have hself : ((gone.on fun s => s.update index fun r =>
          { r with readinessFailed := false }).supervisor.runtime index).pid = none := by
        simpa [on] using hpid
      exact scheduleOrFail_inv hreset hself

/-! ## Runs -/

section Refusals

variable (hrefused : c → RefusalsReported env)
include hrefused

theorem caught_inv {o : Outcome} (h : Kept plan env c o) : LoopInv plan c none (caught o) := by
  cases o with
  | ok l => exact h
  | error l => exact LoopInv.weaken h fun hc => ⟨hc, hrefused hc⟩

/-- The supervisor goes on where a callback has thrown; only the end of a shutdown asks that
none has. -/
theorem recorded_inv {o : Outcome} (h : Kept plan env c o) : LoopInv plan c none (recorded o) := by
  cases o with
  | ok l => exact h
  | error l =>
    have hl : LoopInv plan c none l := LoopInv.weaken h fun hc => ⟨hc, hrefused hc⟩
    exact
      { base := { hl.base with thrown := fun _ => rfl }
        running := fun hdown =>
          { shutdown := (hl.running hdown).shutdown
            sigterm := (hl.running hdown).sigterm
            stoppingIndex := (hl.running hdown).stoppingIndex
            done := (hl.running hdown).done }
        stopping := fun hdown =>
          { toStop := ⟨(hl.stopping hdown).toStop.sorted, (hl.stopping hdown).toStop.below⟩
            left := (hl.stopping hdown).left
            answered := (hl.stopping hdown).answered
            done := nofun } }

end Refusals

/-- Each refused start of the turn is reported without an exception. -/
def Turn.Reported : Turn → Prop
  | .callback label => RefusalsReported label.env
  | .failures _ => True

theorem callback_inv {label : Label} {o : Outcome}
    (hrefused : c → RefusalsReported label.env) (h : LoopInv plan c none l)
    (hcallback : callback plan l label = some o) : Kept plan label.env c o := by
  unfold callback at hcallback
  dsimp only at hcallback
  cases hevent : label.event with
  | start component =>
    rw [hevent] at hcallback
    cases hcallback
    exact report_inv (caught_inv hrefused (brokerStartComponent_inv h)) _
  | stop component =>
    rw [hevent] at hcallback
    cases hcallback
    apply report_inv
    unfold brokerStopComponent
    cases componentIndex plan component with
    | none => exact h
    | some index => exact stopIndex_inv h
  | activate index =>
    rw [hevent] at hcallback
    cases hcallback
    exact report_inv (caught_inv hrefused (routerActivateComponent_inv h)) _
  | readiness index generation ready =>
    rw [hevent] at hcallback
    cases hcallback
    exact readinessEvent_inv h
  | channelReady component generation =>
    rw [hevent] at hcallback
    cases hcallback
    exact brokerComponentReady_inv h
  | channelLost component generation =>
    rw [hevent] at hcallback
    cases hcallback
    exact brokerComponentDisconnected_inv h
  | idleTimer index =>
    rw [hevent] at hcallback
    obtain ⟨generation, -, rfl⟩ := Option.map_eq_some_iff.mp hcallback
    exact idleTimerEvent_inv h
  | restartTimer index =>
    rw [hevent] at hcallback
    obtain ⟨generation, -, rfl⟩ := Option.map_eq_some_iff.mp hcallback
    exact restartTimerEvent_inv h
  | childExit index generation pid failed =>
    rw [hevent] at hcallback
    cases hcallback
    exact onChildExit_inv h
  | router effects =>
    rw [hevent] at hcallback
    cases hcallback
    exact report_inv (h.effects effects) _
  | shutdown code =>
    rw [hevent] at hcallback
    cases hcallback
    exact beginShutdown_inv h code

theorem step_inv {l' : LoopState} {turn : Turn} (hrefused : c → turn.Reported)
    (h : LoopInv plan c none l) (hstep : step plan l turn = some l') : LoopInv plan c none l' := by
  cases turn with
  | callback label =>
    obtain ⟨o, hcallback, rfl⟩ := Option.map_eq_some_iff.mp hstep
    exact recorded_inv hrefused (callback_inv hrefused h hcallback)
  | failures env =>
    have hrest : LoopInv plan c none { l with failures := false } :=
      { base := { h.base with thrown := nofun }
        running := fun hdown =>
          ⟨(h.running hdown).shutdown, (h.running hdown).sigterm, (h.running hdown).stoppingIndex,
            (h.running hdown).done⟩
        stopping := fun hdown =>
          { toStop := ⟨(h.stopping hdown).toStop.sorted, (h.stopping hdown).toStop.below⟩
            left := (h.stopping hdown).left
            answered := (h.stopping hdown).answered
            done := (h.stopping hdown).done } }
    unfold step at hstep
    dsimp only at hstep
    split_ifs at hstep with hfailures hdown
    · cases hstep
      have hstopping := h.stopping hdown
      exact
        { base := { hrest.base with }
          running := fun hrunning => absurd (hdown.symm.trans hrunning) (by decide)
          stopping := fun _ =>
            { toStop := ⟨hstopping.toStop.sorted, hstopping.toStop.below⟩
              left := hstopping.left
              answered := hstopping.answered
              done := fun hthrew =>
                absurd ((h.base.thrown hfailures).symm.trans hthrew) (by decide) } }
    · cases hstep
      exact beginShutdown_inv hrest _

/-- An exception at the start ends `run` before its loop. -/
theorem initial_inv {catalog : NativeCatalog} {start : LoopState}
    (hinitial : initial plan env catalog = .ok start) : LoopInv plan c none start := by
  let s : Supervisor :=
    { runtime := fun i =>
        { state :=
            if i < plan.components.length ∧ shouldEagerStart plan catalog i then .waiting
            else .stopped } }
  have hempty : LoopInv plan c none ⟨s, false, false, []⟩ :=
    { base :=
        { supervised := by
            intro _ i _
            apply supervised_idle rfl
            simp only [s]
            split_ifs <;> simp
          inPlan := nofun
          sequences := nofun
          distinct := nofun
          marks := justified_nil
          thrown := nofun }
      running := fun _ => ⟨by simp, by simp, rfl, rfl⟩
      stopping := nofun }
  have hkept : Kept plan env c (initial plan env catalog) := startEligible_inv hempty
  rw [hinitial] at hkept
  exact hkept

open Runs in
/-- Between any two callbacks of a run in which the report of every refused start returns, the
processes are those of the components that are starting, ready or stopping. Without an exception
in a callback, a shutdown is ordered. -/
theorem run_orderedShutdown (plan : RuntimePlan) (catalog : NativeCatalog) (env : Surroundings)
    (turns : List Turn) (start l : LoopState) (hinitial : initial plan env catalog = .ok start)
    (hrun : run (step plan) start turns = some l) :
    ((∀ turn ∈ turns, turn.Reported) → ∀ i, Supervised (l.supervisor.runtime i)) ∧
      (l.threw = false → OrderedShutdown l) := by
  have halong : Along (step plan) (fun _ turn => turn ∈ turns) start turns :=
    along_of_forall turns (fun turn hmem _ => hmem) start
  have hinv : LoopInv plan (∀ turn ∈ turns, turn.Reported) none l := by
    apply run_invariant _ turns (initial_inv hinitial) halong hrun
    intro t turn t' ht hmem hstep
    exact step_inv (fun hreported => hreported turn hmem) ht hstep
  exact ⟨fun hreported i => hinv.supervised hreported i, hinv.orderedShutdown⟩

/-- A display server and a shell, started in this order. -/
def sessionPlan : RuntimePlan where
  components :=
    [{ id := ascii "display" }, { id := ascii "shell", lifecycle := .onDemand }]
  startup := [ascii "display", ascii "shell"]

/-- The display exits on its own while the shell is being stopped. -/
theorem run_orderedShutdown_display :
    let env := Surroundings.of calmEnvironment
    let turns : List Turn :=
      [.callback { event := .shutdown 0, env }, .callback { event := .childExit 0 1 101 true, env },
        .callback { event := .childExit 1 1 102 false, env }]
    ∃ catalog start l, NativeCatalog.build sessionPlan = .ok catalog ∧
      initial sessionPlan env catalog = .ok start ∧
      Runs.run (step sessionPlan) start turns = some l ∧
      l.marks = [.spawned 0 1, .spawned 1 2, .shutdown, .sigterm 1 2, .exited 0, .exited 1, .done] ∧
      (∀ i, Supervised (l.supervisor.runtime i)) ∧ OrderedShutdown l := by
  intro env turns
  let catalog := NativeCatalog.ofTables sessionPlan {}
  obtain ⟨start, hinitial⟩ : ∃ start, initial sessionPlan env catalog = .ok start := ⟨_, rfl⟩
  obtain ⟨l, hrun, hmarks, hthrew⟩ : ∃ l, Runs.run (step sessionPlan) start turns = some l ∧
      l.marks = [.spawned 0 1, .spawned 1 2, .shutdown, .sigterm 1 2, .exited 0, .exited 1,
        .done] ∧ l.threw = false := by
    cases hinitial
    exact ⟨_, rfl, rfl, rfl⟩
  obtain ⟨hsupervised, hordered⟩ :=
    run_orderedShutdown sessionPlan catalog env turns start l hinitial hrun
  refine ⟨catalog, start, l, rfl, hinitial, hrun, hmarks, hsupervised ?_, hordered hthrew⟩
  intro turn hmem
  simp only [turns, List.mem_cons, List.not_mem_nil, or_false] at hmem
  rcases hmem with rfl | rfl | rfl <;> exact fun _ => rfl

/-- A client activates a component that can not be spawned, and the reply that says so throws.
`handle_call` catches the exception, and the component is starting without a process. -/
theorem refusedReport_unsupervised :
    let plan : RuntimePlan := { components := [{ id := ascii "editor", lifecycle := .onDemand }] }
    let env : Surroundings :=
      { Surroundings.of calmEnvironment with
        spawn := fun _ => .refused
        refused := fun _ => { throws := true } }
    ∃ catalog start l, NativeCatalog.build plan = .ok catalog ∧
      initial plan env catalog = .ok start ∧
      Runs.run (step plan) start [.callback { event := .activate 0, env }] = some l ∧
      l.threw = false ∧ (l.supervisor.runtime 0).state = .starting ∧
      ¬ Supervised (l.supervisor.runtime 0) := by
  refine ⟨_, _, _, rfl, rfl, rfl, rfl, rfl, ?_⟩
  intro hsupervised
  exact Bool.false_ne_true (hsupervised.mpr (Or.inl rfl))

end LoopState

end MsysCore.Native
