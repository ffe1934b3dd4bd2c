import MsysCore.Native.InflightCalls
import MsysCore.Native.RouterMoves

/-!
# The calls in flight are counted

An entry that is delivered was delivered to the current process of its provider, and the
counter of a component is the number of its delivered entries. A step of the router keeps
this: what it erases it takes back, and what it delivers it counts.

The counter is set back by `on_child_exit`, which must have left no delivered entry of its
component by then. Its own `component_unavailable` sees to that unless a reply that closes
the session of its caller moves entries below the position of the loop.
-/

namespace MsysCore.Native.RoutedSupervisor

open Supervisor
open Router (PendingCall)

variable {plan : RuntimePlan} {catalog : Router.Catalog}

/-! ## Counting entries -/

/-- The delivered entries of a provider. -/
def deliveredTo (pending : List PendingCall) (index : ℕ) : ℕ :=
  pending.countP fun p => p.provider = index ∧ p.delivered

theorem deliveredTo_cons (p : PendingCall) (pending : List PendingCall) (index : ℕ) :
    deliveredTo (p :: pending) index =
      deliveredTo pending index + if p.provider = index ∧ p.delivered then 1 else 0 := by
  unfold deliveredTo
  rw [List.countP_cons]
  simp only [decide_eq_true_eq]

theorem deliveredTo_append_undelivered {extra : List PendingCall}
    (h : ∀ p ∈ extra, p.delivered = false) (pending : List PendingCall) (index : ℕ) :
    deliveredTo (pending ++ extra) index = deliveredTo pending index := by
  have hnone : deliveredTo extra index = 0 := by
    apply List.countP_eq_zero.mpr
    intro p hp
    simp [h p hp]
  unfold deliveredTo at hnone ⊢
  rw [List.countP_append, hnone, Nat.add_zero]

theorem erased_append_undelivered {extra : List PendingCall}
    (h : ∀ p ∈ extra, p.delivered = false) (pending after : List PendingCall) :
    erased (pending ++ extra) after = erased pending after := by
  have hnone : (extra.filter fun p =>
      p.delivered && !(after.map PendingCall.forwardedId).contains p.forwardedId) = [] := by
    apply List.filter_eq_nil_iff.mpr
    intro p hp
    simp [h p hp]
  unfold erased
  rw [List.filter_append, hnone, List.append_nil]

theorem erased_cons_gone {before after : List PendingCall} {p : PendingCall}
    (h : p.forwardedId ∉ after.map PendingCall.forwardedId) :
    erased (p :: before) after =
      (if p.delivered then [.idle p.provider] else []) ++ erased before after := by
  have hcontains : (after.map PendingCall.forwardedId).contains p.forwardedId = false := by
    rw [List.contains_eq_mem, decide_eq_false h]
  unfold erased
  simp only [List.filter_cons, hcontains, Bool.not_false, Bool.and_true]
  cases p.delivered <;> rfl

theorem erased_cons_kept {before after : List PendingCall} {p : PendingCall}
    (h : p.forwardedId ∉ before.map PendingCall.forwardedId) :
    erased (p :: before) (p :: after) = erased before after := by
  have hother : ∀ q ∈ before, q.forwardedId ≠ p.forwardedId := by
    intro q hq heq
    exact h (heq ▸ List.mem_map_of_mem hq)
  unfold erased
  rw [List.filter_cons_of_neg (by simp)]
  apply congrArg
  apply List.filter_congr
  intro q hq
  simp [hother q hq]

/-- What an erasure takes back is what the erased entries counted. -/
theorem deliveredTo_erased {before after : List PendingCall} (hsub : after.Sublist before)
    (hids : (before.map PendingCall.forwardedId).Nodup) (index : ℕ) :
    deliveredTo before index =
      deliveredTo after index + (erased before after).count (.idle index) := by
  induction hsub with
  | slnil => rfl
  | @cons after before p hsub ih =>
    rw [List.map_cons, List.nodup_cons] at hids
    have hgone : p.forwardedId ∉ after.map PendingCall.forwardedId :=
      fun hmem => hids.1 ((hsub.map _).subset hmem)
    have hrest := ih hids.2
    rw [erased_cons_gone hgone, List.count_append, deliveredTo_cons, hrest]
    cases hdelivered : p.delivered with
    | false => simp
    | true =>
      by_cases hprovider : p.provider = index
      · simp only [hprovider, and_self, if_true, List.count_singleton_self]
        omega
      · have hother : ([RouterEffect.idle p.provider]).count (.idle index) = 0 := by
          rw [List.count_eq_zero, List.mem_singleton]
          intro heq
          cases heq
          exact hprovider rfl
        simp [hprovider, hother]
  | @cons_cons after before p hsub ih =>
    rw [List.map_cons, List.nodup_cons] at hids
    have hrest := ih hids.2
    rw [erased_cons_kept hids.1, deliveredTo_cons, deliveredTo_cons]
    omega

/-- Nothing is taken back when the identifiers stay. -/
theorem erased_of_ids {before after : List PendingCall}
    (h : after.map PendingCall.forwardedId = before.map PendingCall.forwardedId) :
    erased before after = [] := by
  unfold erased
  rw [List.map_eq_nil_iff, List.filter_eq_nil_iff]
  intro p hp
  have hmem : p.forwardedId ∈ after.map PendingCall.forwardedId := h ▸ List.mem_map_of_mem hp
  simp [hmem]

theorem deliveredTo_modify {pending : List PendingCall} {position : ℕ} {p : PendingCall}
    (hp : pending[position]? = some p) (hundelivered : p.delivered = false)
    (generation index : ℕ) :
    deliveredTo (pending.modify position fun p =>
      { p with delivered := true, providerGeneration := generation }) index =
        deliveredTo pending index + if index = p.provider then 1 else 0 := by
  induction pending generalizing position with
  | nil => simp at hp
  | cons q pending ih =>
    cases position with
    | zero =>
      cases hp
      rw [List.modify_zero_cons, deliveredTo_cons, deliveredTo_cons]
      simp [hundelivered, eq_comm]
    | succ position =>
      have hrest := ih hp
      rw [List.modify_succ_cons, deliveredTo_cons, deliveredTo_cons, hrest]
      omega

/-! ## Counters -/

section Counters

variable {s s' : Supervisor}

@[simp] theorem armIdleTimeout_inflight (s : Supervisor) (index i : ℕ) :
    ((armIdleTimeout plan s index).runtime i).inflightCalls = (s.runtime i).inflightCalls := by
  unfold armIdleTimeout
  by_cases hi : i = index
  · rw [hi, update_self]
  · rw [update_ne hi]

theorem applyEffect_idle_inflight (s : Supervisor) (index i : ℕ) :
    ((applyEffect plan s (.idle index)).runtime i).inflightCalls =
      (s.runtime i).inflightCalls - [RouterEffect.idle index].count (.idle i) := by
  unfold applyEffect
  by_cases hi : i = index
  · rw [hi, List.count_singleton_self]
    simp only
    split_ifs with hzero
    · omega
    · rw [armIdleTimeout_inflight, update_self]
  · have hother : [RouterEffect.idle index].count (.idle i) = 0 := by
      rw [List.count_eq_zero, List.mem_singleton]
      intro heq
      cases heq
      exact hi rfl
    simp only
    split_ifs
    · omega
    · rw [armIdleTimeout_inflight, update_ne hi]
      omega

/-- Each call that is taken back counts down once. -/
theorem applyEffects_idle_inflight {effects : List RouterEffect}
    (h : ∀ effect ∈ effects, ∃ index, effect = .idle index) (i : ℕ) : ∀ s : Supervisor,
    ((applyEffects plan s effects).runtime i).inflightCalls =
      (s.runtime i).inflightCalls - effects.count (.idle i) := by
  induction effects with
  | nil => exact fun s => rfl
  | cons effect effects ih =>
    intro s
    obtain ⟨index, rfl⟩ := h effect List.mem_cons_self
    have hrest := ih (fun e he => h e (List.mem_cons_of_mem _ he))
      (applyEffect plan s (.idle index))
    have hcount : (RouterEffect.idle index :: effects).count (.idle i) =
        [RouterEffect.idle index].count (.idle i) + effects.count (.idle i) := by
      rw [← List.count_append, List.singleton_append]
    rw [applyEffect_idle_inflight, Nat.sub_sub, ← hcount] at hrest
    exact hrest

theorem applyEffects_busy_inflight (s : Supervisor) (index i : ℕ)
    (hfew : (s.runtime index).inflightCalls < maxUint32) :
    ((applyEffects plan s [.busy index, .activity index]).runtime i).inflightCalls =
      (s.runtime i).inflightCalls + if i = index then 1 else 0 := by
  simp only [applyEffects, List.foldl_cons, List.foldl_nil, applyEffect, armIdleTimeout_inflight]
  by_cases hi : i = index
  · rw [hi, update_self, if_pos rfl, busyCalls, if_neg (Nat.ne_of_lt hfew)]
  · rw [update_ne hi, if_neg hi, Nat.add_zero]

/-- The process and the generation of a component that has one. -/
def Current (s : Supervisor) (component generation : ℕ) : Prop :=
  (s.runtime component).pid.isSome ∧ (s.runtime component).generation = generation

/-- A ready component has a process, and a waiting one has none. -/
structure Consistent (r : ComponentRuntime) : Prop where
  ready : r.state = .ready → r.pid.isSome
  waiting : r.state = .waiting → r.pid = none

theorem consistent_of_state {r : ComponentRuntime} (hready : r.state ≠ .ready)
    (hwaiting : r.state ≠ .waiting) : Consistent r :=
  ⟨fun h => absurd h hready, fun h => absurd h hwaiting⟩

/-- No process comes or goes. -/
structure Steady (s s' : Supervisor) : Prop where
  pid : ∀ i, (s'.runtime i).pid = (s.runtime i).pid
  generation : ∀ i, (s'.runtime i).generation = (s.runtime i).generation
  consistent : ∀ i, Consistent (s.runtime i) → Consistent (s'.runtime i)

theorem Steady.trans {t : Supervisor} (h : Steady s t) (h' : Steady t s') : Steady s s' where
  pid i := (h'.pid i).trans (h.pid i)
  generation i := (h'.generation i).trans (h.generation i)
  consistent i hi := h'.consistent i (h.consistent i hi)

theorem Steady.current (h : Steady s s') : Current s' = Current s := by
  funext component generation
  unfold Current
  rw [h.pid, h.generation]

theorem steady_of_touches (h : Touches s s') : Steady s s' where
  pid i := (h.touch i).pid
  generation i := (h.touch i).generation
  consistent i hi := by
    rcases (h.touch i).state with hsame | ⟨-, -, hstopping⟩
    · constructor <;> rw [hsame, (h.touch i).pid]
      · exact hi.ready
      · exact hi.waiting
    · exact consistent_of_state (by simp [hstopping]) (by simp [hstopping])

theorem steady_update {index : ℕ} {f : ComponentRuntime → ComponentRuntime}
    (hpid : (f (s.runtime index)).pid = (s.runtime index).pid)
    (hgeneration : (f (s.runtime index)).generation = (s.runtime index).generation)
    (hconsistent : Consistent (s.runtime index) → Consistent (f (s.runtime index))) :
    Steady s (s.update index f) where
  pid i := by
    by_cases hi : i = index
    · rw [hi, update_self, hpid]
    · rw [update_ne hi]
  generation i := by
    by_cases hi : i = index
    · rw [hi, update_self, hgeneration]
    · rw [update_ne hi]
  consistent i := by
    by_cases hi : i = index
    · rw [hi, update_self]
      exact hconsistent
    · rw [update_ne hi]
      exact id

theorem update_inflight {index : ℕ} {f : ComponentRuntime → ComponentRuntime}
    (h : (f (s.runtime index)).inflightCalls = (s.runtime index).inflightCalls) (i : ℕ) :
    ((s.update index f).runtime i).inflightCalls = (s.runtime i).inflightCalls := by
  by_cases hi : i = index
  · rw [hi, update_self, h]
  · rw [update_ne hi]

end Counters

/-! ## The entries and their counters -/

structure Counts (s : Supervisor) (pending : List PendingCall) : Prop where
  /-- What is delivered is with the current process. -/
  current : ∀ p ∈ pending, p.delivered = true → Current s p.provider p.providerGeneration
  calls : ∀ i, (s.runtime i).inflightCalls = deliveredTo pending i

section Counts

variable {s s' : Supervisor} {pending after : List PendingCall}

theorem Counts.steady (h : Counts s pending) (hsteady : Steady s s')
    (hinflight : ∀ i, (s'.runtime i).inflightCalls = (s.runtime i).inflightCalls) :
    Counts s' pending where
  current p hp hdelivered := hsteady.current ▸ h.current p hp hdelivered
  calls i := (hinflight i).trans (h.calls i)

/-- Entries go, and new ones are not delivered. -/
theorem Counts.erase {extra : List PendingCall} (h : Counts s pending)
    (hsub : after.Sublist (pending ++ extra))
    (hids : ((pending ++ extra).map PendingCall.forwardedId).Nodup)
    (hundelivered : ∀ p ∈ extra, p.delivered = false) :
    Counts (applyEffects plan s (erased pending after)) after where
  current p hp hdelivered := by
    rw [(steady_of_touches (applyEffects_touches plan s _)).current]
    rcases List.mem_append.mp (hsub.subset hp) with hmem | hmem
    · exact h.current p hmem hdelivered
    · rw [hundelivered p hmem] at hdelivered
      cases hdelivered
  calls i := by
    have hidle : ∀ effect ∈ erased pending after, ∃ index, effect = .idle index := by
      intro effect heffect
      obtain ⟨p, -, rfl⟩ := List.mem_map.mp heffect
      exact ⟨p.provider, rfl⟩
    have herased := deliveredTo_erased hsub hids i
    rw [deliveredTo_append_undelivered hundelivered, erased_append_undelivered hundelivered]
      at herased
    rw [applyEffects_idle_inflight hidle, h.calls]
    omega

/-- An entry is delivered. -/
theorem Counts.deliver {position generation : ℕ} {p : PendingCall} (h : Counts s pending)
    (hp : pending[position]? = some p) (hundelivered : p.delivered = false)
    (hcurrent : Current s p.provider generation) (hfew : pending.length < maxUint32) :
    Counts (applyEffects plan s [.busy p.provider, .activity p.provider])
      (pending.modify position fun p =>
        { p with delivered := true, providerGeneration := generation }) where
  current q hq hdelivered := by
    rw [(steady_of_touches (applyEffects_touches plan s _)).current]
    obtain ⟨j, hj⟩ := List.mem_iff_getElem?.mp hq
    rw [List.getElem?_modify] at hj
    by_cases hposition : position = j
    · subst hposition
      rw [hp] at hj
      simp only [if_true, Option.map_eq_map, Option.map_some, Option.some.injEq] at hj
      subst hj
      exact hcurrent
    · simp only [hposition, if_false, Option.map_eq_map, Option.map_id'] at hj
      exact h.current q (List.mem_of_getElem? hj) hdelivered
  calls i := by
    have hle : deliveredTo pending p.provider ≤ pending.length := List.countP_le_length
    have hroom : (s.runtime p.provider).inflightCalls < maxUint32 := by
      rw [h.calls]
      omega
    rw [applyEffects_busy_inflight s _ i hroom, deliveredTo_modify hp hundelivered, h.calls]

end Counts

/-! ## The exit of a component -/

section Leaving

open Router

variable {s s' : Router.State} {index generation : ℕ}

/-- A frame above the loop of `on_child_exit`, which is at position `n`. The session of the
component is closed before the loop begins. -/
def Above (n : ℕ) (f : Frame) : Prop :=
  f.Closing ∨ ∃ component g, f = .closeLoop component g ∧ n = 0

/-- `on_child_exit` reports a component unavailable, or it has done so. -/
inductive Leaving (index generation : ℕ) (s : Router.State) : Prop
  | reporting (above : List Frame) (n : ℕ)
      (stack : s.stack = above ++ [.unavailableLoop index generation n])
      (passed : UnavailablePassed s.toBook index generation n)
      (closing : ∀ f ∈ above, Above n f)
  | reported (stack : s.stack = []) (gone : ∀ p ∈ s.pending, ¬ Affected index generation p)

theorem leaving_of_erases {t : Router.State} (above : List Frame) {n : ℕ} (h : Erases t s)
    (hst : t.stack = above ++ [.unavailableLoop index generation n])
    (hpassed : UnavailablePassed s.toBook index generation n)
    (hclosing : ∀ f ∈ above, Above n f) : Leaving index generation s := by
  obtain ⟨pushed, hpushed, hframes⟩ := h.stack
  refine .reporting (pushed ++ above) n ?_ hpassed ?_
  · rw [hpushed, hst, List.append_assoc]
  · intro f hf
    rcases List.mem_append.mp hf with hf | hf
    · exact .inl (hframes f hf)
    · exact hclosing f hf

theorem closeSession_passed {n x : ℕ} {notify : Bool}
    (hpassed : UnavailablePassed s.toBook index generation n)
    (hskips : (s.findSession x).isSome →
      UnavailablePassed (disconnectedBook s.toBook x) index generation n) :
    UnavailablePassed (closeSession s x notify).toBook index generation n := by
  unfold closeSession
  split
  · exact hpassed
  · rename_i session hfind
    have hclosed := hskips (by rw [hfind]; rfl)
    dsimp only
    split
    · exact hclosed
    · split_ifs <;> exact hclosed

theorem unavailableTurn_passed_of {n c g k : ℕ}
    (hpassed : UnavailablePassed s.toBook index generation n)
    (hskips : ∀ p ∈ s.pending[k]?, Affected c g p →
      UnavailablePassed (answered s.toBook k p (.unavailable c g)) index generation n) :
    UnavailablePassed (unavailableTurn catalog s c g k).toBook index generation n := by
  unfold unavailableTurn
  split
  · exact hpassed
  · rename_i p hp
    split_ifs with haffected
    · simp only [failPending, State.push, hp]
      exact hskips p hp haffected
    · exact hpassed

/-- The turn of the loop itself. -/
theorem unavailableTurn_leaving {n : ℕ} (hst : s.stack = [])
    (hpassed : UnavailablePassed s.toBook index generation n) :
    Leaving index generation (unavailableTurn catalog s index generation n) := by
  unfold unavailableTurn
  split
  · rename_i hnone
    exact .reported hst (hpassed.all (length_le_of_getElem?_eq_none hnone))
  · rename_i p hp
    split_ifs with haffected
    · simp only [failPending, State.push, hp, hst]
      exact .reporting [.send p.callerSession _ .inLoop] n rfl (hpassed.answered p _)
        (by simp [Above, Frame.Closing])
    · refine .reporting [] (n + 1) ?_ (unavailableTurn_passed hpassed hp haffected) (by simp)
      simp only [State.push, hst, List.nil_append]

theorem SkipsNone.sent {n x : ℕ} {packet : Bytes} {site : Site} {rest : List Frame}
    (h : SkipsNone s index generation n (.sent true)) (hst : s.stack = .send x packet site :: rest)
    (hsome : (s.findSession x).isSome) :
    UnavailablePassed (disconnectedBook s.toBook x) index generation n := by
  simp only [SkipsNone, hst] at h
  exact h hsome

theorem SkipsNone.turn {n c g k : ℕ} {rest : List Frame} {e : Router.Event}
    (h : SkipsNone s index generation n e) (hst : s.stack = .unavailableLoop c g k :: rest)
    (hne : rest ≠ []) (hstep : Router.step catalog s e = some s') :
    ∀ p ∈ s.pending[k]?, Affected c g p →
      UnavailablePassed (answered s.toBook k p (.unavailable c g)) index generation n := by
  obtain ⟨f, below, rfl⟩ := List.exists_cons_of_ne_nil hne
  simp only [Router.step, hst] at hstep
  cases e with
  | go =>
    simp only [SkipsNone, hst] at h
    exact h
  | _ => cases hstep

theorem Leaving.step {e : Router.Event} (h : Leaving index generation s) (hne : s.stack ≠ [])
    (hskips : ∀ n, s.stack.getLast? = some (.unavailableLoop index generation n) →
      SkipsNone s index generation n e)
    (hstep : Router.step catalog s e = some s') : Leaving index generation s' := by
  cases h with
  | reported hst _ => exact absurd hst hne
  | reporting above n hst hpassed hclosing =>
    have hskip := hskips n (by rw [hst, List.getLast?_concat])
    cases above with
    | nil =>
      rw [step_unavailable hst hstep]
      exact unavailableTurn_leaving rfl hpassed
    | cons f above =>
      rw [List.cons_append] at hst
      have habove : ∀ f ∈ above, Above n f :=
        fun f' hf' => hclosing f' (List.mem_cons_of_mem f hf')
      rcases hclosing f List.mem_cons_self with hf | ⟨component, g, rfl, rfl⟩
      · cases f with
        | send x packet site =>
          obtain ⟨closes, rfl, rfl⟩ := step_send hst hstep
          apply leaving_of_erases above (sendToSession_erases _ x closes) rfl _ habove
          cases closes with
          | false => exact hpassed
          | true => exact closeSession_passed hpassed (hskip.sent hst)
        | unavailableLoop c g k =>
          rw [step_unavailable hst hstep]
          apply leaving_of_erases above (unavailableTurn_erases _ c g k) rfl _ habove
          exact unavailableTurn_passed_of hpassed (hskip.turn hst (by simp) hstep)
        | disconnected c g =>
          rcases step_disconnected hst hstep with rfl | rfl
          · exact leaving_of_erases above (Erases.refl _) rfl hpassed habove
          · exact leaving_of_erases above (erases_push _ (.unavailableLoop c g 0) trivial) rfl
              hpassed habove
        | _ => cases hf
      · -- the loop has not begun, so it has passed nothing
        have hnone (b : Book) : UnavailablePassed b index generation 0 := by
          simp [UnavailablePassed]
        rw [step_closeLoop hst hstep]
        rcases closeTurn_erases { s with stack := above ++ [.unavailableLoop index generation 0] }
          component g with hdone | herases
        · rw [hdone]
          exact leaving_of_erases above (Erases.refl _) rfl (hnone _) habove
        · refine leaving_of_erases (.closeLoop component g :: above) herases rfl (hnone _) ?_
          intro f' hf'
          rcases List.mem_cons.mp hf' with rfl | hf'
          · exact .inr ⟨component, g, rfl, rfl⟩
          · exact habove f' hf'

end Leaving

/-! ## The invariant -/

structure Inv (t : RoutedSupervisor) : Prop where
  router : Router.Sound (Current t.supervisor) t.router
  counts : Counts t.supervisor t.router.pending
  consistent : ∀ i, Consistent (t.supervisor.runtime i)
  leaving : ∀ i, t.exiting = some i → (t.supervisor.runtime i).pid.isSome ∧
    Leaving i (t.supervisor.runtime i).generation t.router

theorem Inv.initial (plan : RuntimePlan) (native : NativeCatalog) :
    Inv (initial plan native) where
  router := by
    refine ⟨⟨List.nodup_nil, by simp [RoutedSupervisor.initial], ?_, ?_⟩, .closed ?_⟩
    · exact Nat.zero_le _
    · simp [RoutedSupervisor.initial]
    · exact Router.AllClosed.nil _
  counts := ⟨by simp [RoutedSupervisor.initial], fun i => rfl⟩
  consistent i := by
    simp only [RoutedSupervisor.initial]
    split_ifs <;> exact ⟨by simp, by simp⟩
  leaving i hexiting := by cases hexiting

section Steps

variable {t t' : RoutedSupervisor}

/-- A step of the supervisor that is none for the router. -/
theorem Inv.steady {s : Supervisor} (h : Inv t) (hsteady : Steady t.supervisor s)
    (hinflight : ∀ i, (s.runtime i).inflightCalls = (t.supervisor.runtime i).inflightCalls) :
    Inv { t with supervisor := s } where
  router := hsteady.current ▸ h.router
  counts := h.counts.steady hsteady hinflight
  consistent i := hsteady.consistent i (h.consistent i)
  leaving i hexiting := by
    rw [hsteady.pid, hsteady.generation]
    exact h.leaving i hexiting

theorem Inv.update {index : ℕ} {f : ComponentRuntime → ComponentRuntime} (h : Inv t)
    (hpid : (f (t.supervisor.runtime index)).pid = (t.supervisor.runtime index).pid)
    (hgeneration : (f (t.supervisor.runtime index)).generation =
      (t.supervisor.runtime index).generation)
    (hconsistent : Consistent (t.supervisor.runtime index) →
      Consistent (f (t.supervisor.runtime index)))
    (hinflight : (f (t.supervisor.runtime index)).inflightCalls =
      (t.supervisor.runtime index).inflightCalls) :
    Inv (updateRuntime t index f) :=
  h.steady (steady_update hpid hgeneration hconsistent) (update_inflight hinflight)

/-- No frame of a delivery is on the stack while the supervisor is at work. -/
theorem allClosed_of_inSupervisor (h : Inv t) (hin : inSupervisor t = true) :
    Router.AllClosed t.router.toBook t.router.stack := by
  have hdelivering := h.router.delivering
  simp only [inSupervisor, Bool.and_eq_true] at hin
  obtain ⟨-, hstack⟩ := hin
  split at hstack
  · rename_i hst
    rw [hst]
    exact Router.AllClosed.nil _
  · rename_i hst
    rw [hst] at hdelivering ⊢
    exact (hdelivering.allClosed (by simp) trivial).cons trivial
  · cases hstack

theorem exiting_of_inSupervisor (hin : inSupervisor t = true) : t.exiting = none := by
  simp only [inSupervisor, Bool.and_eq_true, Option.isNone_iff_eq_none] at hin
  exact hin.1

/-- A call of the router. -/
theorem Inv.push (h : Inv t) (hclosed : Router.AllClosed t.router.toBook t.router.stack)
    (hexiting : t.exiting = none) {frames : List Router.Frame}
    (hframes : ∀ f ∈ frames, f.Plain ∧ f.Sound (Current t.supervisor)) : Inv (push t frames) where
  router := by
    refine ⟨{ h.router.tables with frames := ?_ }, .closed ?_⟩
    · intro f hf
      rcases List.mem_append.mp hf with hf | hf
      · exact (hframes f hf).2
      · exact h.router.tables.frames f hf
    · intro x i g id provider loop hmem
      rcases List.mem_append.mp hmem with hmem | hmem
      · cases (hframes _ hmem).1
      · exact hclosed x i g id provider loop hmem
  counts := h.counts
  consistent := h.consistent
  leaving i hi := by
    rw [show (RoutedSupervisor.push t frames).exiting = none from hexiting] at hi
    cases hi

/-! A step of the router. -/

theorem counted_of_uncounted {s : Router.State} (h : Router.Uncounted s) : counted s = [] := by
  unfold counted
  split
  · rename_i session index generation id provider loop rest hst
    rw [h session index generation id provider loop rest hst]
    rfl
  · rfl

theorem counted_of_open {s : Router.State} {x index g id provider : ℕ} {loop : Option ℕ}
    {rest : List Router.Frame} {p : PendingCall}
    (hst : s.stack = .afterDelivery x index g id provider loop :: rest)
    (hopen : (s.findSession x).isSome) (hp : s.pending[index]? = some p) :
    counted s = [.busy p.provider, .activity p.provider] := by
  unfold counted
  rw [hst]
  simp only [hopen, if_true, hp]

theorem counts_of_changed {s : Supervisor} {r r' : Router.State}
    (htables : Router.Tables (Current s) r) (h : Counts s r.pending)
    (hchanged : Router.Changed (Current s) r r') :
    Counts (applyEffects plan s (erased r.pending r'.pending ++ counted r)) r'.pending := by
  cases hchanged with
  | plain extra hsub hids hundelivered huncounted =>
    rw [counted_of_uncounted huncounted, List.append_nil]
    exact h.erase hsub hids hundelivered
  | delivered x index g id loop rest p hst hopen hp hundelivered hcurrent hpending =>
    have hids := Router.deliveredBook_ids r.toBook index g
    rw [← hpending] at hids
    rw [erased_of_ids hids, List.nil_append, counted_of_open hst hopen hp, hpending]
    apply h.deliver hp hundelivered hcurrent
    have hfew := htables.few
    have hbound : Router.maxPendingCalls < maxUint32 := by decide
    omega

/-- What the callbacks of the supervisor answer is true of its processes. -/
theorem Inv.told {e : Router.Event} (h : Inv t) (hready : readies e = false) :
    Router.Told (Current t.supervisor) (answer t e) where
  call session message source supervisor he component hcomponent := by
    cases e with
    | call session' message' source' supervisor' =>
      cases he
      exact ⟨(h.consistent component).ready (of_decide_eq_true hcomponent), rfl⟩
    | hook fails =>
      simp only [answer] at he
      split at he <;> cases he
    | _ => cases he
  ready component generation he := by
    cases e with
    | supervise op =>
      cases he
      cases hready
    | hook fails =>
      simp only [answer] at he
      split at he <;> cases he
    | _ => cases he

/-- Only an answer of a send and a turn of a loop can erase entries above the loop. -/
theorem SkipsNone.of_other {s : Router.State} {component generation n : ℕ} {e : Router.Event}
    (hsent : ∀ closes, e ≠ .sent closes) (hgo : e ≠ .go) :
    SkipsNone s component generation n e := by
  unfold SkipsNone
  split
  · exact absurd rfl (hsent true)
  · exact absurd rfl hgo
  · trivial

theorem SkipsNone.answer {component generation n : ℕ} {e : Router.Event}
    (h : SkipsNone t.router component generation n e) :
    SkipsNone t.router component generation n (answer t e) := by
  cases e with
  | call session message source supervisor =>
    simp only [RoutedSupervisor.answer]
    exact SkipsNone.of_other (by simp) (by simp)
  | hook fails =>
    simp only [RoutedSupervisor.answer]
    split <;> exact SkipsNone.of_other (by simp) (by simp)
  | _ => exact h

theorem Undisturbed.skipsNone {e : Router.Event} (h : Undisturbed t (.router e)) {i : ℕ}
    (hexiting : t.exiting = some i) {component generation n : ℕ}
    (hlast : t.router.stack.getLast? = some (.unavailableLoop component generation n)) :
    SkipsNone t.router component generation n (answer t e) := by
  simp only [Undisturbed, hexiting, hlast] at h
  exact h.answer

theorem afterHook_steady (t : RoutedSupervisor) : Steady t.supervisor (afterHook t) := by
  unfold afterHook
  split
  · exact steady_update rfl rfl fun _ => consistent_of_state (by simp [markFailed])
      (by simp [markFailed])
  · exact steady_of_touches (Touches.refl _)

theorem afterHook_inflight (t : RoutedSupervisor) (i : ℕ) :
    ((afterHook t).runtime i).inflightCalls = (t.supervisor.runtime i).inflightCalls := by
  unfold afterHook
  split
  · exact update_inflight rfl i
  · rfl

theorem Inv.routed {e : Router.Event} {r : Router.State} (h : Inv t) (hready : readies e = false)
    (hundisturbed : Undisturbed t (.router e)) (hne : t.exiting.isSome → t.router.stack ≠ [])
    (hstep : Router.step catalog t.router (answer t e) = some r) : Inv (routed plan t r) := by
  obtain ⟨hsound, hchanged⟩ := Router.step_sound h.router (h.told hready) hstep
  have hhook := afterHook_steady t
  have hsteady : Steady t.supervisor (RoutedSupervisor.routed plan t r).supervisor :=
    hhook.trans (steady_of_touches (applyEffects_touches plan _ _))
  have hcounts := h.counts.steady hhook (afterHook_inflight t)
  have htables := h.router.tables
  rw [← hhook.current] at htables hchanged
  refine ⟨hsteady.current ▸ hsound, counts_of_changed htables hcounts hchanged,
    fun i => hsteady.consistent i (h.consistent i), ?_⟩
  intro i hi
  obtain ⟨hpid, hleaving⟩ := h.leaving i hi
  rw [hsteady.pid, hsteady.generation]
  refine ⟨hpid, hleaving.step (hne (by rw [show t.exiting = some i from hi]; rfl)) ?_ hstep⟩
  intro n hlast
  exact hundisturbed.skipsNone hi hlast

/-! The other steps. -/

theorem Inv.thrown (h : Inv t) : Inv { t with
    router := unwound t.router
    supervisor := applyEffects plan t.supervisor
      (erased t.router.pending (unwound t.router).pending)
    exiting := none } where
  router := by
    have herases : Router.Erases { t.router with stack := [] } (unwound t.router) :=
      ⟨List.filter_sublist, List.Sublist.refl _, rfl, [], rfl, by simp⟩
    have hidle : Router.Sound (Current t.supervisor) (unwound t.router) :=
      herases.sound { h.router.tables with frames := by simp } (Router.AllClosed.nil _)
    exact hidle.of_idle rfl
  counts := by
    have hids := h.router.tables.ids
    rw [← List.append_nil t.router.pending] at hids
    apply h.counts.erase _ hids (by simp)
    rw [List.append_nil]
    exact List.filter_sublist
  consistent i := by
    have hsteady := steady_of_touches (applyEffects_touches plan t.supervisor
      (erased t.router.pending (unwound t.router).pending))
    exact hsteady.consistent i (h.consistent i)
  leaving i hi := by cases hi

/-- A component that waits gets its next generation. -/
theorem Inv.started {index : ℕ} {f : ComponentRuntime → ComponentRuntime} (h : Inv t)
    (hexiting : t.exiting = none) (hwaiting : (t.supervisor.runtime index).state = .waiting)
    (hstate : (f ((markStarting t.supervisor index).runtime index)).state = .starting)
    (hinflight : (f ((markStarting t.supervisor index).runtime index)).inflightCalls =
      (t.supervisor.runtime index).inflightCalls) :
    Inv { t with supervisor := (markStarting t.supervisor index).update index f } := by
  have hother {i : ℕ} (hi : i ≠ index) :
      ((markStarting t.supervisor index).update index f).runtime i = t.supervisor.runtime i := by
    rw [update_ne hi, markStarting, update_ne hi]
  have hcurrent (component generation : ℕ) (hc : Current t.supervisor component generation) :
      Current ((markStarting t.supervisor index).update index f) component generation := by
    have hne : component ≠ index := by
      rintro rfl
      have hsome := hc.1
      rw [(h.consistent component).waiting hwaiting] at hsome
      cases hsome
    unfold Current
    rw [hother hne]
    exact hc
  refine ⟨h.router.mono hcurrent, ⟨?_, ?_⟩, ?_, ?_⟩
  · intro p hp hdelivered
    exact hcurrent _ _ (h.counts.current p hp hdelivered)
  · intro i
    by_cases hi : i = index
    · subst hi
      rw [update_self, hinflight]
      exact h.counts.calls i
    · rw [hother hi]
      exact h.counts.calls i
  · intro i
    by_cases hi : i = index
    · subst hi
      rw [update_self]
      exact consistent_of_state (by rw [hstate]; simp) (by rw [hstate]; simp)
    · rw [hother hi]
      exact h.consistent i
  · intro i hi
    rw [show t.exiting = some i from hi] at hexiting
    cases hexiting

theorem reported_plain (index generation : ℕ) : ∀ f ∈ reported plan index generation,
    f.Plain ∧ f.Sound (Current t.supervisor) := by
  intro f hf
  unfold reported at hf
  split_ifs at hf <;> simp only [List.mem_cons, List.not_mem_nil, or_false] at hf
  · rcases hf with rfl | rfl <;> exact ⟨trivial, trivial⟩
  · rw [hf]
    exact ⟨trivial, trivial⟩

/-- `on_child_exit` begins. -/
theorem Inv.exits {index generation : ℕ} (h : Inv t) (hexiting : t.exiting = none)
    (hst : t.router.stack = []) (hpid : (t.supervisor.runtime index).pid.isSome)
    (hgeneration : (t.supervisor.runtime index).generation = generation) :
    Inv { RoutedSupervisor.push t (reported plan index generation) with
      exiting := some index } := by
  have hclosed : Router.AllClosed t.router.toBook t.router.stack := by
    rw [hst]
    exact Router.AllClosed.nil _
  have hpushed : Inv (RoutedSupervisor.push t (reported plan index generation)) :=
    h.push hclosed hexiting (reported_plain index generation)
  refine ⟨hpushed.router, hpushed.counts, hpushed.consistent, ?_⟩
  intro i hi
  cases hi
  have hnone (b : Router.Book) : Router.UnavailablePassed b index generation 0 := by
    simp [Router.UnavailablePassed]
  refine ⟨hpid, ?_⟩
  simp only [RoutedSupervisor.push, hgeneration, hst, List.append_nil]
  by_cases hmipc : (componentPlan plan index).readiness = .mipc
  · refine .reporting [.closeLoop index generation] 0 ?_ (hnone _) ?_
    · rw [reported, if_pos hmipc]
      rfl
    · intro f hf
      rw [List.mem_singleton.mp hf]
      exact .inr ⟨index, generation, rfl, rfl⟩
  · refine .reporting [] 0 ?_ (hnone _) (by simp)
    rw [reported, if_neg hmipc]
    rfl

/-- `on_child_exit` sets the counter back: no delivered entry of the component is left. -/
theorem Inv.exited {index : ℕ} {state : RuntimeState} (h : Inv t)
    (hexiting : t.exiting = some index) (hst : t.router.stack = []) (hstate : state ≠ .ready) :
    Inv { t with
      supervisor := t.supervisor.update index fun r =>
        { r with pid := none, inflightCalls := 0, state := state }
      exiting := none } := by
  obtain ⟨-, hleaving⟩ := h.leaving index hexiting
  have hgone : ∀ p ∈ t.router.pending, p.delivered = true → p.provider ≠ index := by
    intro p hp hdelivered hprovider
    cases hleaving with
    | reporting above n hst' _ _ => simp [hst] at hst'
    | reported _ hgone =>
      obtain ⟨-, hgeneration⟩ := h.counts.current p hp hdelivered
      rw [hprovider] at hgeneration
      exact hgone p hp ⟨hprovider, .inr hgeneration.symm⟩
  refine ⟨h.router.of_idle hst, ⟨?_, ?_⟩, ?_, ?_⟩
  · intro p hp hdelivered
    unfold Current
    rw [update_ne (hgone p hp hdelivered)]
    exact h.counts.current p hp hdelivered
  · intro i
    by_cases hi : i = index
    · have hnone : deliveredTo t.router.pending index = 0 := by
        apply List.countP_eq_zero.mpr
        intro p hp
        simp only [decide_eq_true_eq, not_and]
        exact fun hprovider hdelivered => hgone p hp hdelivered hprovider
      rw [hi, update_self]
      exact hnone.symm
    · rw [update_ne hi]
      exact h.counts.calls i
  · intro i
    by_cases hi : i = index
    · rw [hi, update_self]
      exact ⟨fun hready => absurd hready hstate, fun _ => rfl⟩
    · rw [update_ne hi]
      exact h.consistent i
  · intro i hi
    cases hi

theorem step_inv {l : Label} (h : Inv t) (hundisturbed : Undisturbed t l)
    (hstep : step plan catalog t l = some t') : Inv t' := by
  cases l with
  | router e =>
    simp only [step] at hstep
    split_ifs at hstep with hoff
    rw [not_or, not_and] at hoff
    obtain ⟨r, hr, rfl⟩ := Option.map_eq_some_iff.mp hstep
    exact h.routed (by simpa using hoff.2) hundisturbed hoff.1 hr
  | throws =>
    simp only [step] at hstep
    split at hstep
    · split_ifs at hstep
      cases hstep
      exact h.thrown
    · cases hstep
  | spawned index pid =>
    simp only [step] at hstep
    split_ifs at hstep with hon
    cases hstep
    exact h.started (exiting_of_inSupervisor hon.1) hon.2 (by simp [markStarting])
      (by simp [markStarting])
  | refused index =>
    simp only [step] at hstep
    split_ifs at hstep with hon
    cases hstep
    have hexiting := exiting_of_inSupervisor hon.1
    have hstarted : Inv { t with
        supervisor := (markStarting t.supervisor index).update index fun r =>
          { r with pid := none, readinessFailed := true, idleTimer := none } } :=
      h.started hexiting hon.2 (by simp [markStarting]) (by simp [markStarting])
    have hclosed := allClosed_of_inSupervisor h hon.1
    exact hstarted.push hclosed hexiting (reported_plain index _)
  | ready index =>
    simp only [step] at hstep
    split_ifs at hstep with hon
    cases hstep
    obtain ⟨hin, hpid, -⟩ := hon
    have hexiting := exiting_of_inSupervisor hin
    have hclosed := allClosed_of_inSupervisor h hin
    have hreadied : Inv (updateRuntime t index fun r => { r with state := .ready }) :=
      h.update rfl rfl (fun _ => ⟨fun _ => hpid, by simp⟩) rfl
    apply hreadied.push hclosed hexiting
    intro f hf
    rw [List.mem_singleton.mp hf]
    refine ⟨trivial, ?_, ?_⟩ <;> simp [updateRuntime, hpid]
  | state index state =>
    simp only [step] at hstep
    split_ifs at hstep with hon
    cases hstep
    obtain ⟨-, hstate, hwaiting⟩ := hon
    apply h.update rfl rfl (fun _ => ⟨?_, ?_⟩) rfl
    · exact fun hready => absurd hready hstate
    · exact fun hwait => Option.isNone_iff_eq_none.mp (hwaiting hwait)
  | arm index =>
    cases hstep
    exact h.steady (steady_of_touches (armIdleTimeout_touches _ index)) (by simp)
  | idleTimer index =>
    simp only [step] at hstep
    split_ifs at hstep with hidle
    obtain ⟨hexiting, hst⟩ := hidle
    obtain ⟨generation, -, rfl⟩ := Option.map_eq_some_iff.mp hstep
    rw [Option.isNone_iff_eq_none] at hexiting
    have hfired : Inv (updateRuntime t index fun r => { r with idleTimer := none }) :=
      h.update rfl rfl (fun hi => ⟨hi.ready, hi.waiting⟩) rfl
    split_ifs
    · have hstopped : Inv (updateRuntime
          (updateRuntime t index fun r => { r with idleTimer := none }) index fun r =>
            { r with manualStop := true, restartTimer := none, state := .stopping }) :=
        hfired.update rfl rfl (fun _ => consistent_of_state (by simp) (by simp)) rfl
      apply hstopped.push _ hexiting (by simp [Router.Frame.Plain, Router.Frame.Sound])
      exact hst ▸ Router.AllClosed.nil _
    · exact hfired
  | exit index =>
    simp only [step] at hstep
    split_ifs at hstep with hon
    cases hstep
    obtain ⟨hexiting, hst, hpid⟩ := hon
    rw [Option.isNone_iff_eq_none] at hexiting
    have hfired : Inv (updateRuntime t index fun r => { r with idleTimer := none }) :=
      h.update rfl rfl (fun hi => ⟨hi.ready, hi.waiting⟩) rfl
    exact hfired.exits hexiting hst (by simpa [updateRuntime] using hpid) (by simp [updateRuntime])
  | exited state =>
    simp only [step] at hstep
    split at hstep
    · cases hstep
    · rename_i index hexiting
      split_ifs at hstep with hdone
      cases hstep
      exact h.exited hexiting hdone.1 hdone.2

theorem Inv.accounted (h : Inv t) : Accounted t := by
  have hcounts (index : ℕ) : (t.supervisor.runtime index).inflightCalls =
      t.router.pending.countP fun p => InFlight t.supervisor index p := by
    rw [h.counts.calls]
    apply List.countP_congr
    intro p hp
    simp only [decide_eq_true_eq]
    constructor
    · rintro ⟨hprovider, hdelivered⟩
      obtain ⟨-, hgeneration⟩ := h.counts.current p hp hdelivered
      rw [hprovider] at hgeneration
      exact ⟨hprovider, hdelivered, hgeneration.symm⟩
    · rintro ⟨hprovider, hdelivered, -⟩
      exact ⟨hprovider, hdelivered⟩
  refine ⟨hcounts, ?_⟩
  rintro index generation ⟨-, -, hzero⟩ p hp hinflight
  rw [hcounts, List.countP_eq_zero] at hzero
  exact hzero p hp (decide_eq_true hinflight)

end Steps

/-- In a run in which no loop of `on_child_exit` is made to skip a call, the counter of a
component is the number of its calls in flight. -/
theorem run_inflight {native : NativeCatalog} {labels : List Label} {t : RoutedSupervisor}
    (hundisturbed : Runs.Along (step plan catalog) Undisturbed (initial plan native) labels)
    (hrun : Runs.run (step plan catalog) (initial plan native) labels = some t) : Accounted t :=
  (Runs.run_invariant (fun _ _ _ hi hu h => step_inv hi hu h) labels (Inv.initial plan native)
    hundisturbed hrun).accounted

/-! ## A call that survives the exit of its provider -/

/-- Two components that are started when they are called. -/
def onDemandPlan : RuntimePlan where
  components := [
    { id := ascii "a", readiness := .mipc, lifecycle := .onDemand, restart := .onFailure,
      idleTimeoutMs := 100 },
    { id := ascii "b", readiness := .mipc, lifecycle := .onDemand }]

def onDemandCatalog : NativeCatalog := NativeCatalog.ofTables onDemandPlan {}

def callFrom (session : ℕ) (target : String) : Label :=
  .router (.call session (Router.callOf target) (ascii "public") {})

/-- The first component gets a process and is ready. -/
def startsFirst (generation session : ℕ) : List Label :=
  [.state 0 .waiting, .spawned 0 (100 + generation), .router (.accept (.component 0 generation)),
    .router (.handshake session), .ready 0, .router .go]

def delivered : List Label := [.router (.sent false), .router .go]

/-- Three callers; the first component is started. -/
def threeCallers : List Label :=
  [.router (.accept .publicControl), .router (.accept .publicControl),
    .router (.accept .publicControl)] ++ startsFirst 1 4

/-- The first component exits with two calls, whose callers are told. -/
def toldRun : List Label :=
  threeCallers ++ callFrom 1 "component:a" :: delivered ++ callFrom 2 "component:a" :: delivered ++
    [.exit 0, .router .go, .router .go, .router (.sent false), .router .go, .router (.sent true),
      .router .go, .router .go, .router .go, .exited .backoff]

theorem toldRun_accounted :
    ∃ t, Runs.run (step onDemandPlan Router.twoComponents) (initial onDemandPlan onDemandCatalog)
      toldRun = some t ∧ Accounted t := by
  have hsome : (Runs.run (step onDemandPlan Router.twoComponents)
      (initial onDemandPlan onDemandCatalog) toldRun).isSome := by decide +kernel
  obtain ⟨t, ht⟩ := Option.isSome_iff_exists.mp hsome
  exact ⟨t, ht, run_inflight (by decide +kernel) ht⟩

/-- Calls of three callers for both components wait when the first component exits. The replies to
the first caller and, in the loop of `on_child_exit` itself, to the third one close their sessions,
and both loops skip the call of the second caller. -/
def skippedRun : List Label :=
  threeCallers ++
    [callFrom 3 "component:b", .state 1 .waiting, .spawned 1 200, .router (.activated true),
      .router (.accept (.component 1 1)), callFrom 1 "component:b", .router (.activated true),
      callFrom 1 "component:b", .router (.activated true)] ++
    callFrom 1 "component:a" :: delivered ++ callFrom 3 "component:a" :: delivered ++
    callFrom 2 "component:a" :: delivered ++
    [.exit 0, .router .go, .router .go, .router .go, .router .go, .router .go, .router (.sent true),
      .router .go, .router .go, .router .go, .router .go, .router (.sent true), .router .go,
      .exited .backoff]

/-- The second caller calls the restarted component. Then its first call times out. -/
def lateTimeout : List Label :=
  startsFirst 2 6 ++ [.router .go, .router (.tick 1000), callFrom 2 "component:a"] ++ delivered ++
    [.router (.tick 4000), .router (.timer 6), .router (.sent false)]

/-- The idle timer stops the restarted component although it has a call. -/
theorem skippedRun_unaccounted :
    ¬ ∀ (plan : RuntimePlan) (catalog : Router.Catalog) (native : NativeCatalog)
      (labels : List Label) (t : RoutedSupervisor),
      Runs.run (step plan catalog) (initial plan native) labels = some t → t.exiting = none →
        t.router.stack = [] → Accounted t := by
  intro hall
  have hend : (Runs.run (step onDemandPlan Router.twoComponents)
      (initial onDemandPlan onDemandCatalog) (skippedRun ++ lateTimeout)).map (fun t =>
        (t.exiting, t.router.stack, decide (idleStops t 0 2),
          t.router.pending.countP fun p => InFlight t.supervisor 0 p)) =
      some (none, [], true, 1) := by decide +kernel
  obtain ⟨t, ht, hmap⟩ := Option.map_eq_some_iff.mp hend
  simp only [Prod.mk.injEq, decide_eq_true_eq] at hmap
  obtain ⟨hexiting, hstack, hidle, hcalls⟩ := hmap
  have hpositive : 0 < t.router.pending.countP fun p => InFlight t.supervisor 0 p := by omega
  obtain ⟨p, hp, hinflight⟩ := List.countP_pos_iff.mp hpositive
  exact (hall _ _ _ _ t ht hexiting hstack).idle 0 2 hidle p hp (of_decide_eq_true hinflight)

end MsysCore.Native.RoutedSupervisor
