import MsysCore.Lib.Inevitable
import MsysCore.Native.Router

/-!
# Calls of the router return

While a call of the router is under way its frames can only be resumed. A close takes a
session away, a failed call an entry of `pending_`, and every other step brings a loop
forward or takes a frame from the stack.
-/

namespace MsysCore.Native.Router

variable {catalog : Catalog} {s s' t : State}

/-- The answers that a suspended frame waits for. -/
def resumes : Event → Bool
  | .sent _ | .hook _ | .go => true
  | _ => false

/-- What a frame has left to do with `n` entries in `pending_`; a loop at a position whose
entry is erased stays there. -/
def Frame.weight (n : ℕ) : Frame → ℕ
  | .send _ _ _ => 1
  | .readyLoop _ _ index => 3 * (n - index) + 1
  | .unavailableLoop _ _ index => n - index + 1
  | .afterDelivery _ index _ _ _ _ => 3 * (n - (index + 1)) + 2
  | .closeLoop _ _ => 1
  -- `fail_running_component` closes a session and reports the component
  | .disconnected _ _ => n + 3
  | .broadcast _ deliveries => 2 * deliveries.length + 1
  | .activating _ _ _ => 1

def State.weight (s : State) : ℕ := (s.stack.map (Frame.weight s.pending.length)).sum

def State.rank (s : State) : ℕ ×ₗ ℕ ×ₗ ℕ :=
  toLex (s.sessions.length, toLex (s.pending.length, s.weight))

theorem Frame.weight_pos (n : ℕ) (f : Frame) : 0 < f.weight n := by
  cases f <;> exact Nat.succ_pos _

theorem weight_push (s : State) (f : Frame) :
    (s.push f).weight = f.weight s.pending.length + s.weight := rfl

theorem weight_pos (h : s.stack ≠ []) : 0 < s.weight := by
  obtain ⟨f, rest, hstack⟩ := List.exists_cons_of_ne_nil h
  rw [State.weight, hstack, List.map_cons, List.sum_cons]
  exact Nat.add_pos_left (f.weight_pos _) _

theorem rank_lt_of_sessions (h : s'.sessions.length < s.sessions.length) : s'.rank < s.rank :=
  Prod.Lex.toLex_lt_toLex.mpr (.inl h)

theorem rank_lt_of_pending (hsessions : s'.sessions.length ≤ s.sessions.length)
    (h : s'.pending.length < s.pending.length) : s'.rank < s.rank :=
  Prod.Lex.toLex_lt_toLex'.mpr ⟨hsessions, fun _ => Prod.Lex.toLex_lt_toLex.mpr (.inl h)⟩

theorem rank_lt_of_weight (hsessions : s'.sessions.length ≤ s.sessions.length)
    (hpending : s'.pending.length ≤ s.pending.length) (h : s'.weight < s.weight) :
    s'.rank < s.rank :=
  Prod.Lex.toLex_lt_toLex'.mpr
    ⟨hsessions, fun _ => Prod.Lex.toLex_lt_toLex'.mpr ⟨hpending, fun _ => h⟩⟩

theorem rank_lt_push (s : State) (f : Frame) : s.rank < (s.push f).rank := by
  refine rank_lt_of_weight le_rfl le_rfl ?_
  rw [weight_push]
  exact Nat.lt_add_of_pos_left (f.weight_pos _)

/-- Replacing the innermost frame by a lighter one. -/
theorem push_rank_lt {f g : Frame} (h : g.weight s.pending.length < f.weight s.pending.length) :
    (s.push g).rank < (s.push f).rank := by
  refine rank_lt_of_weight le_rfl le_rfl ?_
  rw [weight_push, weight_push]
  exact Nat.add_lt_add_right h _

/-- A hook whose component is only to be closed. -/
theorem closed_rank (s : State) (component generation : ℕ) :
    (s.push (.closeLoop component generation)).rank
      < (s.push (.disconnected component generation)).rank := by
  apply push_rank_lt
  simp only [Frame.weight]
  omega

/-- A failed component whose session is closed before it is reported. -/
theorem failed_rank (s : State) (component generation : ℕ) :
    ((s.push (.unavailableLoop component generation 0)).push (.closeLoop component generation)).rank
      < (s.push (.disconnected component generation)).rank := by
  refine rank_lt_of_weight le_rfl le_rfl ?_
  rw [weight_push, weight_push, weight_push]
  simp only [Frame.weight]
  omega

/-! ## The operations -/

theorem failPending_rank {index : ℕ} {p : PendingCall} {code message : Bytes} {cause : Cause}
    {site : Site} (hentry : s.pending[index]? = some p)
    (hsessions : s.sessions.length ≤ t.sessions.length)
    (hpending : s.pending.length ≤ t.pending.length) :
    (failPending s index code message cause site).rank < t.rank := by
  obtain ⟨hindex, -⟩ := List.getElem?_eq_some_iff.mp hentry
  unfold failPending
  rw [hentry]
  refine rank_lt_of_pending hsessions ?_
  dsimp only
  rw [List.length_eraseIdx_of_lt hindex]
  omega

theorem failPending_of_none {index : ℕ} {code message : Bytes} {cause : Cause} {site : Site}
    (hentry : s.pending[index]? = none) : failPending s index code message cause site = s := by
  unfold failPending
  rw [hentry]

theorem closeSession_rank {id : ℕ} {session : Session} (notify : Bool)
    (hfind : s.findSession id = some session) (hsessions : s.sessions.length ≤ t.sessions.length) :
    (closeSession s id notify).rank < t.rank := by
  have hgone : (s.sessions.filter fun other => other.id != id).length < t.sessions.length := by
    apply Nat.lt_of_lt_of_le _ hsessions
    apply List.length_filter_lt_length_iff_exists.mpr
    refine ⟨session, List.mem_of_find?_eq_some hfind, ?_⟩
    simpa using List.find?_some hfind
  apply rank_lt_of_sessions
  unfold closeSession
  rw [hfind]
  dsimp only
  cases session.peer with
  | publicControl => exact hgone
  | component index generation =>
    dsimp only
    split_ifs
    · exact hgone
    · exact hgone

theorem sendToSession_rank (s : State) (id : ℕ) (closes : Bool) (packet : Bytes) (site : Site) :
    (sendToSession s id closes).rank < (s.push (.send id packet site)).rank := by
  unfold sendToSession
  split_ifs
  · cases hfind : s.findSession id with
    | none =>
      rw [closeSession, hfind]
      exact rank_lt_push s _
    | some session => exact closeSession_rank true hfind le_rfl
  · exact rank_lt_push s _

section Delivery

variable {index generation component : ℕ} {loop : Option ℕ}

theorem resumeReady_tables (s : State) (index generation : ℕ) (result : Bool) (loop : Option ℕ) :
    (resumeReady s index generation result loop).sessions = s.sessions ∧
      (resumeReady s index generation result loop).pending = s.pending := by
  cases loop <;> exact ⟨rfl, rfl⟩

/-- A delivery that fails erases its entry. -/
theorem failDelivery_rank {p : PendingCall} {code message : Bytes} {cause : Cause} {site : Site}
    (hentry : s.pending[index]? = some p) (f : Frame) :
    (failPending (resumeReady s index generation false loop) index code message cause site).rank
      < (s.push f).rank := by
  obtain ⟨hsessions, hpending⟩ := resumeReady_tables s index generation false loop
  apply failPending_rank (p := p)
  · rw [hpending]
    exact hentry
  · exact le_of_eq (congrArg List.length hsessions)
  · exact le_of_eq (congrArg List.length hpending)

theorem readyTurn_rank (s : State) (component generation index : ℕ) :
    (readyTurn catalog s component generation index).rank
      < (s.push (.readyLoop component generation index)).rank := by
  unfold readyTurn
  cases hentry : s.pending[index]? with
  | none => exact rank_lt_push s _
  | some p =>
    obtain ⟨hindex, -⟩ := List.getElem?_eq_some_iff.mp hentry
    dsimp only
    split_ifs
    · unfold deliver
      rw [hentry]
      dsimp only
      split_ifs
      · exact failDelivery_rank hentry _
      · cases s.componentSession p.provider generation with
        | none => exact failDelivery_rank hentry _
        | some session =>
          refine rank_lt_of_weight le_rfl le_rfl ?_
          rw [weight_push, weight_push, weight_push]
          simp only [Frame.weight]
          omega
    · apply push_rank_lt
      simp only [Frame.weight]
      omega

theorem resumeReady_rank (session forwardedId provider : ℕ) {result : Bool}
    (hresult : result = false → s.pending.length ≤ index) (h : t.sessions = s.sessions)
    (hlength : t.pending.length = s.pending.length) (hstack : t.stack = s.stack) :
    (resumeReady t index generation result loop).rank
      < (s.push (.afterDelivery session index generation forwardedId provider loop)).rank := by
  have hweight : t.weight = s.weight := by rw [State.weight, State.weight, hstack, hlength]
  obtain ⟨hsessions, hpending⟩ := resumeReady_tables t index generation result loop
  apply rank_lt_of_weight
  · rw [hsessions, h]
    exact le_rfl
  · rw [hpending, hlength]
    exact le_rfl
  · rw [weight_push]
    cases loop with
    | none =>
      simp only [resumeReady, Frame.weight, hweight]
      omega
    | some component =>
      simp only [resumeReady, weight_push, hweight, hlength, Frame.weight]
      cases result with
      | false =>
        have hend := hresult rfl
        simp only [Bool.false_eq_true, if_false]
        omega
      | true =>
        simp only [if_true]
        omega

theorem finishDelivery_rank (s : State) (session index generation forwardedId provider : ℕ)
    (loop : Option ℕ) :
    (finishDelivery catalog s session index generation forwardedId provider loop).rank
      < (s.push (.afterDelivery session index generation forwardedId provider loop)).rank := by
  unfold finishDelivery
  split_ifs
  · exact resumeReady_rank _ _ _ (by simp) rfl (List.length_modify ..) rfl
  · cases hentry : s.pending[index]? with
    | some p => exact failDelivery_rank hentry _
    | none =>
      rw [failPending_of_none]
      · exact resumeReady_rank _ _ _ (fun _ => List.getElem?_eq_none_iff.mp hentry) rfl rfl rfl
      · rw [(resumeReady_tables s index generation false loop).2]
        exact hentry

end Delivery

theorem unavailableTurn_rank (s : State) (component generation index : ℕ) :
    (unavailableTurn catalog s component generation index).rank
      < (s.push (.unavailableLoop component generation index)).rank := by
  unfold unavailableTurn
  cases hentry : s.pending[index]? with
  | none => exact rank_lt_push s _
  | some p =>
    obtain ⟨hindex, -⟩ := List.getElem?_eq_some_iff.mp hentry
    dsimp only
    split_ifs
    · exact failPending_rank hentry le_rfl le_rfl
    · apply push_rank_lt
      simp only [Frame.weight]
      omega

theorem closeTurn_rank (s : State) (component generation : ℕ) :
    (closeTurn s component generation).rank
      < (s.push (.closeLoop component generation)).rank := by
  unfold closeTurn
  split
  · exact rank_lt_push s _
  · rename_i session hfind
    have hopen : (s.push (.closeLoop component generation)).findSession session.id ≠ none := by
      intro hnone
      have hmem := List.mem_of_find?_eq_some hfind
      simpa using List.find?_eq_none.mp hnone session hmem
    obtain ⟨other, hother⟩ := Option.ne_none_iff_exists'.mp hopen
    exact closeSession_rank false hother le_rfl

/-! ## Steps -/

/-- What the innermost frame does when it resumes over the state `t`. -/
inductive Turn (catalog : Catalog) (t : State) : Frame → State → Prop
  | send (id : ℕ) (packet : Bytes) (site : Site) (closes : Bool) :
    Turn catalog t (.send id packet site) (sendToSession t id closes)
  | ready (component generation index : ℕ) :
    Turn catalog t (.readyLoop component generation index)
      (readyTurn catalog t component generation index)
  | unavailable (component generation index : ℕ) :
    Turn catalog t (.unavailableLoop component generation index)
      (unavailableTurn catalog t component generation index)
  | delivered (session index generation forwardedId provider : ℕ) (loop : Option ℕ) :
    Turn catalog t (.afterDelivery session index generation forwardedId provider loop)
      (finishDelivery catalog t session index generation forwardedId provider loop)
  | close (component generation : ℕ) :
    Turn catalog t (.closeLoop component generation) (closeTurn t component generation)
  | ignored (component generation : ℕ) : Turn catalog t (.disconnected component generation) t
  | failed (component generation : ℕ) :
    Turn catalog t (.disconnected component generation)
      (t.push (.unavailableLoop component generation 0))
  | published (packet : Bytes) : Turn catalog t (.broadcast packet []) t
  | publish (packet : Bytes) (id : ℕ) (deliveries : List ℕ) :
    Turn catalog t (.broadcast packet (id :: deliveries))
      ((t.push (.broadcast packet deliveries)).push (.send id packet .single))

theorem step_turn {e : Event} (he : resumes e = true) (h : step catalog s e = some s') :
    ∃ f t, s = State.push t f ∧ Turn catalog t f s' := by
  obtain ⟨book, stack⟩ := s
  cases stack with
  | nil =>
    cases e with
    | sent _ | hook _ | go => cases h
    | _ => cases he
  | cons f rest =>
    refine ⟨f, ⟨book, rest⟩, rfl, ?_⟩
    cases f with
    | broadcast packet deliveries =>
      cases deliveries with
      | nil =>
        cases e <;> cases h
        exact .published packet
      | cons id deliveries =>
        cases e <;> cases h
        exact .publish packet id deliveries
    | send id packet site =>
      cases e <;> cases h
      exact .send id packet site _
    | readyLoop component generation index =>
      cases e <;> cases h
      exact .ready component generation index
    | unavailableLoop component generation index =>
      cases e <;> cases h
      exact .unavailable component generation index
    | afterDelivery session index generation forwardedId provider loop =>
      cases e <;> cases h
      exact .delivered session index generation forwardedId provider loop
    | closeLoop component generation =>
      cases e <;> cases h
      exact .close component generation
    | disconnected component generation =>
      cases e with
      | hook fails =>
        cases fails with
        | false =>
          cases h
          exact .ignored component generation
        | true =>
          cases h
          exact .failed component generation
      | _ => cases h
    | activating provider index forwardedId =>
      cases e with
      | supervise _ | activated _ => cases he
      | _ => cases h

/-- A frame that resumes leaves less to do. -/
theorem Turn.rank_lt {f : Frame} (h : Turn catalog t f s') : s'.rank < (t.push f).rank := by
  cases h with
  | send id packet site closes => exact sendToSession_rank t id closes packet site
  | ready component generation index => exact readyTurn_rank t component generation index
  | unavailable component generation index =>
    exact unavailableTurn_rank t component generation index
  | delivered session index generation forwardedId provider loop =>
    exact finishDelivery_rank t session index generation forwardedId provider loop
  | close component generation => exact closeTurn_rank t component generation
  | ignored component generation => exact rank_lt_push _ _
  | failed component generation => exact (rank_lt_push _ _).trans (failed_rank t _ _)
  | published packet => exact rank_lt_push _ _
  | publish packet id deliveries =>
    refine rank_lt_of_weight le_rfl le_rfl ?_
    rw [weight_push, weight_push, weight_push]
    simp only [Frame.weight, List.length_cons]
    omega

/-! ## Frames of calls -/

/-- Not `queue_provider_call` inside `activate_component`, whose answer the supervisor gives. -/
def Frame.Call : Frame → Prop
  | .activating _ _ _ => False
  | _ => True

/-- Nothing but calls of the router is under way. -/
def Calls (s : State) : Prop := ∀ f ∈ s.stack, f.Call

theorem Calls.push {f : Frame} (h : Calls s) (hf : f.Call) : Calls (s.push f) :=
  List.forall_mem_cons.mpr ⟨hf, h⟩

theorem Calls.of_push {f : Frame} (h : Calls (s.push f)) : f.Call ∧ Calls s :=
  List.forall_mem_cons.mp h

theorem failPending_calls {index : ℕ} {code message : Bytes} {cause : Cause} {site : Site}
    (h : Calls s) : Calls (failPending s index code message cause site) := by
  unfold failPending
  split
  · exact h
  · exact h.push (f := .send _ _ _) trivial

theorem closeSession_calls {id : ℕ} {notify : Bool} (h : Calls s) :
    Calls (closeSession s id notify) := by
  unfold closeSession
  split
  · exact h
  · dsimp only
    split
    · exact h
    · split_ifs
      · exact (h.push (f := .disconnected _ _) trivial).push (f := .unavailableLoop _ _ _) trivial
      · exact h.push (f := .unavailableLoop _ _ _) trivial

theorem sendToSession_calls {id : ℕ} {closes : Bool} (h : Calls s) :
    Calls (sendToSession s id closes) := by
  unfold sendToSession
  split_ifs
  · exact closeSession_calls h
  · exact h

theorem resumeReady_calls {index generation : ℕ} {result : Bool} {loop : Option ℕ} (h : Calls s) :
    Calls (resumeReady s index generation result loop) := by
  cases loop with
  | none => exact h
  | some component => exact h.push trivial

theorem deliver_calls {index generation : ℕ} {loop : Option ℕ} (h : Calls s) :
    Calls (deliver catalog s index generation loop) := by
  unfold deliver
  split
  · exact resumeReady_calls h
  · split_ifs
    · exact failPending_calls (resumeReady_calls h)
    · split
      · exact failPending_calls (resumeReady_calls h)
      · exact (h.push (f := .afterDelivery _ _ _ _ _ _) trivial).push (f := .send _ _ _) trivial

theorem readyTurn_calls {component generation index : ℕ} (h : Calls s) :
    Calls (readyTurn catalog s component generation index) := by
  unfold readyTurn
  split
  · exact h
  · split_ifs
    · exact deliver_calls h
    · exact h.push trivial

theorem finishDelivery_calls {session index generation forwardedId provider : ℕ}
    {loop : Option ℕ} (h : Calls s) :
    Calls (finishDelivery catalog s session index generation forwardedId provider loop) := by
  unfold finishDelivery
  split_ifs
  · exact resumeReady_calls h
  · exact failPending_calls (resumeReady_calls h)

theorem unavailableTurn_calls {component generation index : ℕ} (h : Calls s) :
    Calls (unavailableTurn catalog s component generation index) := by
  unfold unavailableTurn
  split
  · exact h
  · split_ifs
    · exact failPending_calls (h.push trivial)
    · exact h.push trivial

theorem closeTurn_calls {component generation : ℕ} (h : Calls s) :
    Calls (closeTurn s component generation) := by
  unfold closeTurn
  split
  · exact h
  · exact closeSession_calls (h.push trivial)

theorem Turn.calls {f : Frame} (h : Turn catalog t f s') (ht : Calls t) : Calls s' := by
  cases h with
  | send id packet site closes => exact sendToSession_calls ht
  | ready component generation index => exact readyTurn_calls ht
  | unavailable component generation index => exact unavailableTurn_calls ht
  | delivered session index generation forwardedId provider loop => exact finishDelivery_calls ht
  | close component generation => exact closeTurn_calls ht
  | ignored component generation => exact ht
  | failed component generation => exact ht.push trivial
  | published packet => exact ht
  | publish packet id deliveries =>
    exact (ht.push (f := .broadcast packet deliveries) trivial).push trivial

theorem step_calls {e : Event} (he : resumes e = true) (hs : Calls s)
    (h : step catalog s e = some s') : Calls s' := by
  obtain ⟨f, t, rfl, hturn⟩ := step_turn he h
  exact hturn.calls hs.of_push.2

/-- Such a call can always go on, whatever a hook does. -/
theorem Calls.exists_step {f : Frame} (catalog : Catalog) (h : Calls (t.push f)) :
    (step catalog (t.push f) (.sent false)).isSome ∨ (step catalog (t.push f) .go).isSome ∨
      ∀ fails, (step catalog (t.push f) (.hook fails)).isSome := by
  cases f with
  | send id packet site => exact .inl rfl
  | disconnected component generation => exact .inr (.inr fun _ => rfl)
  | broadcast packet deliveries => cases deliveries <;> exact .inr (.inl rfl)
  | activating provider index forwardedId => exact h.of_push.1.elim
  | _ => exact .inr (.inl rfl)

end MsysCore.Native.Router
