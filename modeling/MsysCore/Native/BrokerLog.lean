import MsysCore.Native.HandshakeOrder

/-!
# The log and the table of the broker

The log only grows, and a session that was created is in the table until the log says that it
was closed. A call is authorized only by the answer of the hook.
-/

namespace MsysCore.Native.Handshake

open OutputQueue Runs

variable {broker : Broker} {s t s' : State} {asked : ℕ → AccessRequest → Prop}

def State.ids (s : State) : List ℕ := s.sessions.map Session.id

theorem mem_ids_iff {id : ℕ} : id ∈ s.ids ↔ s.findSession id ≠ none := by
  unfold State.ids State.findSession
  rw [ne_eq, List.find?_eq_none]
  constructor
  · intro hmem hnone
    obtain ⟨session, hsession, rfl⟩ := List.mem_map.mp hmem
    exact hnone session hsession (by simp)
  · intro h
    push Not at h
    obtain ⟨session, hsession, hid⟩ := h
    exact List.mem_map.mpr ⟨session, hsession, by simpa using hid⟩

/-- From `s` to `s'` the log grows by `facts`, and these say who came and who left; what was
authorized is what was asked. -/
structure GrowsBy (asked : ℕ → AccessRequest → Prop) (facts : List Fact) (s s' : State) :
    Prop where
  log : s'.log = s.log ++ facts
  kept : ∀ id ∈ s.ids, id ∈ s'.ids ∨ .closed id ∈ facts
  created : ∀ id peer, .created id peer ∈ facts → id ∈ s'.ids ∨ .closed id ∈ facts
  authorized : ∀ serial request, .authorized serial request true ∈ facts → asked serial request

def Grows (asked : ℕ → AccessRequest → Prop) (s s' : State) : Prop :=
  ∃ facts, GrowsBy asked facts s s'

theorem Grows.trans (h : Grows asked s t) (h' : Grows asked t s') : Grows asked s s' := by
  obtain ⟨facts, hlog, hkept, hcreated, hasked⟩ := h
  obtain ⟨facts', hlog', hkept', hcreated', hasked'⟩ := h'
  have hlater : ∀ id, (id ∈ t.ids ∨ .closed id ∈ facts) →
      id ∈ s'.ids ∨ .closed id ∈ facts ++ facts' := by
    rintro id (htable | hclosed)
    · exact (hkept' id htable).imp_right (List.mem_append_right _)
    · exact .inr (List.mem_append_left _ hclosed)
  refine ⟨facts ++ facts', by rw [hlog', hlog, List.append_assoc],
    fun id hid => hlater id (hkept id hid), fun id peer hpeer => ?_, fun serial request h =>
    (List.mem_append.mp h).elim (hasked serial request) (hasked' serial request)⟩
  rcases List.mem_append.mp hpeer with hbefore | hafter
  · exact hlater id (hcreated id peer hbefore)
  · exact (hcreated' id peer hafter).imp_right (List.mem_append_right _)

/-- Neither the log nor the ids of the table change. -/
theorem grows_of_ids (hlog : s'.log = s.log) (hids : s'.ids = s.ids) : Grows asked s s' :=
  ⟨[], by rw [hlog, List.append_nil], fun id hid => .inl (hids ▸ hid), by simp, by simp⟩

theorem Grows.refl (s : State) : Grows asked s s := grows_of_ids rfl rfl

theorem grows_push (s : State) (frame : Frame) : Grows asked s (s.push frame) :=
  grows_of_ids rfl rfl

theorem grows_update (s : State) (session : Session) : Grows asked s (s.update session) :=
  grows_of_ids rfl (update_ids s session)

/-- Facts that tell nothing of who came or was authorized. -/
def Fact.Quiet : Fact → Prop
  | .created _ _ | .authorized _ _ true => False
  | _ => True

theorem grows_record (s : State) {fact : Fact} (h : fact.Quiet) :
    Grows asked s (s.record fact) := by
  refine ⟨[fact], rfl, fun _ hid => .inl hid, fun id peer hpeer => ?_,
    fun serial request hasked => ?_⟩
  · cases List.mem_singleton.mp hpeer
    cases h
  · cases List.mem_singleton.mp hasked
    cases h

/-! ## Operations -/

theorem grows_closeSession (s : State) (id : ℕ) (notify : Bool) (closing : Option (Bytes × ℕ)) :
    Grows asked s (closeSession s id notify closing) := by
  unfold closeSession
  split
  · exact Grows.refl s
  · refine ⟨[.closed id], rfl, fun other hother => ?_, by simp, by simp⟩
    by_cases heq : other = id
    · exact .inr (by simp [heq])
    · obtain ⟨session, hsession, rfl⟩ := List.mem_map.mp hother
      exact .inl (List.mem_map_of_mem (List.mem_filter.mpr ⟨hsession, by simpa using heq⟩))

theorem grows_closeComponentSession (s : State) (component : Bytes) (generation : ℕ) :
    Grows asked s (closeComponentSession s component generation) := by
  unfold closeComponentSession
  split
  · exact Grows.refl s
  · exact grows_closeSession s _ _ _

theorem grows_queuePacket (broker : Broker) (s : State) (id : ℕ) (packet : Bytes) (send : Send) :
    Grows asked s (queuePacket broker s id packet send).2 := by
  unfold queuePacket
  split
  · exact Grows.refl s
  · split
    · exact grows_closeSession s _ _ _
    · exact grows_update s _

theorem grows_reply (broker : Broker) (s : State) (id : ℕ) (packet : Bytes) (send : Send) :
    Grows asked s (reply broker s id packet send) :=
  grows_queuePacket broker s id packet send

theorem grows_tryReply (s : State) (id requestId : ℕ) (packet : Bytes) (send failedSend : Send)
    (what : Bytes) :
    Grows asked s (tryReply broker s id requestId packet send failedSend what) := by
  have hqueued : Grows asked s (queuePacket broker s id packet send).2 :=
    grows_queuePacket broker s id packet send
  unfold tryReply
  split
  · rename_i heq
    rw [heq] at hqueued
    exact hqueued.trans (grows_reply broker _ _ _ _)
  · rename_i heq
    rw [heq] at hqueued
    exact hqueued

theorem grows_refuse (s : State) (serial id : ℕ) (notify : Bool) :
    Grows asked s (refuse s serial id notify) :=
  (grows_closeSession s id notify none).trans (grows_record _ (by trivial))

theorem grows_routeMessage (s : State) (serial id : ℕ) (message : DecodedMessage)
    (call : Option (ℕ × ℕ)) (send failedSend : Send) (what : Bytes) :
    Grows asked s (routeMessage broker s serial id message call send failedSend what) := by
  unfold routeMessage
  split
  · exact Grows.refl s
  split_ifs
  · exact (grows_record s (by trivial)).trans (grows_push _ _)
  split
  · exact Grows.refl s
  dsimp only
  split
  · exact grows_tryReply s _ _ _ _ _ _
  · exact grows_reply broker s _ _ _

theorem grows_handleCall (s : State) (serial id : ℕ) (message : DecodedMessage) (send : Send) :
    Grows asked s (handleCall broker s serial id message send) := by
  unfold handleCall
  split
  · split_ifs
    · exact grows_push s _
    · exact grows_reply broker s _ _ _
  · exact Grows.refl s

theorem grows_finishAuthorize (s : State) (serial id : ℕ) (message : DecodedMessage)
    (request : AccessRequest) (answer : Bool) (send failedSend : Send) (what : Bytes)
    (hanswer : answer = true → asked serial request) :
    Grows asked s
      (finishAuthorize broker s serial id message request answer send failedSend what) := by
  have hrecord : Grows asked s (s.record (.authorized serial request answer)) := by
    refine ⟨[.authorized serial request answer], rfl, fun _ hid => .inl hid, by simp, ?_⟩
    intro other asking hasked
    cases List.mem_singleton.mp hasked
    exact hanswer rfl
  unfold finishAuthorize
  dsimp only
  refine hrecord.trans ?_
  split
  · exact grows_reply broker _ _ _ _
  split
  · split_ifs
    · exact (grows_record _ (by trivial)).trans (grows_push _ _)
    · exact grows_tryReply _ _ _ _ _ _ _
  split
  · split
    · exact grows_tryReply _ _ _ _ _ _ _
    · split_ifs
      · exact (grows_record _ (by trivial)).trans (grows_push _ _)
      · exact grows_tryReply _ _ _ _ _ _ _
  · exact grows_routeMessage _ _ _ _ _ _ _ _

theorem grows_finishOperation (s : State) (id requestId : ℕ) (component : Bytes)
    (answer : OperationReply) (send failedSend : Send) (what : Bytes) :
    Grows asked s
      (finishOperation broker s id requestId component answer send failedSend what) := by
  unfold finishOperation
  split_ifs <;> exact grows_tryReply s _ _ _ _ _ _

theorem grows_acceptHello (s : State) (session : Session) (message : DecodedMessage)
    (send : Send) : Grows asked s (acceptHello broker s session message send) := by
  unfold acceptHello
  dsimp only
  have hgreeted : Grows asked s ((s.update { session with handshake := .welcomed }).record
      (.greeted session.id message)) :=
    (grows_update s _).trans (grows_record _ (by trivial))
  have hqueued := hgreeted.trans (grows_queuePacket broker _ session.id
    (componentWelcome session.expectedComponent session.expectedGeneration broker.runtimeDir) send)
  split
  · rename_i heq
    rw [heq] at hqueued
    exact hqueued
  · rename_i heq
    rw [heq] at hqueued
    exact hqueued.trans (grows_record _ (by trivial))

theorem grows_acceptReady (s : State) (session : Session) :
    Grows asked s (acceptReady broker s session) := by
  have hready : Grows asked s ((s.update { session with handshake := .componentReady }).record
      (.ready session.id)) :=
    (grows_update s _).trans (grows_record _ (by trivial))
  unfold acceptReady
  dsimp only
  split_ifs
  · exact (hready.trans (grows_record _ (by trivial))).trans (grows_push _ _)
  · exact hready

theorem grows_handlePacket (s : State) (id : ℕ) (message : DecodedMessage) (send : Send) :
    Grows asked s (handlePacket broker s id message send) := by
  unfold handlePacket
  split
  · exact Grows.refl s
  dsimp only
  have hreceived : Grows asked s { s with
      serial := s.serial + 1
      log := s.log ++ [.received s.serial id message] } :=
    ⟨[.received s.serial id message], rfl, fun _ hid => .inl hid, by simp, by simp⟩
  refine hreceived.trans ?_
  split
  · split_ifs
    · exact grows_reply broker _ _ _ _
    · exact grows_refuse _ _ _ _
    · exact grows_handleCall _ _ _ _ _
  · split
    · split_ifs
      · exact grows_refuse _ _ _ _
      · exact grows_acceptHello _ _ _ _
    · split_ifs
      · exact grows_routeMessage _ _ _ _ _ _ _ _
      · exact grows_refuse _ _ _ _
      · exact grows_acceptReady _ _
    · split_ifs
      · exact grows_handleCall _ _ _ _ _
      · exact grows_routeMessage _ _ _ _ _ _ _ _
      · exact grows_refuse _ _ _ _

theorem grows_addSession (broker : Broker) (s : State) (peer : PeerIdentity)
    (handshake : HandshakeState) (watchFails : Bool) :
    Grows asked s (addSession broker s peer handshake watchFails).2 := by
  unfold addSession
  split
  · exact Grows.refl s
  split
  · exact grows_of_ids rfl rfl
  · refine ⟨[.created s.nextSessionId peer], rfl, fun id hid => .inl ?_,
      fun id other hother => .inl ?_, by simp⟩
    · exact List.mem_map.mpr ((List.mem_map.mp hid).imp fun session h =>
        ⟨List.mem_append_left _ h.1, h.2⟩)
    · cases List.mem_singleton.mp hother
      exact List.mem_map.mpr ⟨_, List.mem_append_right _ (List.mem_singleton_self _), rfl⟩

theorem grows_accept (s : State) (pid : ℤ) (uid gid : ℕ) (watchFails : Bool) (send : Send) :
    Grows asked s (accept broker s pid uid gid watchFails send) := by
  have hadded : Grows asked s (addSession broker s
      ⟨.publicControl, pid, uid, gid, ascii "public", 0⟩ .publicReady watchFails).2 :=
    grows_addSession broker s _ _ _
  unfold accept
  split
  · rename_i heq
    rw [heq] at hadded
    exact hadded
  · rename_i id added heq
    rw [heq] at hadded
    have hqueued := hadded.trans (grows_queuePacket broker added id publicWelcome send)
    split
    · rename_i hwelcome
      rw [hwelcome] at hqueued
      exact hqueued.trans (grows_closeSession _ _ _ _)
    · rename_i hwelcome
      rw [hwelcome] at hqueued
      exact hqueued

theorem grows_flushSession (s : State) (id : ℕ) (answers : List SendAnswer) :
    Grows asked s (flushSession broker s id answers) := by
  unfold flushSession
  split
  · exact Grows.refl s
  · split
    · exact grows_closeSession s _ _ _
    · exact grows_update s _

theorem grows_unwind (s : State) (frame : Frame) (standard : Bool) (what : Bytes) (send : Send) :
    Grows asked s (unwind broker s frame standard what send) := by
  unfold unwind
  split
  · exact grows_finishAuthorize _ _ _ _ _ _ _ _ _ (by simp)
  iterate 3
    split_ifs
    · exact grows_reply broker s _ _ _
    · exact Grows.refl s
  exact Grows.refl s

/-! ## Steps -/

theorem grows_pop (s : State) (stack : List Frame) : Grows asked s { s with stack := stack } :=
  grows_of_ids rfl rfl

/-- The answer that a label gives, if it gives one, is to what was asked. -/
def Answers (asked : ℕ → AccessRequest → Prop) (s : State) : Label → Prop
  | .authorizeReturns true _ _ _ => ∀ serial id message request rest,
    s.stack = .authorizing serial id message request :: rest → asked serial request
  | _ => True

theorem step_grows {label : Label} (hanswers : Answers asked s label)
    (h : step broker s label = some s') : Grows asked s s' := by
  cases label with
  | accept pid uid gid watchFails send =>
    cases h
    exact grows_accept s pid uid gid watchFails send
  | createComponentSession component generation pid uid gid watchFails =>
    simp only [step] at h
    split_ifs at h
    · cases h
      exact Grows.refl s
    · cases h
      exact grows_addSession broker s _ _ _
  | closeComponentSession component generation =>
    cases h
    exact grows_closeComponentSession s component generation
  | sendToSession id packet send =>
    cases h
    exact grows_reply broker s id packet send
  | flush id answers =>
    cases h
    exact grows_flushSession s id answers
  | packet id message send =>
    cases h
    exact grows_handlePacket s id message send
  | hangUp id =>
    cases h
    exact grows_closeSession s id true none
  | authorizeReturns answer send failedSend what =>
    simp only [step] at h
    split at h
    · rename_i hstack
      cases h
      refine (grows_pop s _).trans (grows_finishAuthorize _ _ _ _ _ _ _ _ _ fun htrue => ?_)
      subst htrue
      exact hanswers _ _ _ _ _ hstack
    · cases h
  | listReturns components send failedSend what =>
    simp only [step] at h
    split at h
    · cases h
      exact (grows_pop s _).trans (grows_tryReply _ _ _ _ _ _ _)
    · cases h
  | operationReturns answer send failedSend what =>
    simp only [step] at h
    split at h
    · cases h
      exact (grows_pop s _).trans (grows_finishOperation _ _ _ _ _ _ _ _)
    · cases h
  | returns =>
    simp only [step] at h
    split at h
    iterate 3
      cases h
      exact grows_pop s _
    · rename_i rest _
      cases h
      refine (grows_pop s rest).trans ?_
      split
      · exact grows_push _ _
      · exact grows_closeComponentSession _ _ _
      · exact Grows.refl _
    · cases h
  | throws standard what send =>
    simp only [step] at h
    split at h
    · cases h
      exact (grows_pop s _).trans (grows_unwind _ _ _ _ _)
    · cases h

/-- Whom the log knows and does not say to be closed is in the table. -/
def Complete (s : State) : Prop :=
  ∀ id peer, .created id peer ∈ s.log → .closed id ∉ s.log → id ∈ s.ids

theorem Grows.complete (h : Grows asked s s') (hs : Complete s) : Complete s' := by
  obtain ⟨facts, hlog, hkept, hcreated, -⟩ := h
  intro id peer hpeer hopen
  rw [hlog] at hpeer hopen
  have hnew : .closed id ∉ facts := fun h => hopen (List.mem_append_right _ h)
  rcases List.mem_append.mp hpeer with hbefore | hafter
  · have hid := hs id peer hbefore fun h => hopen (List.mem_append_left _ h)
    exact (hkept id hid).resolve_right hnew
  · exact (hcreated id peer hafter).resolve_right hnew

end MsysCore.Native.Handshake
