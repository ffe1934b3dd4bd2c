import MsysCore.Lib.History
import MsysCore.Native.Handshake

/-!
# The order of a handshake

What every run of the broker keeps: a component is reported ready once, after its hello and
its welcome, and what it sends is routed or carried out only when the packets before it and
the answer of `authorize` allow it.
-/

namespace MsysCore.Native.Handshake

open OutputQueue History Runs

/-! ## What a fact needs -/

/-- `authorize` answered `true` for the call, with its own peer, target and method. -/
def Authorized (log : List Fact) (serial id : ℕ) (peer : PeerIdentity)
    (message : DecodedMessage) : Prop :=
  .created id peer ∈ log ∧ .received serial id message ∈ log ∧ ∃ requestId,
    message.requestId = some requestId ∧
      .authorized serial ⟨peer, requestId, message.target, message.method⟩ true ∈ log

/-- The session was closed, or one of its packets was refused. -/
def Over (log : List Fact) (id : ℕ) : Prop :=
  .closed id ∈ log ∨ ∃ serial, .refused serial id ∈ log

def Allowed (log : List Fact) : Fact → Prop
  | .componentReady id component generation =>
    (∃ peer, .created id peer ∈ log ∧ peer.kind = .component ∧ peer.source = component ∧
      peer.generation = generation) ∧
    (∃ message, .greeted id message ∈ log ∧ message.type = .hello ∧
      message.component = component ∧ message.generation = some generation) ∧
    .welcomed id ∈ log ∧ ∀ c g, .componentReady id c g ∉ log
  | .routed serial id peer message =>
    .created id peer ∈ log ∧ .received serial id message ∈ log ∧ ¬ Over log id ∧
    (peer.kind = .component → .ready id ∈ log ∨ (message.type = .subscribe ∧ .welcomed id ∈ log)) ∧
    (peer.kind = .publicControl → message.type = .call) ∧
    (message.type = .call → Authorized log serial id peer message)
  | .listed serial id message | .lifecycle serial id message =>
    message.type = .call ∧ ∃ peer, Authorized log serial id peer message
  | .received serial _ _ => ∀ id message, .received serial id message ∉ log
  | _ => True

/-- A packet that its session may send now: on a public session a bare hello or a call, on a
component session first the hello it is expected to send, then subscriptions until `ready`,
then calls, subscriptions, events and answers. -/
def InOrder (log : List Fact) (id : ℕ) (peer : PeerIdentity) (message : DecodedMessage) : Prop :=
  match peer.kind with
  | .publicControl =>
    (message.type = .hello ∧ message.component = [] ∧ message.generation = none) ∨
      message.type = .call
  | .component =>
    (.ready id ∈ log ∧ message.type ∈ [.call, .subscribe, .event, .returned, .error]) ∨
      (.ready id ∉ log ∧ (∃ hello, .greeted id hello ∈ log) ∧
        (message.type = .subscribe ∨ message.type = .ready)) ∨
      (.ready id ∉ log ∧ (∀ hello, .greeted id hello ∉ log) ∧ message.type = .hello ∧
        message.component = peer.source ∧ message.generation = some peer.generation)

/-! ## The invariant -/

def NotReady (log : List Fact) (id : ℕ) : Prop :=
  .ready id ∉ log ∧ ∀ c g, .componentReady id c g ∉ log

/-- The hello of the component was accepted. -/
def Greeted (log : List Fact) (session : Session) : Prop :=
  ∃ message, .greeted session.id message ∈ log ∧ message.type = .hello ∧
    message.component = session.peer.source ∧
    message.generation = some session.peer.generation

/-- How far the handshake of a session went, by the facts so far. -/
def Stage (log : List Fact) (session : Session) : Prop :=
  .created session.id session.peer ∈ log ∧
    (session.peer.kind = .component →
      session.expectedComponent = session.peer.source ∧
      session.expectedGeneration = session.peer.generation ∧
      match session.handshake with
      | .publicReady => False
      | .awaitingHello =>
        NotReady log session.id ∧ ∀ message, .greeted session.id message ∉ log
      | .welcomed => NotReady log session.id ∧ Greeted log session ∧ .welcomed session.id ∈ log
      | .componentReady => .ready session.id ∈ log)

/-- A call that waits for `authorize` may be made by its session. -/
def FrameInv (log : List Fact) : Frame → Prop
  | .authorizing serial id message request =>
    .created id request.peer ∈ log ∧ .received serial id message ∈ log ∧
      message.requestId = some request.requestId ∧ message.type = .call ∧
      request.target = message.target ∧ request.method = message.method ∧
      (request.peer.kind = .component → .ready id ∈ log)
  | _ => True

/-- The session a fact is about. -/
def Fact.session : Fact → Option ℕ
  | .created id _ | .closed id | .received _ id _ | .refused _ id | .greeted id _ | .welcomed id
  | .ready id | .componentReady id _ _ | .listed _ id _ | .lifecycle _ id _ | .routed _ id _ _ =>
    some id
  | .authorized _ _ _ => none

/-- Facts that no rule denies. -/
def Fact.Plain : Fact → Prop
  | .created _ _ | .closed _ | .received _ _ _ | .refused _ _ | .greeted _ _ | .ready _
  | .componentReady _ _ _ => False
  | _ => True

/-- The invariant, with the sessions of `exempt` in the middle of a change. -/
structure Inv (exempt : ℕ → Prop) (s : State) : Prop where
  below : ∀ session ∈ s.sessions, session.id < s.nextSessionId
  distinct : s.sessions.Pairwise fun a b => a.id ≠ b.id
  mentioned : ∀ fact ∈ s.log, ∀ id, fact.session = some id → id < s.nextSessionId
  createdOnce : ∀ id peer peer', .created id peer ∈ s.log → .created id peer' ∈ s.log →
    peer = peer'
  staged : ∀ session ∈ s.sessions, ¬ exempt session.id → Stage s.log session
  gone : ∀ id, Over s.log id → ∀ session ∈ s.sessions, session.id ≠ id
  numbered : ∀ serial id message, .received serial id message ∈ s.log → serial < s.serial
  frames : ∀ frame ∈ s.stack, FrameInv s.log frame
  justified : Justified Allowed s.log

/-- No session is in the middle of a change. -/
abbrev Settled : State → Prop := Inv fun _ => False

variable {broker : Broker} {s s' : State} {exempt : ℕ → Prop}

theorem settled_initial : Settled {} where
  below := by
    intro session h
    cases h
  distinct := List.Pairwise.nil
  mentioned := by
    intro fact h
    cases h
  createdOnce := by
    intro id peer peer' h
    cases h
  staged := by
    intro session h
    cases h
  gone := by
    intro id h session hsession
    cases hsession
  numbered := by
    intro serial id message h
    cases h
  frames := by
    intro frame h
    cases h
  justified := justified_nil

/-! ## More facts -/

variable {log : List Fact} {fact : Fact}

theorem FrameInv.append {frame : Frame} (h : FrameInv log frame) (facts : List Fact) :
    FrameInv (log ++ facts) frame := by
  cases frame with
  | authorizing serial id message request =>
    obtain ⟨hcreated, hreceived, hid, htype, htarget, hmethod, hready⟩ := h
    exact ⟨List.mem_append_left _ hcreated, List.mem_append_left _ hreceived, hid, htype, htarget,
      hmethod, fun hkind => List.mem_append_left _ (hready hkind)⟩
  | _ => trivial

theorem not_mem_append {other : Fact} (h : other ∉ log) (hne : other ≠ fact) :
    other ∉ log ++ [fact] := by
  intro hmem
  rcases List.mem_append.mp hmem with hold | hnew
  · exact h hold
  · exact hne (List.mem_singleton.mp hnew)

theorem NotReady.append {id : ℕ} (h : NotReady log id) (hready : fact ≠ .ready id)
    (hcomponent : ∀ c g, fact ≠ .componentReady id c g) : NotReady (log ++ [fact]) id :=
  ⟨not_mem_append h.1 hready.symm, fun c g => not_mem_append (h.2 c g) (hcomponent c g).symm⟩

theorem Greeted.append {session : Session} (h : Greeted log session) :
    Greeted (log ++ [fact]) session := by
  obtain ⟨message, hgreeted, hmessage⟩ := h
  exact ⟨message, List.mem_append_left _ hgreeted, hmessage⟩

/-- A fact that neither greets the session nor makes it ready leaves its stage. -/
theorem Stage.append {session : Session} (h : Stage log session)
    (hgreeted : ∀ message, fact ≠ .greeted session.id message) (hready : fact ≠ .ready session.id)
    (hcomponent : ∀ c g, fact ≠ .componentReady session.id c g) :
    Stage (log ++ [fact]) session := by
  obtain ⟨hcreated, hstage⟩ := h
  refine ⟨List.mem_append_left _ hcreated, fun hkind => ?_⟩
  obtain ⟨hname, hgeneration, hstage⟩ := hstage hkind
  refine ⟨hname, hgeneration, ?_⟩
  cases hhandshake : session.handshake with
  | publicReady => simp only [hhandshake] at hstage
  | awaitingHello =>
    simp only [hhandshake] at hstage ⊢
    exact ⟨hstage.1.append hready hcomponent,
      fun message => not_mem_append (hstage.2 message) (hgreeted message).symm⟩
  | welcomed =>
    simp only [hhandshake] at hstage ⊢
    exact ⟨hstage.1.append hready hcomponent, hstage.2.1.append,
      List.mem_append_left _ hstage.2.2⟩
  | componentReady =>
    simp only [hhandshake] at hstage ⊢
    exact List.mem_append_left _ hstage

theorem Stage.append_plain {session : Session} (h : Stage log session) (hplain : fact.Plain) :
    Stage (log ++ [fact]) session := by
  apply h.append
  · rintro message rfl
    exact hplain
  · rintro rfl
    exact hplain
  · rintro c g rfl
    exact hplain

theorem over_append {id : ℕ} (hclosed : fact ≠ .closed id)
    (hrefused : ∀ serial, fact ≠ .refused serial id) :
    Over (log ++ [fact]) id ↔ Over log id := by
  unfold Over
  simp only [List.mem_append, List.mem_singleton]
  constructor
  · rintro ((h | h) | ⟨serial, h | h⟩)
    · exact .inl h
    · exact absurd h.symm hclosed
    · exact .inr ⟨serial, h⟩
    · exact absurd h.symm (hrefused serial)
  · rintro (h | ⟨serial, h⟩)
    · exact .inl (.inl h)
    · exact .inr ⟨serial, .inl h⟩

/-- Recording a fact that creates no session. -/
theorem Inv.recordAs {exempt' : ℕ → Prop} (h : Inv exempt s)
    (hcreated : ∀ id peer, fact ≠ .created id peer)
    (hreceived : ∀ serial id message, fact = .received serial id message → serial < s.serial)
    (hallowed : Allowed s.log fact) (hid : ∀ id, fact.session = some id → id < s.nextSessionId)
    (hstaged : ∀ session ∈ s.sessions, ¬ exempt' session.id → Stage (s.log ++ [fact]) session)
    (hgone : ∀ id, Over (s.log ++ [fact]) id → ∀ session ∈ s.sessions, session.id ≠ id) :
    Inv exempt' (s.record fact) where
  below := h.below
  distinct := h.distinct
  mentioned := by
    intro other hother
    rcases List.mem_append.mp hother with hold | hnew
    · exact h.mentioned other hold
    · rw [List.mem_singleton.mp hnew]
      exact hid
  createdOnce := by
    have hold : ∀ id peer, .created id peer ∈ s.log ++ [fact] → .created id peer ∈ s.log := by
      intro id peer hmem
      rcases List.mem_append.mp hmem with hold | hnew
      · exact hold
      · exact absurd (List.mem_singleton.mp hnew).symm (hcreated id peer)
    intro id peer peer' hpeer hpeer'
    exact h.createdOnce id peer peer' (hold id peer hpeer) (hold id peer' hpeer')
  staged := hstaged
  gone := hgone
  numbered := by
    intro serial id message hmem
    rcases List.mem_append.mp hmem with hold | hnew
    · exact h.numbered serial id message hold
    · exact hreceived serial id message (List.mem_singleton.mp hnew).symm
  frames := fun frame hframe => (h.frames frame hframe).append [fact]
  justified := h.justified.append hallowed

/-- A fact that closes nothing leaves what is gone. -/
theorem Inv.gone_append (h : Inv exempt s) (hclosed : ∀ id, fact ≠ .closed id)
    (hrefused : ∀ serial id, fact ≠ .refused serial id) (id : ℕ) (hover : Over (s.log ++ [fact]) id) :
    ∀ session ∈ s.sessions, session.id ≠ id :=
  h.gone id ((over_append (hclosed id) fun serial => hrefused serial id).mp hover)

theorem Inv.record (h : Inv exempt s) (hplain : fact.Plain) (hallowed : Allowed s.log fact)
    (hid : ∀ id, fact.session = some id → id < s.nextSessionId) : Inv exempt (s.record fact) := by
  refine h.recordAs ?_ ?_ hallowed hid ?_ (h.gone_append ?_ ?_)
  · rintro id peer rfl
    exact hplain
  · rintro serial id message rfl
    exact hplain.elim
  · intro session hsession hexempt
    exact (h.staged session hsession hexempt).append_plain hplain
  · rintro id rfl
    exact hplain
  · rintro serial id rfl
    exact hplain

theorem Inv.nextSerial (h : Inv exempt s) : Inv exempt { s with serial := s.serial + 1 } :=
  { h with numbered := fun serial id message hmem =>
      Nat.lt_succ_of_lt (h.numbered serial id message hmem) }

theorem Inv.push (h : Inv exempt s) {frame : Frame} (hframe : FrameInv s.log frame) :
    Inv exempt (s.push frame) := by
  refine { h with frames := ?_ }
  intro other hother
  rcases List.mem_cons.mp hother with rfl | hold
  · exact hframe
  · exact h.frames other hold

/-- The top frame is taken off the stack. -/
theorem Inv.pop (h : Inv exempt s) {frame : Frame} {stack : List Frame}
    (hstack : s.stack = frame :: stack) :
    FrameInv s.log frame ∧ Inv exempt { s with stack := stack } := by
  have hframes := h.frames
  rw [hstack] at hframes
  exact ⟨hframes frame List.mem_cons_self,
    { h with frames := fun other hother => hframes other (List.mem_cons_of_mem frame hother) }⟩

theorem findSession_mem {id : ℕ} {session : Session} (h : s.findSession id = some session) :
    session ∈ s.sessions ∧ session.id = id :=
  ⟨List.mem_of_find?_eq_some h, by simpa using List.find?_some h⟩

theorem findSession_eq_none {id : ℕ} (h : ∀ session ∈ s.sessions, session.id ≠ id) :
    s.findSession id = none :=
  List.find?_eq_none.mpr fun session hsession => by simpa using h session hsession

theorem Inv.mono {exempt' : ℕ → Prop} (h : Inv exempt s)
    (himp : ∀ id, exempt id → exempt' id) : Inv exempt' s :=
  { h with staged := fun session hsession hexempt =>
      h.staged session hsession fun hid => hexempt (himp _ hid) }

/-! ## Closing -/

/-- A close ends the change of the session it removes. -/
theorem Inv.closeSession {id : ℕ} (h : Inv (fun other => other = id) s) (notify : Bool)
    (closing : Option (Bytes × ℕ)) {session : Session} (hfind : s.findSession id = some session) :
    Settled (closeSession s id notify closing) := by
  obtain ⟨hsession, hid⟩ := findSession_mem hfind
  unfold Handshake.closeSession
  rw [hfind]
  exact
    { below := fun other hother => h.below other (List.mem_of_mem_filter hother)
      distinct := h.distinct.sublist List.filter_sublist
      mentioned := by
        intro fact hfact
        rcases List.mem_append.mp hfact with hold | hnew
        · exact h.mentioned fact hold
        · rw [List.mem_singleton.mp hnew]
          intro other hother
          cases hother
          exact hid ▸ h.below session hsession
      createdOnce := by
        intro other peer peer' hpeer hpeer'
        simp only [List.mem_append, List.mem_singleton, reduceCtorEq, or_false] at hpeer hpeer'
        exact h.createdOnce other peer peer' hpeer hpeer'
      staged := by
        intro other hother _
        obtain ⟨hother, hne⟩ := List.mem_filter.mp hother
        exact (h.staged other hother (by simpa using hne)).append (by simp) (by simp) (by simp)
      gone := by
        intro other hover session' hsession'
        obtain ⟨hold, hne⟩ := List.mem_filter.mp hsession'
        by_cases heq : other = id
        · rw [heq]
          simpa using hne
        · refine h.gone other ((over_append ?_ ?_).mp hover) session' hold
          · simpa using Ne.symm heq
          · simp
      numbered := by
        intro serial other message hmem
        simp only [List.mem_append, List.mem_singleton, reduceCtorEq, or_false] at hmem
        exact h.numbered serial other message hmem
      frames := by
        intro frame hframe
        rcases List.mem_cons.mp hframe with rfl | hold
        · trivial
        · exact (h.frames frame hold).append _
      justified := h.justified.append trivial }

theorem Inv.settle {id : ℕ} (h : Settled s) : Inv (fun other => other = id) s :=
  h.mono fun _ hfalse => hfalse.elim

theorem Settled.closeSession (h : Settled s) (id : ℕ) (notify : Bool)
    (closing : Option (Bytes × ℕ)) : Settled (closeSession s id notify closing) := by
  cases hfind : s.findSession id with
  | none =>
    rw [Handshake.closeSession, hfind]
    exact h
  | some session => exact h.settle.closeSession notify closing hfind

theorem findSession_closeSession (s : State) (id : ℕ) (notify : Bool)
    (closing : Option (Bytes × ℕ)) : (closeSession s id notify closing).findSession id = none := by
  unfold closeSession
  cases hfind : s.findSession id with
  | none => exact hfind
  | some session =>
    apply findSession_eq_none
    intro other hother
    simpa using (List.mem_filter.mp hother).2

/-! ## Replacing a session -/

theorem mem_update {session other : Session} (h : other ∈ (s.update session).sessions) :
    other = session ∨ (other ∈ s.sessions ∧ other.id ≠ session.id) := by
  obtain ⟨old, hold, rfl⟩ := List.mem_map.mp h
  by_cases heq : old.id = session.id
  · exact .inl (if_pos heq)
  · rw [if_neg heq]
    exact .inr ⟨hold, heq⟩

theorem update_ids (s : State) (session : Session) :
    (s.update session).sessions.map Session.id = s.sessions.map Session.id := by
  rw [State.update, List.map_map]
  apply List.map_congr_left
  intro other _
  by_cases heq : other.id = session.id <;> simp [heq]

theorem Inv.update (h : Inv exempt s) {session : Session} (hmem : session.id ∈ s.sessions.map Session.id)
    (hstage : ¬ exempt session.id → Stage s.log session) : Inv exempt (s.update session) where
  below := by
    intro other hother
    have hid := List.mem_map_of_mem (f := Session.id) hother
    rw [update_ids] at hid
    obtain ⟨old, hold, heq⟩ := List.mem_map.mp hid
    exact heq ▸ h.below old hold
  distinct := by
    rw [← List.pairwise_map (f := Session.id) (R := fun a b => a ≠ b), update_ids]
    exact List.pairwise_map.mpr h.distinct
  mentioned := h.mentioned
  createdOnce := h.createdOnce
  staged := by
    intro other hother hexempt
    rcases mem_update hother with rfl | ⟨hold, -⟩
    · exact hstage hexempt
    · exact h.staged other hold hexempt
  gone := by
    intro id hover other hother
    have hid := List.mem_map_of_mem (f := Session.id) hother
    rw [update_ids] at hid
    obtain ⟨old, hold, heq⟩ := List.mem_map.mp hid
    exact heq ▸ h.gone id hover old hold
  numbered := h.numbered
  frames := h.frames
  justified := h.justified

theorem findSession_update {session : Session} {id : ℕ} {old : Session}
    (hfind : s.findSession id = some old) (hid : session.id = id) :
    (s.update session).findSession id = some session := by
  obtain ⟨sessions, _, _, _, _⟩ := s
  simp only [State.findSession, State.update] at hfind ⊢
  induction sessions with
  | nil => cases hfind
  | cons other rest ih =>
    by_cases heq : other.id = id
    · simp [heq, hid]
    · have hrest : rest.find? (fun session => session.id = id) = some old := by
        simpa [heq] using hfind
      simpa [heq, hid] using ih hrest

/-! ## Output -/

/-- A packet closes its session or changes nothing but the output of it. -/
theorem queuePacket_cases (broker : Broker) {id : ℕ} {session : Session} (hfind : s.findSession id = some session)
    (packet : Bytes) (send : Send) :
    (∃ notify, queuePacket broker s id packet send =
      (some .closed, closeSession s id notify none)) ∨
    ∃ result output, result ≠ .closed ∧ queuePacket broker s id packet send =
      (some result, s.update { session with output := output }) := by
  unfold queuePacket
  simp only [hfind]
  split
  · exact .inl ⟨_, rfl⟩
  · refine .inr ⟨_, _, ?_, rfl⟩
    split_ifs <;> simp

theorem Settled.setOutput (h : Settled s) {id : ℕ} {session : Session}
    (hfind : s.findSession id = some session) (output : OutputSession) :
    Settled (s.update { session with output := output }) := by
  obtain ⟨hsession, -⟩ := findSession_mem hfind
  have hstage := h.staged session hsession not_false
  have hmem : session.id ∈ s.sessions.map Session.id := List.mem_map_of_mem hsession
  exact Inv.update h hmem fun _ => hstage

theorem Settled.queuePacket (broker : Broker) (h : Settled s) (id : ℕ) (packet : Bytes) (send : Send) :
    Settled (queuePacket broker s id packet send).2 := by
  cases hfind : s.findSession id with
  | none =>
    rw [Handshake.queuePacket, hfind]
    exact h
  | some session =>
    rcases queuePacket_cases broker hfind packet send with
      ⟨notify, heq⟩ | ⟨result, output, -, heq⟩
    · rw [heq]
      exact Settled.closeSession h id notify none
    · rw [heq]
      exact Settled.setOutput h hfind output

theorem Settled.reply (h : Settled s) (id : ℕ) (packet : Bytes) (send : Send) :
    Settled (reply broker s id packet send) :=
  Settled.queuePacket broker h id packet send

theorem Settled.tryReply (h : Settled s) (id requestId : ℕ) (packet : Bytes)
    (send failedSend : Send) (what : Bytes) :
    Settled (tryReply broker s id requestId packet send failedSend what) := by
  unfold Handshake.tryReply
  have hqueued := Settled.queuePacket broker h id packet send
  split
  · rename_i queued heq
    rw [heq] at hqueued
    exact Settled.reply hqueued id _ failedSend
  · rename_i result queued _ heq
    rw [heq] at hqueued
    exact hqueued

/-! ## Routing -/

theorem Settled.refuse (h : Settled s) {serial id : ℕ} (notify : Bool) {session : Session}
    (hfind : s.findSession id = some session) : Settled (refuse s serial id notify) := by
  obtain ⟨hsession, hid⟩ := findSession_mem hfind
  have hclosed : Settled (Handshake.closeSession s id notify none) :=
    Settled.closeSession h id notify none
  have hnext : (Handshake.closeSession s id notify none).nextSessionId = s.nextSessionId := by
    rw [Handshake.closeSession, hfind]
  refine hclosed.recordAs (by simp) (by simp) trivial ?_ ?_ ?_
  · intro other hother
    cases hother
    rw [hnext, ← hid]
    exact h.below session hsession
  · intro other hother _
    exact (hclosed.staged other hother not_false).append (by simp) (by simp) (by simp)
  · intro other hover other' hother'
    by_cases heq : other = id
    · subst heq
      have hnone := findSession_closeSession s other notify none
      have habsent := List.find?_eq_none.mp hnone other' hother'
      simpa using habsent
    · have hold : Over (Handshake.closeSession s id notify none).log other := by
        refine (over_append (by simp) ?_).mp hover
        intro n hrefused
        cases hrefused
        exact heq rfl
      exact hclosed.gone other hold other' hother'

theorem Settled.routeMessage (h : Settled s) {serial id : ℕ} {message : DecodedMessage}
    (call : Option (ℕ × ℕ)) (send failedSend : Send) (what : Bytes)
    (hreceived : .received serial id message ∈ s.log)
    (hcomponent : ∀ session, s.findSession id = some session → session.peer.kind = .component →
      .ready id ∈ s.log ∨ (message.type = .subscribe ∧ .welcomed id ∈ s.log))
    (hpublic : ∀ session, s.findSession id = some session →
      session.peer.kind = .publicControl → message.type = .call)
    (hcall : ∀ session, s.findSession id = some session → message.type = .call →
      Authorized s.log serial id session.peer message) :
    Settled (routeMessage broker s serial id message call send failedSend what) := by
  unfold Handshake.routeMessage
  cases hfind : s.findSession id with
  | none => exact h
  | some session =>
    obtain ⟨hsession, hid⟩ := findSession_mem hfind
    dsimp only
    split_ifs
    · have hstage := h.staged session hsession not_false
      refine Inv.push (Inv.record h ?_ ?_ ?_) ?_
      · trivial
      · refine ⟨hid ▸ hstage.1, hreceived, ?_, hcomponent session hfind, hpublic session hfind,
          hcall session hfind⟩
        intro hover
        exact h.gone id hover session hsession hid
      · intro other hother
        cases hother
        exact hid ▸ h.below session hsession
      · trivial
    · cases message.requestId with
      | none => exact h
      | some requestId =>
        cases call with
        | none => exact Settled.reply h id _ send
        | some _ => exact Settled.tryReply h id requestId _ send failedSend what

theorem Settled.handleCall (h : Settled s) {serial id : ℕ} {message : DecodedMessage}
    (send : Send) (hreceived : .received serial id message ∈ s.log) (htype : message.type = .call)
    (hready : ∀ session, s.findSession id = some session → session.peer.kind = .component →
      .ready id ∈ s.log) :
    Settled (handleCall broker s serial id message send) := by
  unfold Handshake.handleCall
  split
  · rename_i session requestId hfind hrequest
    obtain ⟨hsession, hid⟩ := findSession_mem hfind
    split_ifs
    · refine Inv.push h ?_
      have hcreated := (h.staged session hsession not_false).1
      exact ⟨hid ▸ hcreated, hreceived, hrequest, htype, rfl, rfl, hready session hfind⟩
    · exact Settled.reply h id _ send
  · exact h

/-! ## The handshake -/

/-- A change of a session ends with a fact that gives the session its new stage. -/
theorem Inv.finish {session : Session} (h : Inv (fun other => other = session.id) s)
    (hsession : ∀ other ∈ s.sessions, other.id = session.id → other = session)
    (hplain : ∀ other, other ≠ session.id → fact ≠ .closed other ∧
      (∀ serial, fact ≠ .refused serial other) ∧ (∀ message, fact ≠ .greeted other message) ∧
      fact ≠ .ready other ∧ ∀ c g, fact ≠ .componentReady other c g)
    (hcreated : ∀ id peer, fact ≠ .created id peer)
    (hreceived : ∀ serial id message, fact ≠ .received serial id message)
    (hclosed : fact ≠ .closed session.id) (hrefused : ∀ serial, fact ≠ .refused serial session.id) (hallowed : Allowed s.log fact)
    (hid : ∀ id, fact.session = some id → id < s.nextSessionId)
    (hstage : Stage (s.log ++ [fact]) session) : Settled (s.record fact) := by
  refine h.recordAs hcreated ?_ hallowed hid ?_ ?_
  · intro serial id message heq
    exact absurd heq (hreceived serial id message)
  · intro other hother _
    by_cases heq : other.id = session.id
    · rw [hsession other hother heq]
      exact hstage
    · obtain ⟨-, -, hgreeted, hready, hcomponent⟩ := hplain other.id heq
      exact (h.staged other hother heq).append hgreeted hready hcomponent
  · intro id hover
    by_cases heq : id = session.id
    · subst heq
      exact h.gone _ ((over_append hclosed hrefused).mp hover)
    · obtain ⟨hclosed', hrefused', -⟩ := hplain id heq
      exact h.gone id ((over_append hclosed' hrefused').mp hover)

theorem update_unique {session other : Session} (h : other ∈ (s.update session).sessions)
    (hid : other.id = session.id) : other = session := by
  rcases mem_update h with heq | ⟨-, hne⟩
  · exact heq
  · exact absurd hid hne

theorem Settled.greet (h : Settled s) {session : Session} (hsession : session ∈ s.sessions)
    (message : DecodedMessage) :
    Inv (fun other => other = session.id)
      ((s.update { session with handshake := .welcomed }).record
        (.greeted session.id message)) := by
  have hmem : session.id ∈ s.sessions.map Session.id := List.mem_map_of_mem hsession
  have hupdated : Inv (fun other => other = session.id)
      (s.update { session with handshake := .welcomed }) :=
    Inv.update (Inv.settle h) hmem fun hne => absurd rfl hne
  refine hupdated.recordAs (by simp) (by simp) trivial ?_ ?_ (hupdated.gone_append (by simp) (by simp))
  · intro id hid
    cases hid
    exact h.below session hsession
  · intro other hother hne
    refine (hupdated.staged other hother hne).append ?_ (by simp) (by simp)
    intro hello heq
    exact hne (congrArg (fun f => f.session.getD 0) heq).symm

theorem Settled.acceptHello (h : Settled s) {session : Session} {id : ℕ}
    (hfind : s.findSession id = some session) {message : DecodedMessage} (send : Send)
    (hkind : session.peer.kind = .component) (hhandshake : session.handshake = .awaitingHello)
    (htype : message.type = .hello) (hname : message.component = session.expectedComponent)
    (hgeneration : message.generation = some session.expectedGeneration) :
    Settled (acceptHello broker s session message send) := by
  obtain ⟨hsession, rfl⟩ := findSession_mem hfind
  obtain ⟨hcreated, hstage⟩ := h.staged session hsession not_false
  obtain ⟨hexpected, hexpected', hstage⟩ := hstage hkind
  rw [hhandshake] at hstage
  obtain ⟨hnotReady, -⟩ := hstage
  have hgreeted := Settled.greet h hsession message
  have hfind' : ((s.update { session with handshake := .welcomed }).record
      (.greeted session.id message)).findSession session.id
        = some { session with handshake := .welcomed } :=
    findSession_update hfind rfl
  unfold Handshake.acceptHello
  dsimp only
  rcases queuePacket_cases broker hfind' (componentWelcome session.expectedComponent
    session.expectedGeneration broker.runtimeDir) send with
    ⟨notify, heq⟩ | ⟨result, output, hresult, heq⟩
  · rw [heq]
    exact hgreeted.closeSession notify none hfind'
  · rw [heq]
    let welcomed : Session := { session with handshake := .welcomed, output := output }
    let s' := ((s.update { session with handshake := .welcomed }).record
      (.greeted session.id message)).update welcomed
    have hmem : welcomed.id ∈ ((s.update { session with handshake := .welcomed }).record
        (.greeted session.id message)).sessions.map Session.id :=
      List.mem_map.mpr ⟨_, (findSession_mem hfind').1, rfl⟩
    have hkept : Inv (fun other => other = welcomed.id) s' :=
      Inv.update hgreeted hmem fun hne => absurd rfl hne
    have hstage : Stage (s'.log ++ [.welcomed session.id]) welcomed := by
      refine ⟨by simp [s', State.update, State.record, welcomed, hcreated], fun _ => ?_⟩
      refine ⟨hexpected, hexpected', ?_, ?_, by simp [welcomed]⟩
      · exact (hnotReady.append (by simp) (by simp)).append (by simp) (by simp)
      · refine ⟨message, by simp [s', State.update, State.record, welcomed], htype, ?_, ?_⟩
        · rw [hname, hexpected]
        · rw [hgeneration, hexpected']
    have hfinished : Settled (s'.record (.welcomed session.id)) := by
      refine hkept.finish (fun other hother => update_unique hother) (by simp) (by simp) (by simp)
        (by simp) (by simp) trivial ?_ hstage
      intro id hid
      cases hid
      exact h.below session hsession
    cases result with
    | closed => exact absurd rfl hresult
    | kept => exact hfinished
    | raised => exact hfinished

theorem Settled.acceptReady (h : Settled s) {session : Session} {id : ℕ}
    (hfind : s.findSession id = some session) (hkind : session.peer.kind = .component)
    (hhandshake : session.handshake = .welcomed) : Settled (acceptReady broker s session) := by
  obtain ⟨hsession, rfl⟩ := findSession_mem hfind
  obtain ⟨hcreated, hstage⟩ := h.staged session hsession not_false
  obtain ⟨hexpected, hexpected', hstage⟩ := hstage hkind
  rw [hhandshake] at hstage
  obtain ⟨hnotReady, ⟨hello, hhello, htype, hname, hgeneration⟩, hwelcomed⟩ := hstage
  let accepted : Session := { session with handshake := .componentReady }
  have hmem : accepted.id ∈ s.sessions.map Session.id := List.mem_map.mpr ⟨_, hsession, rfl⟩
  have hupdated : Inv (fun other => other = accepted.id) (s.update accepted) :=
    Inv.update (Inv.settle h) hmem fun hne => absurd rfl hne
  have hunique : ∀ other ∈ (s.update accepted).sessions, other.id = accepted.id →
      other = accepted := fun other hother => update_unique hother
  have hbelow : ∀ id, some session.id = some id → id < s.nextSessionId := by
    intro id hid
    cases hid
    exact h.below session hsession
  have hready : Settled ((s.update accepted).record (.ready session.id)) := by
    refine hupdated.finish hunique ?_ (by simp) (by simp) (by simp) (by simp) trivial hbelow ?_
    · intro other hother
      refine ⟨by simp, by simp, by simp, ?_, by simp⟩
      intro heq
      cases heq
      exact hother rfl
    · exact ⟨List.mem_append_left _ hcreated, fun _ =>
        ⟨hexpected, hexpected', List.mem_append_right _ List.mem_cons_self⟩⟩
  unfold Handshake.acceptReady
  dsimp only
  split_ifs
  · refine Inv.push (Inv.finish (hready.mono fun _ hfalse => hfalse.elim) hunique ?_ (by simp)
      (by simp) (by simp) (by simp) ?_ ?_ ?_) ?_
    · intro other hother
      refine ⟨by simp, by simp, by simp, by simp, ?_⟩
      intro c g heq
      cases heq
      exact hother rfl
    · refine ⟨⟨session.peer, List.mem_append_left _ hcreated, hkind, hexpected.symm,
        hexpected'.symm⟩, ⟨hello, List.mem_append_left _ hhello, htype, ?_, ?_⟩,
        List.mem_append_left _ hwelcomed, fun c g => not_mem_append (hnotReady.2 c g) (by simp)⟩
      · rw [hname, hexpected]
      · rw [hgeneration, hexpected']
    · intro id hid
      cases hid
      exact h.below session hsession
    · refine ⟨List.mem_append_left _ (List.mem_append_left _ hcreated), fun _ =>
        ⟨hexpected, hexpected', ?_⟩⟩
      exact List.mem_append_left _ (List.mem_append_right _ List.mem_cons_self)
    · trivial
  · exact hready

/-! ## Every packet -/

theorem Settled.receive (h : Settled s) {id : ℕ} {session : Session}
    (hfind : s.findSession id = some session) (message : DecodedMessage) :
    Settled { s with
      serial := s.serial + 1
      log := s.log ++ [.received s.serial id message] } := by
  obtain ⟨hsession, rfl⟩ := findSession_mem hfind
  have hnew : Allowed s.log (.received s.serial session.id message) := by
    intro id message hmem
    exact Nat.lt_irrefl _ (h.numbered s.serial id message hmem)
  refine (Inv.nextSerial h).recordAs (by simp) ?_ hnew ?_ ?_ ?_
  · intro serial id message heq
    cases heq
    exact Nat.lt_succ_self _
  · intro other hother
    cases hother
    exact h.below session hsession
  · intro other hother _
    exact (h.staged other hother not_false).append (by simp) (by simp) (by simp)
  · exact (Inv.nextSerial h).gone_append (by simp) (by simp)

theorem Settled.handlePacket (h : Settled s) (id : ℕ) (message : DecodedMessage) (send : Send) :
    Settled (handlePacket broker s id message send) := by
  unfold Handshake.handlePacket
  cases hfind : s.findSession id with
  | none => exact h
  | some session =>
    obtain ⟨hsession, hid⟩ := findSession_mem hfind
    have hstage := (h.staged session hsession not_false).2
    have hreceived := Settled.receive h hfind message
    let t : State :=
      { s with serial := s.serial + 1, log := s.log ++ [.received s.serial id message] }
    have hfind' : t.findSession id = some session := hfind
    have hmem : .received s.serial id message ∈ t.log :=
      List.mem_append_right _ List.mem_cons_self
    have hsame : ∀ other, t.findSession id = some other → other = session :=
      fun other hother => Option.some.inj (hother.symm.trans hfind)
    dsimp only
    cases hkind : session.peer.kind with
    | publicControl =>
      dsimp only
      split_ifs with hbare hcall
      · exact Settled.reply hreceived id _ send
      · exact Settled.refuse hreceived false hfind'
      · refine Settled.handleCall hreceived send hmem (not_not.mp hcall) ?_
        intro other hother hcomponent
        rw [hsame other hother, hkind] at hcomponent
        cases hcomponent
    | component =>
      obtain ⟨-, -, hstage⟩ := hstage hkind
      have hnotPublic : ∀ other, t.findSession id = some other →
          other.peer.kind = .publicControl → message.type = .call := by
        intro other hother hpublic
        rw [hsame other hother, hkind] at hpublic
        cases hpublic
      dsimp only
      cases hhandshake : session.handshake with
      | publicReady =>
        rw [hhandshake] at hstage
        exact hstage.elim
      | awaitingHello =>
        dsimp only
        split_ifs with hwrong
        · exact Settled.refuse hreceived true hfind'
        · obtain ⟨htype, hname, hgeneration⟩ : message.type = .hello ∧
              message.component = session.expectedComponent ∧
              message.generation = some session.expectedGeneration := by
            simpa only [not_or, not_not, ne_eq] using hwrong
          exact Settled.acceptHello hreceived hfind' send hkind hhandshake htype hname hgeneration
      | welcomed =>
        rw [hhandshake] at hstage
        dsimp only
        split_ifs with hsubscribe hready
        · refine Settled.routeMessage hreceived none send send [] hmem ?_ hnotPublic ?_
          · intro other _ _
            exact .inr ⟨hsubscribe, List.mem_append_left _ (hid ▸ hstage.2.2)⟩
          · intro other _ hcall
            rw [hsubscribe] at hcall
            cases hcall
        · exact Settled.refuse hreceived true hfind'
        · exact Settled.acceptReady hreceived hfind' hkind hhandshake
      | componentReady =>
        rw [hhandshake] at hstage
        have hready : .ready id ∈ t.log := List.mem_append_left _ (hid ▸ hstage)
        dsimp only
        split_ifs with hcall hrouted
        · exact Settled.handleCall hreceived send hmem hcall fun _ _ _ => hready
        · refine Settled.routeMessage hreceived none send send [] hmem ?_ hnotPublic ?_
          · exact fun _ _ _ => .inl hready
          · exact fun _ _ htype => absurd htype hcall
        · exact Settled.refuse hreceived true hfind'

/-! ## Hooks that return -/

theorem Settled.finishAuthorize (h : Settled s) {serial id : ℕ} {message : DecodedMessage}
    {request : AccessRequest} (hframe : FrameInv s.log (.authorizing serial id message request))
    (answer : Bool) (send failedSend : Send) (what : Bytes) :
    Settled (finishAuthorize broker s serial id message request answer send failedSend what) := by
  obtain ⟨hcreated, hreceived, hrequest, htype, htarget, hmethod, hready⟩ := hframe
  have hrecorded : Settled (s.record (.authorized serial request answer)) :=
    Inv.record h trivial trivial fun id hid => by cases hid
  have hbelow : ∀ other, some id = some other → other < s.nextSessionId := by
    intro other hother
    cases hother
    exact h.mentioned _ hcreated id rfl
  have hauthorized : answer = true →
      Authorized (s.log ++ [.authorized serial request answer]) serial id request.peer message := by
    intro hanswer
    refine ⟨List.mem_append_left _ hcreated, List.mem_append_left _ hreceived, request.requestId,
      hrequest, List.mem_append_right _ ?_⟩
    rw [hanswer, ← htarget, ← hmethod]
    exact List.mem_cons_self
  unfold Handshake.finishAuthorize
  dsimp only
  by_cases hanswer : answer = false
  · rw [if_pos hanswer]
    exact Settled.reply hrecorded id _ send
  have hallowed := hauthorized (by simpa using hanswer)
  rw [if_neg hanswer]
  split_ifs with hlist hhook hlifecycle
  · have hlisted : Settled ((s.record (.authorized serial request answer)).record
        (.listed serial id message)) :=
      Inv.record hrecorded trivial ⟨htype, request.peer, hallowed⟩ hbelow
    exact Inv.push hlisted trivial
  · exact Settled.tryReply hrecorded id _ _ send failedSend what
  · cases message.payloadComponent with
    | none => exact Settled.tryReply hrecorded id _ _ send failedSend what
    | some component =>
      have hcarried : Settled ((s.record (.authorized serial request answer)).record
          (.lifecycle serial id message)) :=
        Inv.record hrecorded trivial ⟨htype, request.peer, hallowed⟩ hbelow
      exact Inv.push hcarried trivial
  · cases message.payloadComponent with
    | none => exact Settled.tryReply hrecorded id _ _ send failedSend what
    | some component => exact Settled.tryReply hrecorded id _ _ send failedSend what
  · have hpeer : ∀ session, (s.record (.authorized serial request answer)).findSession id =
        some session → session.peer = request.peer := by
      intro session hfind
      obtain ⟨hsession, rfl⟩ := findSession_mem hfind
      exact h.createdOnce _ _ _ (h.staged session hsession not_false).1 hcreated
    refine Settled.routeMessage hrecorded _ send failedSend what
      (List.mem_append_left _ hreceived) ?_ (fun _ _ _ => htype) ?_
    · intro session hfind hkind
      rw [hpeer session hfind] at hkind
      exact .inl (List.mem_append_left _ (hready hkind))
    · intro session hfind _
      rw [hpeer session hfind]
      exact hallowed

theorem Settled.finishOperation (h : Settled s) (id requestId : ℕ) (component : Bytes)
    (answer : OperationReply) (send failedSend : Send) (what : Bytes) :
    Settled (finishOperation broker s id requestId component answer send failedSend what) := by
  unfold Handshake.finishOperation
  split_ifs
  · exact Settled.tryReply h id _ _ send failedSend what
  all_goals exact Settled.tryReply h id _ _ send failedSend what

theorem Settled.unwind (h : Settled s) {frame : Frame} (hframe : FrameInv s.log frame)
    (standard : Bool) (what : Bytes) (send : Send) :
    Settled (unwind broker s frame standard what send) := by
  unfold Handshake.unwind
  split
  · exact Settled.finishAuthorize h hframe false send send []
  · split_ifs
    · exact Settled.reply h _ _ send
    · exact h
  · split_ifs
    · exact Settled.reply h _ _ send
    · exact h
  · split_ifs
    · exact Settled.reply h _ _ send
    · exact h
  · exact h

/-! ## New sessions -/

theorem Settled.addSession (broker : Broker) (h : Settled s) (peer : PeerIdentity)
    (handshake : HandshakeState) (hhandshake : peer.kind = .component → handshake = .awaitingHello) (watchFails : Bool) :
    Settled (addSession broker s peer handshake watchFails).2 := by
  unfold Handshake.addSession
  have hfresh : ∀ fact ∈ s.log, fact.session ≠ some s.nextSessionId := by
    intro fact hfact heq
    exact Nat.lt_irrefl _ (h.mentioned fact hfact _ heq)
  by_cases hlimit : broker.maxSessions ≤ s.sessions.length ∨ 2 ^ 64 - 1 ≤ s.nextSessionId
  · rw [if_pos hlimit]
    exact h
  rw [if_neg hlimit]
  by_cases hwatch : watchFails = true
  · rw [if_pos hwatch]
    exact
      { h with
        below := fun session hsession => Nat.lt_succ_of_lt (h.below session hsession)
        mentioned := fun fact hfact id hid => Nat.lt_succ_of_lt (h.mentioned fact hfact id hid) }
  · rw [if_neg hwatch]
    refine
      { below := ?_
        distinct := ?_
        mentioned := ?_
        createdOnce := ?_
        staged := ?_
        gone := ?_
        numbered := ?_
        frames := fun frame hframe => (h.frames frame hframe).append _
        justified := h.justified.append trivial }
    · intro session hsession
      rcases List.mem_append.mp hsession with hold | hnew
      · exact Nat.lt_succ_of_lt (h.below session hold)
      · rw [List.mem_singleton.mp hnew]
        exact Nat.lt_succ_self _
    · refine List.pairwise_append.mpr ⟨h.distinct, List.pairwise_singleton _ _, ?_⟩
      intro old hold new hnew
      rw [List.mem_singleton.mp hnew]
      exact Nat.ne_of_lt (h.below old hold)
    · intro fact hfact id hid
      rcases List.mem_append.mp hfact with hold | hnew
      · exact Nat.lt_succ_of_lt (h.mentioned fact hold id hid)
      · rw [List.mem_singleton.mp hnew] at hid
        cases hid
        exact Nat.lt_succ_self _
    · intro id one two hone htwo
      rcases List.mem_append.mp hone with hone | hone <;>
        rcases List.mem_append.mp htwo with htwo | htwo
      · exact h.createdOnce id one two hone htwo
      · cases List.mem_singleton.mp htwo
        exact absurd rfl (hfresh _ hone)
      · cases List.mem_singleton.mp hone
        exact absurd rfl (hfresh _ htwo)
      · cases List.mem_singleton.mp hone
        cases List.mem_singleton.mp htwo
        rfl
    · intro session hsession _
      rcases List.mem_append.mp hsession with hold | hnew
      · exact (h.staged session hold not_false).append (by simp) (by simp) (by simp)
      · rw [List.mem_singleton.mp hnew]
        refine ⟨List.mem_append_right _ List.mem_cons_self, fun hkind => ?_⟩
        have hawaiting := hhandshake hkind
        refine ⟨if_pos hawaiting, if_pos hawaiting, ?_⟩
        simp only [hawaiting]
        refine ⟨⟨not_mem_append ?_ (by simp), fun c g => not_mem_append ?_ (by simp)⟩,
          fun message => not_mem_append ?_ (by simp)⟩
        all_goals exact fun hmem => hfresh _ hmem rfl
    · intro id hover session hsession
      have hold := (over_append (by simp) (by simp)).mp hover
      rcases List.mem_append.mp hsession with hmem | hnew
      · exact h.gone id hold session hmem
      · rw [List.mem_singleton.mp hnew]
        rintro rfl
        rcases hold with hclosed | ⟨serial, hrefused⟩
        · exact hfresh _ hclosed rfl
        · exact hfresh _ hrefused rfl
    · intro serial id message hmem
      simp only [List.mem_append, List.mem_singleton, reduceCtorEq, or_false] at hmem
      exact h.numbered serial id message hmem

theorem Settled.accept (h : Settled s) (pid : ℤ) (uid gid : ℕ) (watchFails : Bool)
    (send : Send) : Settled (accept broker s pid uid gid watchFails send) := by
  have hadded := Settled.addSession broker h
    ⟨.publicControl, pid, uid, gid, ascii "public", 0⟩ .publicReady nofun watchFails
  unfold Handshake.accept
  split
  · rename_i added heq
    rw [heq] at hadded
    exact hadded
  · rename_i id added heq
    rw [heq] at hadded
    have hqueued := Settled.queuePacket broker hadded id publicWelcome send
    split
    · rename_i queued hqueue
      rw [hqueue] at hqueued
      exact Settled.closeSession hqueued id false none
    · rename_i result queued _ hqueue
      rw [hqueue] at hqueued
      exact hqueued

theorem Settled.flushSession (h : Settled s) (id : ℕ) (answers : List SendAnswer) :
    Settled (flushSession broker s id answers) := by
  unfold Handshake.flushSession
  cases hfind : s.findSession id with
  | none => exact h
  | some session =>
    dsimp only
    split
    · exact Settled.closeSession h id _ none
    · exact Settled.setOutput h hfind _

theorem Settled.closeComponentSession (h : Settled s) (component : Bytes) (generation : ℕ) :
    Settled (closeComponentSession s component generation) := by
  unfold Handshake.closeComponentSession
  split
  · exact h
  · exact Settled.closeSession h _ false _

/-! ## Runs -/

theorem Settled.step (h : Settled s) {label : Label} (hstep : step broker s label = some s') :
    Settled s' := by
  cases label with
  | accept pid uid gid watchFails send =>
    cases hstep
    exact Settled.accept h pid uid gid watchFails send
  | createComponentSession component generation pid uid gid watchFails =>
    simp only [Handshake.step] at hstep
    split_ifs at hstep <;> cases hstep
    · exact h
    · exact Settled.addSession broker h _ .awaitingHello (fun _ => rfl) watchFails
  | closeComponentSession component generation =>
    cases hstep
    exact Settled.closeComponentSession h component generation
  | sendToSession id packet send =>
    cases hstep
    exact Settled.reply h id packet send
  | flush id answers =>
    cases hstep
    exact Settled.flushSession h id answers
  | packet id message send =>
    cases hstep
    exact Settled.handlePacket h id message send
  | hangUp id =>
    cases hstep
    exact Settled.closeSession h id true none
  | authorizeReturns answer send failedSend what =>
    simp only [Handshake.step] at hstep
    split at hstep <;> cases hstep
    rename_i hstack
    obtain ⟨hframe, hrest⟩ := h.pop hstack
    exact Settled.finishAuthorize hrest hframe answer send failedSend what
  | listReturns components send failedSend what =>
    simp only [Handshake.step] at hstep
    split at hstep <;> cases hstep
    rename_i hstack
    exact Settled.tryReply (h.pop hstack).2 _ _ _ send failedSend what
  | operationReturns answer send failedSend what =>
    simp only [Handshake.step] at hstep
    split at hstep <;> cases hstep
    rename_i hstack
    exact Settled.finishOperation (h.pop hstack).2 _ _ _ answer send failedSend what
  | returns =>
    simp only [Handshake.step] at hstep
    split at hstep <;> cases hstep
    · rename_i hstack
      exact (h.pop hstack).2
    · rename_i hstack
      exact (h.pop hstack).2
    · rename_i hstack
      exact (h.pop hstack).2
    · rename_i hstack
      have hrest := (h.pop hstack).2
      split
      · exact Inv.push hrest trivial
      · exact Settled.closeComponentSession hrest _ _
      · exact hrest
  | throws standard what send =>
    simp only [Handshake.step] at hstep
    split at hstep <;> cases hstep
    rename_i hstack
    obtain ⟨hframe, hrest⟩ := h.pop hstack
    exact Settled.unwind hrest hframe standard what send

theorem run_settled {labels : List Label} (hrun : run (step broker) {} labels = some s) :
    Settled s :=
  run_invariant_all (fun _ _ _ h hstep => Settled.step h hstep) labels settled_initial hrun

/-! ## Packets out of order -/

/-- A packet that is out of order is refused. -/
theorem handlePacket_refuses (broker : Broker) (h : Settled s) {id : ℕ} {session : Session}
    (hfind : s.findSession id = some session) {message : DecodedMessage} (send : Send)
    (horder : ¬ InOrder s.log id session.peer message) :
    ∃ t notify, handlePacket broker s id message send = refuse t s.serial id notify := by
  obtain ⟨hsession, rfl⟩ := findSession_mem hfind
  have hstage := (h.staged session hsession not_false).2
  unfold handlePacket
  rw [hfind]
  unfold InOrder at horder
  cases hkind : session.peer.kind with
  | publicControl =>
    simp only [hkind, not_or] at horder ⊢
    rw [if_neg horder.1, if_pos horder.2]
    exact ⟨_, _, rfl⟩
  | component =>
    obtain ⟨hexpected, hexpected', hstage⟩ := hstage hkind
    simp only [hkind, not_or] at horder ⊢
    obtain ⟨hlate, hmiddle, hearly⟩ := horder
    cases hhandshake : session.handshake with
    | publicReady =>
      rw [hhandshake] at hstage
      exact hstage.elim
    | awaitingHello =>
      rw [hhandshake] at hstage
      obtain ⟨⟨hready, -⟩, hnone⟩ := hstage
      have hwrong : message.type ≠ .hello ∨ message.component ≠ session.expectedComponent
          ∨ message.generation ≠ some session.expectedGeneration := by
        by_contra hright
        simp only [not_or, not_not, ne_eq] at hright
        rw [hexpected, hexpected'] at hright
        exact hearly ⟨hready, hnone, hright⟩
      dsimp only
      rw [if_pos hwrong]
      exact ⟨_, _, rfl⟩
    | welcomed =>
      rw [hhandshake] at hstage
      obtain ⟨⟨hready, -⟩, ⟨hello, hgreeted, -⟩, -⟩ := hstage
      have htype : ¬ (message.type = .subscribe ∨ message.type = .ready) :=
        fun htype => hmiddle ⟨hready, ⟨hello, hgreeted⟩, htype⟩
      rw [not_or] at htype
      dsimp only
      rw [if_neg htype.1, if_pos htype.2]
      exact ⟨_, _, rfl⟩
    | componentReady =>
      rw [hhandshake] at hstage
      have htype : message.type ∉ [.call, .subscribe, .event, .returned, .error] :=
        fun htype => hlate ⟨hstage, htype⟩
      simp only [List.mem_cons, List.not_mem_nil, or_false, not_or] at htype
      obtain ⟨hcall, hsubscribe, hevent, hreturned, herror⟩ := htype
      dsimp only
      rw [if_neg hcall, if_neg (by simp [hsubscribe, hevent, hreturned, herror])]
      exact ⟨_, _, rfl⟩

/-- In every run: each report of readiness, routed packet and carried out call is allowed by what
came before it; a packet out of order closes its session, and the session of a refused packet
is gone. -/
theorem run_handshake (broker : Broker) (labels : List Label) (s : State)
    (hrun : run (step broker) {} labels = some s) :
    Justified Allowed s.log ∧
    (∀ serial id, .refused serial id ∈ s.log → s.findSession id = none) ∧
    ∀ id session message send, s.findSession id = some session →
      ¬ InOrder s.log id session.peer message →
        .refused s.serial id ∈ (handlePacket broker s id message send).log ∧
        (handlePacket broker s id message send).findSession id = none := by
  have h := run_settled hrun
  refine ⟨h.justified, ?_, ?_⟩
  · intro serial id hrefused
    exact findSession_eq_none (h.gone id (.inr ⟨serial, hrefused⟩))
  · intro id session message send hfind horder
    obtain ⟨t, notify, heq⟩ := handlePacket_refuses broker h hfind send horder
    rw [heq]
    exact ⟨List.mem_append_right _ List.mem_cons_self, findSession_closeSession t id notify none⟩

/-- A component that is greeted, becomes ready and publishes. -/
theorem run_handshake_event :
    ∃ s, run (step { runtimeDir := [] }) {}
        [.createComponentSession [97] 1 7 0 0 false,
          .packet 1 { type := .hello, component := [97], generation := some 1 } {},
          .packet 1 { type := .ready } {},
          .packet 1 { type := .event, topic := [98] } {}] = some s ∧
      .componentReady 1 [97] 1 ∈ s.log ∧ Justified Allowed s.log := by
  obtain ⟨s, hs⟩ : ∃ s, run (step { runtimeDir := [] }) {}
      [.createComponentSession [97] 1 7 0 0 false,
        .packet 1 { type := .hello, component := [97], generation := some 1 } {},
        .packet 1 { type := .ready } {},
        .packet 1 { type := .event, topic := [98] } {}] = some s := ⟨_, rfl⟩
  refine ⟨s, hs, ?_, (run_handshake _ _ s hs).1⟩
  cases hs
  decide

end MsysCore.Native.Handshake
