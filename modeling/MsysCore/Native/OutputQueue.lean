import MsysCore.Lib.PacketQueue
import MsysCore.Lib.Runs
import MsysCore.Native.PublicStream

/-!
# The output queue of a broker session

`queue_packet`, `send_one` and `flush_session` of `mipc_broker.cpp` for sessions of both
kinds: a public session is a byte stream with one packet per line, a component session
sends each packet as one datagram. The kernel answers one `send` after the other; a list of
answers that is used up stands for a full socket. A closed session is `none`. `written` is
ghost: what each `send` took.
-/

namespace MsysCore.Native.OutputQueue

open PacketQueue Runs

inductive SessionKind
  | publicControl | component
  deriving DecidableEq

/-- The answer of one `send`. -/
inductive SendAnswer
  | count (n : ℕ)
  /-- `EINTR` -/
  | interrupted
  /-- `EAGAIN` or `EWOULDBLOCK` -/
  | again
  | error
  deriving DecidableEq

structure OutputSession where
  kind : SessionKind
  outgoing : List Bytes := []
  outgoingOffset : ℕ := 0
  queuedBytes : ℕ := 0
  written : List Bytes := []
  deriving DecidableEq

/-- What `send_one` comes to: its result, the offset it leaves, the bytes the kernel took and
the answers it did not need. -/
structure SendOutcome where
  result : SendResult
  offset : ℕ
  taken : List Bytes
  answers : List SendAnswer

def sendOne (kind : SessionKind) (packet : Bytes) (offset : ℕ) : List SendAnswer → SendOutcome
  | [] => ⟨.wouldBlock, offset, [], []⟩
  | .interrupted :: answers => sendOne kind packet offset answers
  | .again :: answers => ⟨.wouldBlock, offset, [], answers⟩
  | .error :: answers => ⟨.failed, offset, [], answers⟩
  | .count n :: answers =>
    -- the kernel takes no more than it is offered
    let taken := (packet.drop offset).take n
    if taken = [] then ⟨.failed, offset, [], answers⟩
    else if kind = .component ∧ taken.length ≠ packet.length then ⟨.failed, offset, [taken], answers⟩
    else if offset + taken.length = packet.length then ⟨.sent, 0, [taken], answers⟩
    else ⟨.wouldBlock, offset + taken.length, [taken], answers⟩

/-- The packet as `queue_packet` hands it to the socket. -/
def wirePacket (kind : SessionKind) (packet : Bytes) : Bytes :=
  match kind with
  | .publicControl => packet ++ [lineFeed]
  | .component => packet

def queuePacket (options : BrokerOptions) (session : OutputSession) (packet : Bytes)
    (answers : List SendAnswer) : Option OutputSession :=
  if packet = [] ∨ maxPacketBytes < packet.length then none
  else
    let packet := wirePacket session.kind packet
    if options.maxQueuedBytesPerSession < packet.length
        ∨ options.maxQueuedPacketsPerSession ≤ session.outgoing.length
        ∨ options.maxQueuedBytesPerSession - packet.length < session.queuedBytes then none
    else if session.outgoing = [] then
      let send := sendOne session.kind packet 0 answers
      match send.result with
      | .sent => some { session with written := session.written ++ send.taken }
      | .failed => none
      | .wouldBlock =>
        some { session with
          outgoing := [packet]
          outgoingOffset := send.offset
          queuedBytes := session.queuedBytes + packet.length
          written := session.written ++ send.taken }
    else
      some { session with
        outgoing := session.outgoing ++ [packet]
        queuedBytes := session.queuedBytes + packet.length }

/-- The loop of `flush_session`, with the number of packets it may still send. -/
def flushLoop : ℕ → List SendAnswer → OutputSession → Option OutputSession
  | 0, _, session => some session
  | budget + 1, answers, session =>
    match session.outgoing with
    | [] => some session
    | packet :: rest =>
      let send := sendOne session.kind packet session.outgoingOffset answers
      match send.result with
      | .wouldBlock =>
        some { session with
          outgoingOffset := send.offset
          written := session.written ++ send.taken }
      | .failed => none
      | .sent =>
        flushLoop budget send.answers
          { session with
            outgoing := rest
            outgoingOffset := 0
            queuedBytes := session.queuedBytes - packet.length
            written := session.written ++ send.taken }

inductive Event
  | queue (packet : Bytes) (answers : List SendAnswer)
  | flush (answers : List SendAnswer)

def step (options : BrokerOptions) (session : OutputSession) : Event → Option OutputSession
  | .queue packet answers => queuePacket options session packet answers
  | .flush answers => flushLoop options.maxPacketsPerDispatch answers session

/-- The packets that the events queue, as they go to the socket. -/
def queuedPackets (kind : SessionKind) : List Event → List Bytes
  | [] => []
  | .queue packet _ :: events => wirePacket kind packet :: queuedPackets kind events
  | .flush _ :: events => queuedPackets kind events

/-! ## One send -/

variable {options : BrokerOptions} {kind : SessionKind} {packet : Bytes} {offset : ℕ}
  {s s' : OutputSession}

/-- What a send does to the packet it was given. -/
structure Sent (kind : SessionKind) (packet : Bytes) (offset : ℕ) (send : SendOutcome) : Prop where
  sent : send.result = .sent → send.taken.flatten = packet.drop offset ∧
    (kind = .component → offset = 0 → send.taken = [packet])
  blocked : send.result = .wouldBlock → send.taken.flatten = (packet.drop offset).take
      (send.offset - offset) ∧ offset ≤ send.offset ∧ send.offset < packet.length ∧
    (kind = .component → send.taken = [] ∧ send.offset = offset)

theorem sent_unchanged {answers : List SendAnswer} (h : offset < packet.length) :
    Sent kind packet offset ⟨.wouldBlock, offset, [], answers⟩ where
  sent := nofun
  blocked := fun _ => ⟨by simp, le_refl _, h, fun _ => ⟨rfl, rfl⟩⟩

theorem sent_failed {taken : List Bytes} {answers : List SendAnswer} :
    Sent kind packet offset ⟨.failed, offset, taken, answers⟩ where
  sent := nofun
  blocked := nofun

theorem sendOne_sent (h : offset < packet.length) (answers : List SendAnswer) :
    Sent kind packet offset (sendOne kind packet offset answers) := by
  induction answers with
  | nil => exact sent_unchanged h
  | cons answer answers ih =>
    cases answer with
    | interrupted => exact ih
    | again => exact sent_unchanged h
    | error => exact sent_failed
    | count n =>
      have hlength : ((packet.drop offset).take n).length ≤ packet.length - offset := by
        simp
      simp only [sendOne]
      split_ifs with hempty hpartial hall
      · exact sent_failed
      · exact sent_failed
      · refine ⟨fun _ => ?_, nofun⟩
        have hfull : (packet.drop offset).take n = packet.drop offset := by
          apply List.take_of_length_le
          by_contra hn
          simp only [List.length_take, List.length_drop] at hall hn
          omega
        rw [List.flatten_singleton, hfull]
        refine ⟨rfl, fun _ hzero => ?_⟩
        rw [hzero, List.drop_zero]
      · refine ⟨nofun, fun _ => ?_⟩
        dsimp only
        refine ⟨?_, Nat.le_add_right _ _, by omega, fun hkind => ?_⟩
        · rw [List.flatten_singleton, Nat.add_sub_cancel_left, List.length_take,
            ← List.take_eq_take_min]
        · -- a datagram that is not taken whole has failed above
          have hwhole : ((packet.drop offset).take n).length = packet.length := by
            by_contra hne
            exact hpartial ⟨hkind, hne⟩
          omega

/-! ## The invariant of an open session -/

/-- What is sent and queued of the packets so far. -/
structure Accounted (options : BrokerOptions) (s : OutputSession) (packets : List Bytes) :
    Prop where
  stream : s.written.flatten ++ unsent s.outgoing s.outgoingOffset = packets.flatten
  datagrams : s.kind = .component → s.written ++ s.outgoing = packets ∧ s.outgoingOffset = 0
  sizes : s.queuedBytes = (s.outgoing.map List.length).sum
  bounded : s.queuedBytes ≤ options.maxQueuedBytesPerSession
  inFront : InFront s.outgoing s.outgoingOffset
  nonempty : [] ∉ s.outgoing

theorem accounted_initial : Accounted options { kind := kind } [] where
  stream := rfl
  datagrams := fun _ => ⟨rfl, rfl⟩
  sizes := rfl
  bounded := Nat.zero_le _
  inFront := rfl
  nonempty := List.not_mem_nil

theorem wirePacket_ne_nil (h : packet ≠ []) : wirePacket kind packet ≠ [] := by
  cases kind with
  | publicControl => simp [wirePacket]
  | component => exact h

theorem queuePacket_kind {answers : List SendAnswer}
    (h : queuePacket options s packet answers = some s') : s'.kind = s.kind := by
  unfold queuePacket at h
  dsimp only at h
  split_ifs at h
  · split at h <;> cases h <;> rfl
  · cases h
    rfl

theorem flushLoop_kind (budget : ℕ) : ∀ (answers : List SendAnswer) (s : OutputSession),
    flushLoop budget answers s = some s' → s'.kind = s.kind := by
  induction budget with
  | zero =>
    intro answers s h
    cases h
    rfl
  | succ budget ih =>
    intro answers s h
    unfold flushLoop at h
    split at h
    · cases h
      rfl
    · dsimp only at h
      split at h
      · cases h
        rfl
      · cases h
      · have hrest := ih _ _ h
        exact hrest

/-- A packet that the socket did not take whole becomes the queue. -/
theorem Accounted.first {packets : List Bytes} (hs : Accounted options s packets)
    (hempty : s.outgoing = []) (hpacket : packet ≠ [])
    (hroom : packet.length ≤ options.maxQueuedBytesPerSession) {send : SendOutcome}
    (hsend : Sent s.kind packet 0 send) (hblocked : send.result = .wouldBlock) :
    Accounted options
      { s with
        outgoing := [packet]
        outgoingOffset := send.offset
        queuedBytes := s.queuedBytes + packet.length
        written := s.written ++ send.taken } (packets ++ [packet]) := by
  obtain ⟨htaken, -, hoffset, hdatagram⟩ := hsend.blocked hblocked
  have hstream := hs.stream
  have hsizes := hs.sizes
  rw [hempty, unsent_nil, List.append_nil] at hstream
  rw [hempty] at hsizes
  have hzero : s.queuedBytes = 0 := hsizes
  constructor
  · dsimp only
    have hadvance := @unsent_advance _ packet [] 0 send.offset (by omega)
    rw [Nat.zero_add] at hadvance
    rw [Nat.sub_zero] at htaken
    rw [List.flatten_append, List.append_assoc, hstream, htaken, hadvance]
    simp [unsent]
  · intro hkind
    obtain ⟨hnone, hsame⟩ := hdatagram hkind
    have hwritten := (hs.datagrams hkind).1
    rw [hempty, List.append_nil] at hwritten
    dsimp only
    rw [hnone, List.append_nil, hwritten]
    exact ⟨rfl, hsame⟩
  · simp [hzero]
  · simpa [hzero] using hroom
  · exact hoffset
  · simpa using hpacket.symm

theorem queuePacket_accounted {packets : List Bytes} {answers : List SendAnswer}
    (hs : Accounted options s packets) (h : queuePacket options s packet answers = some s') :
    Accounted options s' (packets ++ [wirePacket s.kind packet]) := by
  unfold queuePacket at h
  dsimp only at h
  split_ifs at h with hsize hroom hempty
  · rw [not_or] at hsize
    simp only [not_or, not_lt, not_le] at hroom
    have hpacket : wirePacket s.kind packet ≠ [] := wirePacket_ne_nil hsize.1
    have hsend : Sent s.kind (wirePacket s.kind packet) 0 _ :=
      sendOne_sent (List.length_pos_of_ne_nil hpacket) answers
    split at h
    · rename_i hresult
      cases h
      obtain ⟨htaken, hdatagram⟩ := hsend.sent hresult
      have hstream := hs.stream
      rw [hempty, unsent_nil, List.append_nil] at hstream
      refine ⟨?_, fun hkind => ?_, hs.sizes, hs.bounded, hs.inFront, hs.nonempty⟩
      · dsimp only
        rw [hempty, unsent_nil, List.append_nil, List.flatten_append, hstream, htaken]
        simp
      · obtain ⟨hwritten, hoffset⟩ := hs.datagrams hkind
        rw [hempty, List.append_nil] at hwritten
        dsimp only
        rw [hdatagram hkind rfl, hwritten, hempty, List.append_nil]
        exact ⟨rfl, hoffset⟩
    · cases h
    · rename_i hresult
      cases h
      exact hs.first hempty hpacket hroom.1 hsend hresult
  · rw [not_or] at hsize
    simp only [not_or, not_lt, not_le] at hroom
    cases h
    constructor
    · dsimp only
      rw [unsent_concat hs.inFront, ← List.append_assoc, hs.stream]
      simp
    · intro hkind
      obtain ⟨hwritten, hoffset⟩ := hs.datagrams hkind
      dsimp only
      rw [← List.append_assoc, hwritten]
      exact ⟨rfl, hoffset⟩
    · simp [hs.sizes]
    · dsimp only
      omega
    · exact hs.inFront.concat hempty _
    · simp only [List.mem_append, List.mem_singleton, not_or]
      exact ⟨hs.nonempty, (wirePacket_ne_nil hsize.1).symm⟩

theorem flushLoop_accounted {packets : List Bytes} (budget : ℕ) :
    ∀ {answers : List SendAnswer} {s : OutputSession}, Accounted options s packets →
      flushLoop budget answers s = some s' → Accounted options s' packets := by
  induction budget with
  | zero =>
    intro answers s hs h
    cases h
    exact hs
  | succ budget ih =>
    intro answers s hs h
    unfold flushLoop at h
    split at h
    · cases h
      exact hs
    · rename_i front rest hout
      have hfront : s.outgoingOffset < front.length := by
        have hinFront := hs.inFront
        rw [hout] at hinFront
        exact hinFront
      have hsend : Sent s.kind front s.outgoingOffset _ := sendOne_sent hfront answers
      have hstream := hs.stream
      have hnonempty := hs.nonempty
      have hsizes := hs.sizes
      rw [hout] at hstream hnonempty hsizes
      rw [List.map_cons, List.sum_cons] at hsizes
      dsimp only at h
      split at h
      · rename_i hresult
        cases h
        obtain ⟨htaken, hle, hoffset, hdatagram⟩ := hsend.blocked hresult
        refine ⟨?_, fun hkind => ?_, hs.sizes, hs.bounded, ?_, hs.nonempty⟩
        · dsimp only
          have hcount : s.outgoingOffset + ((sendOne s.kind front s.outgoingOffset answers).offset -
              s.outgoingOffset) ≤ front.length := by omega
          have hadvance := @unsent_advance _ front rest _ _ hcount
          rw [Nat.add_sub_cancel' hle] at hadvance
          rw [hout, List.flatten_append, List.append_assoc, htaken, hadvance, hstream]
        · obtain ⟨hnone, hsame⟩ := hdatagram hkind
          obtain ⟨hwritten, hzero⟩ := hs.datagrams hkind
          dsimp only
          rw [hnone, List.append_nil, hsame]
          exact ⟨hwritten, hzero⟩
        · rw [hout]
          exact hoffset
      · cases h
      · rename_i hresult
        obtain ⟨htaken, hdatagram⟩ := hsend.sent hresult
        refine ih ?_ h
        refine ⟨?_, fun hkind => ?_, ?_, ?_, ?_, ?_⟩
        · dsimp only
          rw [List.flatten_append, List.append_assoc, htaken, unsent_pop hfront.le, hstream]
        · obtain ⟨hwritten, hzero⟩ := hs.datagrams hkind
          dsimp only
          rw [hdatagram hkind hzero, List.append_assoc, List.singleton_append, ← hout, hwritten]
          exact ⟨rfl, rfl⟩
        · dsimp only
          omega
        · have hbounded := hs.bounded
          dsimp only
          omega
        · exact inFront_zero fun hmem => hnonempty (List.mem_cons_of_mem _ hmem)
        · exact fun hmem => hnonempty (List.mem_cons_of_mem _ hmem)

theorem run_accounted (events : List Event) : ∀ {packets : List Bytes} {s : OutputSession},
    Accounted options s packets → run (step options) s events = some s' →
      Accounted options s' (packets ++ queuedPackets s.kind events) ∧ s'.kind = s.kind := by
  induction events with
  | nil =>
    intro packets s hs hrun
    cases hrun
    rw [queuedPackets, List.append_nil]
    exact ⟨hs, rfl⟩
  | cons event events ih =>
    intro packets s hs hrun
    obtain ⟨t, ht, hrest⟩ := run_cons hrun
    cases event with
    | queue packet answers =>
      have hkind := queuePacket_kind ht
      have hend := ih (queuePacket_accounted hs ht) hrest
      rw [hkind, List.append_assoc] at hend
      exact hend
    | flush answers =>
      have hkind := flushLoop_kind _ _ _ ht
      have hend := ih (flushLoop_accounted _ hs ht) hrest
      rw [hkind] at hend
      exact hend

/-! ## Every packet once and in order -/

/-- A session that is still open has sent or holds every byte of its packets once, in order;
a component session sends and holds them whole. -/
structure SendsOnce (options : BrokerOptions) (s : OutputSession) (packets : List Bytes) :
    Prop where
  stream : s.kind = .publicControl →
    s.written.flatten ++ unsent s.outgoing s.outgoingOffset = packets.flatten
  datagrams : s.kind = .component → s.written ++ s.outgoing = packets ∧ s.outgoingOffset = 0
  sizes : s.queuedBytes = (s.outgoing.map List.length).sum
  bounded : s.queuedBytes ≤ options.maxQueuedBytesPerSession
  inFront : InFront s.outgoing s.outgoingOffset

/-- Whatever is queued and whatever the kernel takes, a session that is still open accounts for
every packet. -/
theorem run_sendsOnce (options : BrokerOptions) (kind : SessionKind) (events : List Event)
    (s : OutputSession) (hrun : run (step options) { kind := kind } events = some s) :
    SendsOnce options s (queuedPackets kind events) := by
  obtain ⟨haccounted, -⟩ := run_accounted events accounted_initial hrun
  rw [List.nil_append] at haccounted
  exact ⟨fun _ => haccounted.stream, haccounted.datagrams, haccounted.sizes, haccounted.bounded,
    haccounted.inFront⟩

/-- Two lines are queued for a public session; the socket takes three bytes of the first, is
full, and later takes the rest of it after an interrupted call. -/
theorem run_sendsOnce_partial :
    SendsOnce {}
      { kind := .publicControl, outgoing := [[99, 10]], queuedBytes := 2,
        written := [[97, 98, 97], [98, 10]] }
      (queuedPackets .publicControl [.queue [97, 98, 97, 98] [.count 3], .queue [99] [],
        .flush [.interrupted, .count 8, .again]]) :=
  run_sendsOnce {} .publicControl _ _ (by decide)

end MsysCore.Native.OutputQueue
