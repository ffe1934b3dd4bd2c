import MsysCore.Lib.Records
import MsysCore.Native.MipcPackets

/-!
# The public control stream

A public control session is a byte stream with one packet per line. The broker
appends the line feed in `queue_packet`, hands bytes to the kernel as far as it
takes them and keeps the rest in `outgoing`. The model follows every path of
`queue_packet`, `send_one` and `flush_session` for such a session; a closed
session is `none`. `written` records what the kernel took, so that the stream a
client sees is `written` followed by what is still unsent.
-/

namespace MsysCore.Native

open JsonGrammar Records

def lineFeed : UInt8 := '\n'.toUInt8

structure BrokerOptions where
  maxQueuedBytesPerSession : ℕ := 512 * 1024
  maxQueuedPacketsPerSession : ℕ := 128
  maxPacketsPerDispatch : ℕ := 32

/-- Outcome of one nonblocking `send`, after the retries of interrupted calls. -/
inductive SendCall
  | count (n : ℕ)
  | again
  | failed

inductive SendResult
  | sent | wouldBlock | failed
  deriving DecidableEq

structure PublicSession where
  outgoing : List Bytes := []
  outgoingOffset : ℕ := 0
  queuedBytes : ℕ := 0
  written : Bytes := []
  deriving DecidableEq

/-- `send_one` on a stream session: the result, the new offset and the bytes taken. -/
def sendOne (packet : Bytes) (offset : ℕ) : SendCall → SendResult × ℕ × Bytes
  | .count n =>
    let taken := (packet.drop offset).take n
    if taken = [] then (.failed, offset, [])
    else if offset + taken.length = packet.length then (.sent, 0, taken)
    else (.wouldBlock, offset + taken.length, taken)
  | .again => (.wouldBlock, offset, [])
  | .failed => (.failed, offset, [])

def queuePacket (options : BrokerOptions) (session : PublicSession) (packet : Bytes)
    (call : SendCall) : Option PublicSession :=
  if packet = [] ∨ maxPacketBytes < packet.length then none
  else
    let packet := packet ++ [lineFeed]
    if options.maxQueuedBytesPerSession < packet.length
        ∨ options.maxQueuedPacketsPerSession ≤ session.outgoing.length
        ∨ options.maxQueuedBytesPerSession - packet.length < session.queuedBytes then none
    else if session.outgoing = [] then
      match sendOne packet 0 call with
      | (.sent, _, taken) => some { session with written := session.written ++ taken }
      | (.failed, _, _) => none
      | (.wouldBlock, offset, taken) =>
        some { outgoing := [packet], outgoingOffset := offset,
               queuedBytes := session.queuedBytes + packet.length,
               written := session.written ++ taken }
    else
      some { session with outgoing := session.outgoing ++ [packet],
                          queuedBytes := session.queuedBytes + packet.length }

/-- The loop of `flush_session`: `budget` packets at most, one kernel outcome a turn. -/
def flushSession : ℕ → List SendCall → PublicSession → Option PublicSession
  | 0, _, session => some session
  | budget + 1, calls, session =>
    match session.outgoing, calls with
    | [], _ => some session
    | _ :: _, [] => some session
    | packet :: rest, call :: calls =>
      match sendOne packet session.outgoingOffset call with
      | (.wouldBlock, offset, taken) =>
        some { session with outgoingOffset := offset, written := session.written ++ taken }
      | (.failed, _, _) => none
      | (.sent, _, taken) =>
        flushSession budget calls
          { outgoing := rest, outgoingOffset := 0,
            queuedBytes := session.queuedBytes - packet.length,
            written := session.written ++ taken }

/-- What the session still owes to the kernel. -/
def PublicSession.unsent (session : PublicSession) : Bytes :=
  match session.outgoing with
  | [] => []
  | packet :: rest => packet.drop session.outgoingOffset ++ rest.flatten

/-- The byte stream of the session, sent or queued. -/
def PublicSession.bytes (session : PublicSession) : Bytes := session.written ++ session.unsent

/-! ## No byte is lost or reordered -/

theorem sendOne_taken {packet taken : Bytes} {offset offset' : ℕ} {call : SendCall}
    {result : SendResult} (h : sendOne packet offset call = (result, offset', taken)) :
    (result = .sent → taken = packet.drop offset) ∧
    (result = .wouldBlock → taken ++ packet.drop offset' = packet.drop offset) := by
  cases call with
  | again | failed =>
    simp only [sendOne, Prod.mk.injEq] at h
    obtain ⟨rfl, rfl, rfl⟩ := h
    simp
  | count n =>
    simp only [sendOne] at h
    split_ifs at h with hempty hall
    all_goals
      simp only [Prod.mk.injEq] at h
      obtain ⟨rfl, rfl, rfl⟩ := h
    · simp
    · refine ⟨fun _ => ?_, by simp⟩
      have hlen : (packet.drop offset).length ≤ n := by
        by_contra hn
        simp only [List.length_take, List.length_drop] at hall hn
        omega
      exact List.take_of_length_le hlen
    · refine ⟨by simp, fun _ => ?_⟩
      rw [← List.drop_drop]
      have hdrop : (packet.drop offset).drop ((packet.drop offset).take n).length =
          (packet.drop offset).drop n := by
        rw [List.length_take]
        rcases Nat.le_total n (packet.drop offset).length with hn | hn
        · rw [Nat.min_eq_left hn]
        · rw [Nat.min_eq_right hn, List.drop_of_length_le hn, List.drop_of_length_le (Nat.le_refl _)]
      rw [hdrop, List.take_append_drop]

theorem queuePacket_bytes {options : BrokerOptions} {s s' : PublicSession} {packet : Bytes}
    {call : SendCall} (h : queuePacket options s packet call = some s') :
    s'.bytes = s.bytes ++ frame lineFeed packet := by
  simp only [queuePacket] at h
  split_ifs at h with hsize hroom hempty
  · have hunsent : s.unsent = [] := by simp [PublicSession.unsent, hempty]
    split at h
    · rename_i taken hsend
      cases h
      have ht := (sendOne_taken hsend).1 rfl
      simp [PublicSession.bytes, PublicSession.unsent, hempty, ht, frame]
    · cases h
    · rename_i offset taken hsend
      cases h
      have ht := (sendOne_taken hsend).2 rfl
      simp only [List.drop_zero] at ht
      simp [PublicSession.bytes, PublicSession.unsent, hempty, ht, frame]
  · cases h
    cases hout : s.outgoing with
    | nil => exact absurd hout hempty
    | cons p rest => simp [PublicSession.bytes, PublicSession.unsent, hout, frame]

theorem flushSession_bytes (budget : ℕ) : ∀ (calls : List SendCall) (s : PublicSession)
    {s' : PublicSession}, flushSession budget calls s = some s' → s'.bytes = s.bytes := by
  induction budget with
  | zero =>
    intro calls s s' h
    cases h
    rfl
  | succ budget ih =>
    intro calls s s' h
    simp only [flushSession] at h
    split at h
    · cases h
      rfl
    · cases h
      rfl
    · rename_i packet rest call calls hout
      split at h
      · rename_i offset taken hsend
        cases h
        have ht := (sendOne_taken hsend).2 rfl
        simp [PublicSession.bytes, PublicSession.unsent, hout, ← ht]
      · cases h
      · rename_i taken hsend
        have ht := (sendOne_taken hsend).1 rfl
        rw [ih _ _ h]
        cases rest with
        | nil => simp [PublicSession.bytes, PublicSession.unsent, hout, ht]
        | cons p rest => simp [PublicSession.bytes, PublicSession.unsent, hout, ht]

/-! ## The packets of a public session -/

/-- A message some packet of a component session decodes to. -/
structure Relayed where
  packet : Bytes
  message : DecodedMessage
  decoded : decodeMessage packet = .ok message

/-- What is queued for a public session: packets of the broker, errors of the
router, and the messages the router relays. -/
inductive PublicPacket
  | welcome
  | brokerError (requestId : ℕ) (code message : Bytes)
  | listComponents (requestId : ℕ) (components : List ComponentStatus)
  | lifecycle (requestId : ℕ) (component state : Bytes)
  | routerError (requestId : ℕ) (code message : Bytes)
  | reply (callerRequestId : ℕ) (relayed : Relayed)
  | event (source : Bytes) (relayed : Relayed)

def PublicPacket.bytes : PublicPacket → Bytes
  | .welcome => publicWelcome
  | .brokerError requestId code message => errorResponse requestId code message
  | .listComponents requestId components => listComponentsReply requestId components
  | .lifecycle requestId component state => lifecycleReply requestId component state
  | .routerError requestId code message => errorPacket requestId code message
  | .reply callerRequestId relayed => providerReplyPacket callerRequestId relayed.message
  | .event source relayed =>
    eventPacket relayed.message.topic relayed.message.payloadJson source

/-- The raw payload substring that is spliced into the packet, if any. -/
def PublicPacket.splicedPayload : PublicPacket → Bytes
  | .reply _ relayed =>
    if relayed.message.type = .returned then relayed.message.payloadJson else []
  | .event _ relayed => relayed.message.payloadJson
  | _ => []

theorem PublicPacket.object (p : PublicPacket) : Object p.bytes := by
  cases p with
  | welcome => exact publicWelcome_object
  | brokerError id code message => exact errorPacket_object id code message
  | listComponents id components => exact listComponentsReply_object id components
  | lifecycle id component state => exact lifecycleReply_object id component state
  | routerError id code message => exact errorPacket_object id code message
  | reply id relayed =>
    simp only [bytes, providerReplyPacket]
    split_ifs
    · exact returnPacket_object id (decodeMessage_payload relayed.decoded).value
    · exact errorPacket_object id _ _
  | event source relayed =>
    exact eventPacket_object _ _ (decodeMessage_payload relayed.decoded).value

theorem PublicPacket.lineFree_iff (p : PublicPacket) :
    LineFree p.bytes ↔ LineFree p.splicedPayload := by
  have hnil : LineFree [] := by decide
  cases p with
  | welcome => exact iff_of_true (by decide +kernel) hnil
  | brokerError id code message => exact iff_of_true (errorPacket_lineFree id code message) hnil
  | listComponents id components =>
    exact iff_of_true (listComponentsReply_lineFree id components) hnil
  | lifecycle id component state =>
    exact iff_of_true (lifecycleReply_lineFree id component state) hnil
  | routerError id code message => exact iff_of_true (errorPacket_lineFree id code message) hnil
  | reply id relayed =>
    simp only [bytes, splicedPayload, providerReplyPacket]
    split_ifs
    · exact returnPacket_lineFree_iff id _
    · exact iff_of_true (errorPacket_lineFree id _ _) hnil
  | event source relayed => exact eventPacket_lineFree_iff _ _ _

/-- The runs of one public session that is still open: the packets queued so far. -/
inductive PublicRun (options : BrokerOptions) : PublicSession → List PublicPacket → Prop
  | start : PublicRun options {} []
  | queue {s s' ps p call} : PublicRun options s ps →
      queuePacket options s (PublicPacket.bytes p) call = some s' →
      PublicRun options s' (ps ++ [p])
  | flush {s s' ps calls} : PublicRun options s ps →
      flushSession options.maxPacketsPerDispatch calls s = some s' →
      PublicRun options s' ps

theorem publicRun_bytes {options : BrokerOptions} {s : PublicSession} {ps : List PublicPacket}
    (h : PublicRun options s ps) : s.bytes = stream lineFeed (ps.map PublicPacket.bytes) := by
  induction h with
  | start => rfl
  | queue _ hq ih =>
    rw [queuePacket_bytes hq, ih, List.map_append, stream_append]
    simp [stream]
  | flush _ hf ih => rw [flushSession_bytes _ _ _ hf, ih]

/-- One record per queued packet: each is a JSON object whose framed bytes hold one
line feed, and a client that splits the stream reads back the packets. -/
def PublicFraming (s : PublicSession) (ps : List PublicPacket) : Prop :=
  (∀ p ∈ ps, (frame lineFeed p.bytes).count lineFeed = 1 ∧ Object p.bytes) ∧
    splitRecords lineFeed s.bytes = ps.map PublicPacket.bytes

/-- On every run the stream is framed exactly when no relayed payload that was
spliced into it contains a line feed. -/
theorem publicFraming_iff {options : BrokerOptions} {s : PublicSession} {ps : List PublicPacket}
    (h : PublicRun options s ps) :
    PublicFraming s ps ↔ ∀ p ∈ ps, lineFeed ∉ p.splicedPayload := by
  have hfree : ∀ p : PublicPacket, lineFeed ∉ p.bytes ↔ lineFeed ∉ p.splicedPayload :=
    PublicPacket.lineFree_iff
  rw [PublicFraming, publicRun_bytes h, splitRecords_stream_iff]
  constructor
  · rintro ⟨hp, -⟩ p hmem
    exact (hfree p).mp ((count_frame_eq_one_iff _ _).mp (hp p hmem).1)
  · intro hclean
    refine ⟨fun p hmem => ⟨?_, p.object⟩, ?_⟩
    · exact (count_frame_eq_one_iff _ _).mpr ((hfree p).mpr (hclean p hmem))
    · intro r hr
      obtain ⟨p, hmem, rfl⟩ := List.mem_map.mp hr
      exact (hfree p).mpr (hclean p hmem)

/-- A session that was greeted and then told that its call timed out. -/
def greetedSession : PublicSession where
  written := stream lineFeed [publicWelcome, errorPacket 3 (ascii "CALL_TIMEOUT") (ascii "a")]

theorem greetedSession_framed :
    PublicFraming greetedSession
      [.welcome, .routerError 3 (ascii "CALL_TIMEOUT") (ascii "a")] := by
  have h1 : PublicRun {} { written := stream lineFeed [publicWelcome] } ([] ++ [.welcome]) :=
    @PublicRun.queue _ _ _ _ _ (.count 100) .start (by decide +kernel)
  have h2 : PublicRun {} greetedSession
      ([] ++ [.welcome] ++ [.routerError 3 (ascii "CALL_TIMEOUT") (ascii "a")]) :=
    @PublicRun.queue _ _ _ _ _ (.count 100) h1 (by decide +kernel)
  exact (publicFraming_iff h2).mpr (by decide +kernel)

/-- A provider that answers call 7 with a payload laid out over two lines. -/
def twoLineReturn : Relayed where
  packet := ascii "\x7b\"type\":\"return\",\"id\":7,\"payload\":\x7b\n\x7d\x7d"
  message := { type := .returned, requestId := some 7, payloadJson := ascii "\x7b\n\x7d" }
  decoded := by decide +kernel

/-- Its caller reads the reply as two records. -/
theorem twoLineReturn_not_framed :
    ¬ ∀ (options : BrokerOptions) (s : PublicSession) (ps : List PublicPacket),
      PublicRun options s ps → PublicFraming s ps := by
  intro hall
  have hrun : PublicRun {} { written := frame lineFeed (returnPacket 7 (ascii "\x7b\n\x7d")) }
      ([] ++ [.reply 7 twoLineReturn]) :=
    @PublicRun.queue _ _ _ _ _ (.count 100) .start (by decide +kernel)
  have hone := ((hall _ _ _ hrun).1 (.reply 7 twoLineReturn) (by simp)).1
  revert hone
  decide +kernel

end MsysCore.Native
