import MsysCore.Native.PublicStream

/-!
# Reading a public control session

`handle_public_bytes` of `mipc_broker.cpp`: each `recvmsg` gives a chunk of the byte stream,
and the lines that end in it are decoded and passed to `handle_packet` one by one. The
unfinished line waits in `incoming`. `feed` reads the same stream byte by byte, and no reader
of it knows where a chunk ends.
-/

namespace MsysCore.Native.PublicInput

/-- What `handle_packet` comes to for a packet that it accepts: the session is kept, it is
closed by a full queue or by a hook, or an exception leaves the call. -/
inductive Answer
  | kept | closed | raised
  deriving DecidableEq

/-- The answer may depend on all records so far, the present one last. -/
structure Environment where
  answer : List Bytes → Answer

inductive InputStatus
  | live | closed
  /-- Closed for a protocol error. -/
  | refused
  /-- Closed for a protocol error: too many records in one dispatch. -/
  | tooManyRecords
  deriving DecidableEq

structure Session where
  incoming : Bytes := []
  /-- The records passed to `handle_packet`. -/
  handled : List Bytes := []
  status : InputStatus := .live
  deriving DecidableEq

def Session.close (s : Session) (status : InputStatus) : Session :=
  { s with incoming := [], status := status }

/-- `handle_packet` lets through a greeting without component, and calls. -/
def accepts (message : DecodedMessage) : Bool :=
  (message.type = .hello ∧ message.component = [] ∧ message.generation = none)
    ∨ message.type = .call

section

variable (options : BrokerOptions) (env : Environment)

/-- What becomes of one record of at most `max_packet_bytes` bytes; `none` when an exception
leaves `handle_packet`. -/
def takeRecord (s : Session) (record : Bytes) : Option Session :=
  match decodeMessage record with
  | .error _ => some (s.close .refused)
  | .ok message =>
    let s := { s with handled := s.handled ++ [record] }
    if accepts message then
      match env.answer s.handled with
      | .kept => some s
      | .closed => some (s.close .closed)
      | .raised => none
    else some (s.close .refused)

/-- The loop of `handle_public_bytes` over what it has not looked at of the buffer `whole`:
`record` is the line so far and `count` the number of records before it. Only the end of the
loop shortens the buffer. -/
def readLines (whole : Bytes) : Bytes → ℕ → Session → Bytes → Session
  | record, _, s, [] =>
    if maxPacketBytes < record.length then s.close .refused else { s with incoming := record }
  | record, count, s, b :: rest =>
    if b = lineFeed then
      if options.maxPacketsPerDispatch ≤ count then s.close .tooManyRecords
      else if maxPacketBytes < record.length then s.close .refused
      else
        match takeRecord env s record with
        | none => { s with incoming := whole, handled := s.handled ++ [record] }
        | some s => if s.status = .live then readLines whole [] (count + 1) s rest else s
    else readLines whole (record ++ [b]) count s rest

def handlePublicBytes (s : Session) (received : Bytes) : Session :=
  let incoming := s.incoming ++ received
  readLines options env incoming [] 0 { s with incoming := [] } incoming

/-- A chunk that arrives when the session is gone is never read. -/
def receive (s : Session) (chunk : Bytes) : Session :=
  if s.status = .live then handlePublicBytes options env s chunk else s

/-- The session after the chunks of its stream. -/
def receiveAll (chunks : List Bytes) : Session := chunks.foldl (receive options env) {}

/-! ## Byte by byte -/

/-- The reader of single bytes, which has no dispatches. -/
def feed (s : Session) (b : UInt8) : Session :=
  if s.status ≠ .live then s
  else if b = lineFeed then (takeRecord env { s with incoming := [] } s.incoming).getD s
  else if maxPacketBytes ≤ s.incoming.length then s.close .refused
  else { s with incoming := s.incoming ++ [b] }

end

variable {options : BrokerOptions} {env : Environment}

/-- No exception leaves `handle_packet`. -/
def Quiet (env : Environment) : Prop := ∀ handled, env.answer handled ≠ .raised

theorem foldl_feed_closed {s : Session} (h : s.status ≠ .live) (bytes : Bytes) :
    bytes.foldl (feed env) s = s := by
  induction bytes with
  | nil => rfl
  | cons b bytes ih => rw [List.foldl_cons, feed, if_pos h, ih]

theorem takeRecord_quiet (hquiet : Quiet env) (s : Session) (record : Bytes) :
    ∃ t, takeRecord env s record = some t := by
  unfold takeRecord
  cases decodeMessage record with
  | error detail => exact ⟨_, rfl⟩
  | ok message =>
    dsimp only
    split_ifs
    · cases hanswer : env.answer (s.handled ++ [record]) with
      | kept => exact ⟨_, rfl⟩
      | closed => exact ⟨_, rfl⟩
      | raised => exact absurd hanswer (hquiet _)
    · exact ⟨_, rfl⟩

theorem takeRecord_incoming {s t : Session} {record : Bytes} (hempty : s.incoming = [])
    (h : takeRecord env s record = some t) : t.incoming = [] := by
  unfold takeRecord at h
  split at h
  · cases h
    rfl
  · dsimp only at h
    split_ifs at h
    · split at h <;> cases h
      · exact hempty
      · rfl
    · cases h
      rfl

/-- A line that is too long refuses the session wherever the chunk ends, unless the dispatch has
too many records before it. -/
theorem readLines_overlong {whole : Bytes} (rest : Bytes) : ∀ {record : Bytes} {count : ℕ}
    {s : Session}, maxPacketBytes < record.length →
      (readLines options env whole record count s rest).status ≠ .tooManyRecords →
      readLines options env whole record count s rest = s.close .refused := by
  induction rest with
  | nil =>
    intro record count s h _
    rw [readLines, if_pos h]
  | cons b rest ih =>
    intro record count s h hfew
    rw [readLines] at hfew ⊢
    split_ifs at hfew ⊢ with hline hmany
    · exact absurd rfl hfew
    · rfl
    · refine ih ?_ hfew
      rw [List.length_append]
      omega

/-- A dispatch that does not end at its bound reads as the reader of single bytes does. -/
theorem readLines_eq (hquiet : Quiet env) {whole : Bytes} (rest : Bytes) :
    ∀ (record : Bytes) (count : ℕ) (s : Session), s.status = .live → s.incoming = [] →
      record.length ≤ maxPacketBytes →
      (readLines options env whole record count s rest).status ≠ .tooManyRecords →
      readLines options env whole record count s rest
        = rest.foldl (feed env) { s with incoming := record } := by
  induction rest with
  | nil =>
    intro record count s _ _ hrecord _
    rw [readLines, if_neg (Nat.not_lt.mpr hrecord)]
    rfl
  | cons b rest ih =>
    intro record count s hlive hempty hrecord hfew
    have hself : { s with incoming := [] } = s := by
      rw [← hempty]
    rw [List.foldl_cons, feed, if_neg (not_not.mpr hlive), hself]
    rw [readLines] at hfew ⊢
    by_cases hline : b = lineFeed
    · rw [if_pos hline] at hfew ⊢
      rw [if_pos hline]
      by_cases hmany : options.maxPacketsPerDispatch ≤ count
      · rw [if_pos hmany] at hfew
        exact absurd rfl hfew
      rw [if_neg hmany, if_neg (Nat.not_lt.mpr hrecord)] at hfew ⊢
      obtain ⟨t, ht⟩ := takeRecord_quiet hquiet s record
      have hnone := takeRecord_incoming hempty ht
      have hsame : { t with incoming := [] } = t := by
        rw [← hnone]
      rw [ht] at hfew ⊢
      rw [Option.getD_some]
      dsimp only at hfew ⊢
      by_cases hgo : t.status = .live
      · rw [if_pos hgo] at hfew ⊢
        have hrest := ih [] _ t hgo hnone (Nat.zero_le _) hfew
        rw [hrest, hsame]
      · rw [if_neg hgo, foldl_feed_closed hgo]
    · rw [if_neg hline] at hfew ⊢
      rw [if_neg hline]
      by_cases hfull : maxPacketBytes ≤ record.length
      · -- the next byte makes the line too long
        rw [if_pos hfull, foldl_feed_closed (by simp [Session.close])]
        apply readLines_overlong rest _ hfew
        rw [List.length_append, List.length_singleton]
        omega
      · rw [if_neg hfull]
        apply ih _ _ _ hlive hempty _ hfew
        rw [List.length_append, List.length_singleton]
        omega

/-- The buffer holds the start of one line. -/
structure Waits (s : Session) : Prop where
  lineFree : lineFeed ∉ s.incoming
  bounded : s.incoming.length ≤ maxPacketBytes

theorem Waits.of_empty {s : Session} (h : s.incoming = []) : Waits s where
  lineFree := by simp [h]
  bounded := by simp [h]

theorem Waits.feed {s : Session} (hs : Waits s) (b : UInt8) : Waits (feed env s b) := by
  unfold PublicInput.feed
  split_ifs with hlive hline hfull
  · exact hs
  · cases h : takeRecord env { s with incoming := [] } s.incoming with
    | none => exact hs
    | some t => exact Waits.of_empty (takeRecord_incoming rfl h)
  · exact Waits.of_empty rfl
  · constructor
    · rw [List.mem_append, List.mem_singleton, not_or]
      exact ⟨hs.lineFree, Ne.symm hline⟩
    · rw [List.length_append, List.length_singleton]
      omega

theorem Waits.foldl_feed (bytes : Bytes) : ∀ {s : Session}, Waits s →
    Waits (bytes.foldl (PublicInput.feed env) s) := by
  induction bytes with
  | nil => exact id
  | cons b bytes ih => exact fun hs => ih (hs.feed b)

/-- Bytes without a line feed only fill the buffer. -/
theorem foldl_feed_lineFree (bytes : Bytes) : ∀ s : Session, s.status = .live →
    lineFeed ∉ bytes → s.incoming.length + bytes.length ≤ maxPacketBytes →
      bytes.foldl (feed env) s = { s with incoming := s.incoming ++ bytes } := by
  induction bytes with
  | nil =>
    intro s _ _ _
    rw [List.append_nil]
    rfl
  | cons b bytes ih =>
    intro s hlive hfree hlength
    rw [List.mem_cons, not_or] at hfree
    rw [List.length_cons] at hlength
    rw [List.foldl_cons, feed, if_neg (not_not.mpr hlive), if_neg (Ne.symm hfree.1),
      if_neg (by omega)]
    have hlength' : (s.incoming ++ [b]).length + bytes.length ≤ maxPacketBytes := by
      rw [List.length_append, List.length_singleton]
      omega
    rw [ih { s with incoming := s.incoming ++ [b] } hlive hfree.2 hlength']
    simp

theorem handlePublicBytes_eq (hquiet : Quiet env) {s : Session} {received : Bytes}
    (hlive : s.status = .live) (hs : Waits s)
    (hfew : (handlePublicBytes options env s received).status ≠ .tooManyRecords) :
    handlePublicBytes options env s received = received.foldl (feed env) s := by
  have hread := readLines_eq hquiet (s.incoming ++ received) [] 0 { s with incoming := [] } hlive
    rfl (Nat.zero_le _) hfew
  have hbuffer : s.incoming.foldl (feed env) { s with incoming := [] } = s := by
    rw [foldl_feed_lineFree _ { s with incoming := [] } hlive hs.lineFree]
    · rw [List.nil_append]
    · rw [List.length_nil, Nat.zero_add]
      exact hs.bounded
  rw [handlePublicBytes]
  dsimp only at hread ⊢
  rw [hread, List.foldl_append, hbuffer]

theorem foldl_receive_closed {s : Session} (h : s.status ≠ .live) (chunks : List Bytes) :
    chunks.foldl (receive options env) s = s := by
  induction chunks with
  | nil => rfl
  | cons chunk chunks ih => rw [List.foldl_cons, receive, if_neg h, ih]

theorem receive_eq (hquiet : Quiet env) {s : Session} {chunk : Bytes} (hs : Waits s)
    (hfew : (receive options env s chunk).status ≠ .tooManyRecords) :
    receive options env s chunk = chunk.foldl (feed env) s := by
  unfold receive at hfew ⊢
  split_ifs at hfew ⊢ with hlive
  · exact handlePublicBytes_eq hquiet hlive hs hfew
  · rw [foldl_feed_closed hlive]

/-- The chunks of a stream, no dispatch of which ends at its bound, read as its bytes do. -/
theorem foldl_receive_eq (hquiet : Quiet env) (chunks : List Bytes) : ∀ {s : Session}, Waits s →
    (chunks.foldl (receive options env) s).status ≠ .tooManyRecords →
      chunks.foldl (receive options env) s = chunks.flatten.foldl (feed env) s := by
  induction chunks with
  | nil => exact fun _ _ => rfl
  | cons chunk chunks ih =>
    intro s hs hfew
    rw [List.foldl_cons] at hfew ⊢
    rw [List.flatten_cons, List.foldl_append]
    by_cases hmany : (receive options env s chunk).status = .tooManyRecords
    · -- such a session is closed, and no later chunk is read
      rw [foldl_receive_closed (by rw [hmany]; decide)] at hfew
      exact absurd hmany hfew
    · have hchunk := receive_eq hquiet hs hmany
      rw [hchunk] at hfew ⊢
      exact ih (hs.foldl_feed chunk) hfew

/-! ## A chunk with few lines -/

/-! ## Two ways to cut one stream -/

/-- Two ways to cut one stream into chunks, neither of which closes the session for too many
records in one dispatch, pass the same records to `handle_packet` and close the session for a
protocol error after the same record, if at all. -/
theorem receiveAll_chunking (options : BrokerOptions) (env : Environment) (hquiet : Quiet env)
    (chunks chunks' : List Bytes) (hstream : chunks.flatten = chunks'.flatten)
    (hfew : (receiveAll options env chunks).status ≠ .tooManyRecords)
    (hfew' : (receiveAll options env chunks').status ≠ .tooManyRecords) :
    receiveAll options env chunks = receiveAll options env chunks' := by
  have hfirst := foldl_receive_eq hquiet chunks (Waits.of_empty rfl) hfew
  have hsecond := foldl_receive_eq hquiet chunks' (Waits.of_empty rfl) hfew'
  rw [receiveAll, receiveAll, hfirst, hsecond, hstream]

/-- Every packet is answered. -/
def calm : Environment := ⟨fun _ => .kept⟩

def greeting : Bytes := ascii "\x7b\"type\":\"hello\"\x7d\n"

/-- A greeting that arrives in two chunks. -/
theorem receiveAll_chunking_greeting :
    receiveAll {} calm [greeting.take 5, greeting.drop 5] = receiveAll {} calm [greeting] :=
  receiveAll_chunking {} calm (fun _ => nofun) _ _ (by decide +kernel) (by decide +kernel)
    (by decide +kernel)

/-- The answer to the second record is an exception. -/
def raising : Environment := ⟨fun handled => if handled.length = 2 then .raised else .kept⟩

/-- In one chunk, 33 greetings are one too many for a dispatch; and after an exception the
records before it are read again with the next chunk. -/
theorem greetings_chunking_matters :
    (¬ ∀ chunks chunks' : List Bytes, chunks.flatten = chunks'.flatten →
      (receiveAll {} calm chunks).status = (receiveAll {} calm chunks').status) ∧
    ¬ ∀ chunks chunks' : List Bytes, chunks.flatten = chunks'.flatten →
      (receiveAll {} raising chunks).handled = (receiveAll {} raising chunks').handled := by
  constructor
  · intro h
    have hcut := h [(List.replicate 33 greeting).flatten]
      [greeting, (List.replicate 32 greeting).flatten] (by decide +kernel)
    revert hcut
    decide +kernel
  · intro h
    have hcut := h [greeting ++ greeting, greeting] [greeting, greeting, greeting]
      (by decide +kernel)
    revert hcut
    decide +kernel

end MsysCore.Native.PublicInput
