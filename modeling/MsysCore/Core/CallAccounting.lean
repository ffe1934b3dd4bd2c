import MsysCore.Core.AtMostOnce
import MsysCore.Lib.OrderedDict
import MsysCore.Lib.Runs

/-!
# Accounting of forwarded calls

Any number of `_forward_call` runs share the table of pending calls and the counter of each
provider. A run registers itself and sends in one stretch, waits for its future, and its
`finally` takes the registration back. Replies, timeouts, exits, stops and cancellations reach
it in any order.
-/

namespace MsysCore.Core

open Python

inductive Future
  | pending
  | result (response : Dict)

/-- The part of an `Instance` that forwarding uses. -/
structure CallChannel where
  key : PyStr
  /-- `pending_calls`: the request id and the run that waits for it. -/
  pendingCalls : List (ℤ × ℕ)
  inFlightCalls : ℤ
  /-- `sock` is not `None`. -/
  isOpen : Bool

/-- A `_forward_call` that has counted itself in. -/
structure ForwardRun where
  index : ℕ
  provider : ℕ
  msg : Dict
  publicId : ℤ
  requestId : Option ℤ
  future : Future

/-- A run that has ended; a cancelled one has no result. -/
structure EndedRun where
  provider : ℕ
  msg : Dict
  requestId : Option ℤ
  result : Option (Except PyError Dict)

structure CallTable where
  nextRequestId : ℤ
  channels : ℕ → CallChannel
  running : List ForwardRun
  nextRun : ℕ
  ended : List EndedRun

namespace CallTable

def initial (keys : ℕ → PyStr) : CallTable where
  nextRequestId := 1
  channels := fun p => ⟨keys p, [], 0, true⟩
  running := []
  nextRun := 0
  ended := []

/-- `_begin_forward_call` -/
def beginForwardCall (channel : CallChannel) : CallChannel :=
  { channel with inFlightCalls := channel.inFlightCalls + 1 }

/-- `_finish_forward_call` -/
def finishForwardCall (channel : CallChannel) : CallChannel :=
  if channel.inFlightCalls ≤ 0 then { channel with inFlightCalls := 0 }
  else { channel with inFlightCalls := channel.inFlightCalls - 1 }

/-- `pending_calls[request_id] = future` -/
def register (channel : CallChannel) (requestId : Option ℤ) (index : ℕ) : CallChannel :=
  match requestId with
  | none => channel
  | some id => { channel with pendingCalls := OrderedDict.set channel.pendingCalls id index }

/-- `pending_calls.pop(request_id, None)` -/
def unregister (channel : CallChannel) (requestId : Option ℤ) : CallChannel :=
  match requestId with
  | none => channel
  | some id => { channel with pendingCalls := OrderedDict.pop channel.pendingCalls id }

/-- The run is counted in and, when the caller's id is a number, gets a request id and a
future in `pending_calls`. -/
def openRun (s : CallTable) (provider : ℕ) (msg : Dict) (publicId : Option ℤ) :
    CallTable × ForwardRun :=
  let run : ForwardRun :=
    { index := s.nextRun, provider := provider, msg := msg, publicId := publicId.getD 0
      requestId := publicId.map fun _ => s.nextRequestId, future := .pending }
  let channel := register (beginForwardCall (s.channels provider)) run.requestId run.index
  ({ s with
    nextRequestId := if publicId.isSome then s.nextRequestId + 1 else s.nextRequestId
    channels := Function.update s.channels provider channel
    running := s.running ++ [run]
    nextRun := s.nextRun + 1 }, run)

/-- The `finally` of `_forward_call`. -/
def closeRun (s : CallTable) (run : ForwardRun) (result : Option (Except PyError Dict)) :
    CallTable :=
  let channel := unregister (s.channels run.provider) run.requestId
  { s with
    channels := Function.update s.channels run.provider (finishForwardCall channel)
    running := s.running.filter fun other => other.index ≠ run.index
    ended := s.ended ++ [⟨run.provider, run.msg, run.requestId, result⟩] }

/-- `future.set_result` unless it is done. -/
def setResult (s : CallTable) (index : ℕ) (response : Dict) : CallTable :=
  { s with running := s.running.map fun run =>
      match run.future with
      | .pending => if run.index = index then { run with future := .result response } else run
      | .result _ => run }

inductive Label
  /-- `current`: the provider is the entry of its key; `sendError`: the `OSError` of the write. -/
  | forward (provider : ℕ) (msg : Dict) (source : PyStr) (current : Bool) (now : ℚ)
      (sendError : Option PyStr)
  | reply (provider : ℕ) (response : Dict)
  | resume (index : ℕ)
  | timeout (index : ℕ)
  | cancel (index : ℕ)
  /-- `_close_instance_channel` -/
  | close (provider : ℕ) (code : String)

/-- `_forward_call` up to its `await`: the result of a run that does not get there. -/
def sendCall (s : CallTable) (run : ForwardRun) (source : PyStr) (now : ℚ)
    (sendError : Option PyStr) : Option (Except PyError Dict) :=
  let provider : Provider := ⟨(s.channels run.provider).key, run.provider⟩
  match deadlineExpired run.msg now with
  | .error e => some (.error e)
  | .ok true =>
    some (.ok (errorReply (.int run.publicId) "CALL_TIMEOUT" (lit callDeadlineExpiredMessage)))
  | .ok false =>
    match encode (forwardedPacket provider run.msg source (run.requestId.getD 0)) with
    | .error e => some (.error e)
    | .ok _ => match sendError with
      | some reason => some (.ok (answerPacket provider run.publicId (.sendFailed reason)))
      | none => none

def findRun (s : CallTable) (index : ℕ) : Option ForwardRun :=
  s.running.find? fun run => run.index = index

/-- The error that ends every call pending on a channel; futures that are done keep their
result. -/
def failPending (s : CallTable) (provider : ℕ) (code : String) : CallTable :=
  let channel := s.channels provider
  let failed := channel.pendingCalls.foldl (fun t entry =>
    t.setResult entry.2 (errorReply (.int entry.1) code channel.key)) s
  { failed with
    channels := Function.update s.channels provider
      { channel with pendingCalls := [], isOpen := false } }

def step (py : Interpreter) (s : CallTable) : Label → Option CallTable
  | .forward provider msg source current now sendError =>
    if !(s.channels provider).isOpen || !current then
      some { s with ended := s.ended ++ [⟨provider, msg, none, some (.ok (noSocketPacket msg))⟩] }
    else match toInt py (callerId msg) with
      | .error e =>
        let (t, run) := s.openRun provider msg none
        some (t.closeRun run (some (.error e)))
      | .ok publicId =>
        let (t, run) := s.openRun provider msg (some publicId)
        match t.sendCall run source now sendError with
        | some result => some (t.closeRun run (some result))
        | none => some t
  | .reply provider response =>
    match Dict.get? response "id" with
    | none => some s
    | some value => match toInt py value with
      | .error _ => some s
      | .ok id => match OrderedDict.get (s.channels provider).pendingCalls id with
        | none => some s
        | some index =>
          some { s.setResult index response with
            channels := Function.update s.channels provider
              (unregister (s.channels provider) (some id)) }
  | .resume index => do
    let run ← s.findRun index
    match run.future with
    | .pending => none
    | .result response =>
      some (s.closeRun run (some (.ok (Dict.set response "id" (.int run.publicId)))))
  | .timeout index => do
    let run ← s.findRun index
    some (s.closeRun run (some (.ok (answerPacket ⟨(s.channels run.provider).key, run.provider⟩
      run.publicId .timeout))))
  | .cancel index => do
    let run ← s.findRun index
    some (s.closeRun run none)
  | .close provider code => some (s.failPending provider code)

/-! ## The invariant -/

/-- Request ids of all runs so far. -/
def requestIds (s : CallTable) : List ℤ :=
  s.running.filterMap ForwardRun.requestId ++ s.ended.filterMap EndedRun.requestId

/-- The reply goes to the caller under the id it called with. -/
def OwnReply (msg : Dict) (result : Option (Except PyError Dict)) : Prop :=
  ∀ response, result = some (.ok response) → ∀ id, callerId msg = .int id →
    Dict.get? response "id" = some (.int id)

structure AccountInv (s : CallTable) : Prop where
  counter : ∀ p, (s.channels p).inFlightCalls = s.running.countP fun run => run.provider = p
  ids : s.requestIds.Nodup
  bound : ∀ id ∈ s.requestIds, id < s.nextRequestId
  index : (s.running.map ForwardRun.index).Nodup
  indexBound : ∀ run ∈ s.running, run.index < s.nextRun
  pending : ∀ p id index, OrderedDict.get (s.channels p).pendingCalls id = some index →
    ∃ run ∈ s.running, run.index = index ∧ run.provider = p ∧ run.requestId = some id
  ownRun : ∀ run ∈ s.running, ∀ id, callerId run.msg = .int id → run.publicId = id
  ownEnded : ∀ ended ∈ s.ended, OwnReply ended.msg ended.result

theorem accountInv_initial (keys : ℕ → PyStr) : AccountInv (initial keys) where
  counter := fun p => rfl
  ids := List.nodup_nil
  bound := by simp [requestIds, initial]
  index := List.nodup_nil
  indexBound := by simp [initial]
  pending := by simp [initial, OrderedDict.get]
  ownRun := by simp [initial]
  ownEnded := by simp [initial]

section

variable {s t : CallTable} {run : ForwardRun}

/-- A run and the others. -/
theorem running_perm {runs : List ForwardRun} (hnodup : (runs.map ForwardRun.index).Nodup)
    (hrun : run ∈ runs) :
    runs.Perm (run :: runs.filter fun other => other.index ≠ run.index) := by
  induction runs with
  | nil => cases hrun
  | cons first rest ih =>
    obtain ⟨hfirst, hrest⟩ := List.nodup_cons.mp hnodup
    rcases List.mem_cons.mp hrun with rfl | hmem
    · have hkept : rest.filter (fun other => other.index ≠ run.index) = rest := by
        apply List.filter_eq_self.mpr
        intro other hother
        simp only [decide_eq_true_eq]
        intro heq
        exact hfirst (heq ▸ List.mem_map_of_mem hother)
      rw [List.filter_cons_of_neg (by simp), hkept]
    · have hne : first.index ≠ run.index := by
        intro heq
        exact hfirst (heq ▸ List.mem_map_of_mem hmem)
      rw [List.filter_cons_of_pos (by simpa using hne)]
      exact ((ih hrest hmem).cons first).trans (List.Perm.swap run first _)

theorem finishForwardCall_inFlightCalls {channel : CallChannel} (h : 0 < channel.inFlightCalls) :
    (finishForwardCall channel).inFlightCalls = channel.inFlightCalls - 1 := by
  unfold finishForwardCall
  rw [if_neg (by omega)]

@[simp] theorem finishForwardCall_pendingCalls (channel : CallChannel) :
    (finishForwardCall channel).pendingCalls = channel.pendingCalls := by
  unfold finishForwardCall
  split_ifs <;> rfl

@[simp] theorem register_inFlightCalls (channel : CallChannel) (requestId : Option ℤ) (index : ℕ) :
    (register channel requestId index).inFlightCalls = channel.inFlightCalls := by
  cases requestId <;> rfl

@[simp] theorem unregister_inFlightCalls (channel : CallChannel) (requestId : Option ℤ) :
    (unregister channel requestId).inFlightCalls = channel.inFlightCalls := by
  cases requestId <;> rfl

theorem get_register (channel : CallChannel) (requestId : Option ℤ) (index : ℕ) (id : ℤ) :
    OrderedDict.get (register channel requestId index).pendingCalls id =
      if requestId = some id then some index else OrderedDict.get channel.pendingCalls id := by
  cases requestId with
  | none => simp [register]
  | some own => simp [register, OrderedDict.get_set, eq_comm]

theorem get_unregister (channel : CallChannel) (requestId : Option ℤ) (id : ℤ) :
    OrderedDict.get (unregister channel requestId).pendingCalls id =
      if requestId = some id then none else OrderedDict.get channel.pendingCalls id := by
  cases requestId with
  | none => simp [unregister]
  | some own => simp [unregister, OrderedDict.get_pop, eq_comm]

/-- The `finally` takes back what the run has registered. -/
theorem AccountInv.closeRun (hinv : AccountInv s) (hrun : run ∈ s.running)
    {result : Option (Except PyError Dict)} (hown : OwnReply run.msg result) :
    AccountInv (s.closeRun run result) := by
  have hperm := running_perm hinv.index hrun
  have hids : (s.closeRun run result).requestIds.Perm s.requestIds := by
    have hleft := hperm.filterMap ForwardRun.requestId
    simp only [requestIds, CallTable.closeRun, List.filterMap_append, List.filterMap_cons,
      List.filterMap_nil]
    cases hid : run.requestId with
    | none =>
      simp only [hid, List.filterMap_cons] at hleft
      simpa using hleft.symm.append_right _
    | some id =>
      simp only [hid, List.filterMap_cons] at hleft
      refine (List.perm_append_comm.append_left _).trans ?_
      simpa using List.perm_middle.trans (hleft.symm.append_right _)
  have hother : ∀ p, p ≠ run.provider → (s.closeRun run result).channels p = s.channels p :=
    fun p hp => Function.update_of_ne hp _ _
  refine ⟨?_, hids.nodup_iff.mpr hinv.ids, ?_, ?_, ?_, ?_, ?_, ?_⟩
  · intro p
    have hcount := hperm.countP_eq fun other => decide (other.provider = p)
    have hbefore := hinv.counter p
    rw [hcount, List.countP_cons] at hbefore
    by_cases hp : p = run.provider
    · subst hp
      simp only [decide_true, if_true] at hbefore
      simp only [CallTable.closeRun, Function.update_self]
      rw [finishForwardCall_inFlightCalls (by rw [unregister_inFlightCalls]; omega),
        unregister_inFlightCalls, hbefore]
      simp
    · rw [hother p hp, hbefore]
      simp [CallTable.closeRun, Ne.symm hp]
  · intro id hid
    exact hinv.bound id (hids.mem_iff.mp hid)
  · exact hinv.index.sublist (List.filter_sublist.map _)
  · intro other hother
    exact hinv.indexBound other (List.mem_of_mem_filter hother)
  · intro p id index hget
    have hold : OrderedDict.get (s.channels p).pendingCalls id = some index ∧
        (p = run.provider → run.requestId ≠ some id) := by
      by_cases hp : p = run.provider
      · subst hp
        simp only [CallTable.closeRun, Function.update_self, finishForwardCall_pendingCalls,
          get_unregister] at hget
        split_ifs at hget with hid
        exact ⟨hget, fun _ => hid⟩
      · rw [hother p hp] at hget
        exact ⟨hget, fun heq => absurd heq hp⟩
    obtain ⟨waiting, hwaiting, hindex, hprovider, hid⟩ := hinv.pending p id index hold.1
    refine ⟨waiting, List.mem_filter.mpr ⟨hwaiting, ?_⟩, hindex, hprovider, hid⟩
    -- an entry left on the channel is not the one the run registered
    simp only [decide_eq_true_eq]
    intro heq
    have hsame : waiting = run := List.inj_on_of_nodup_map hinv.index hwaiting hrun heq
    rw [hsame] at hprovider hid
    exact hold.2 hprovider.symm hid
  · intro other hother
    exact hinv.ownRun other (List.mem_of_mem_filter hother)
  · intro ended hended
    rcases List.mem_append.mp hended with hold | hnew
    · exact hinv.ownEnded ended hold
    · rw [List.mem_singleton.mp hnew]
      exact hown

/-- A run is counted in under a fresh id. -/
theorem AccountInv.openRun (hinv : AccountInv s) (provider : ℕ) {msg : Dict} {publicId : Option ℤ}
    (hown : ∀ id, callerId msg = .int id → publicId = some id) :
    AccountInv (s.openRun provider msg publicId).1 := by
  have hother : ∀ p, p ≠ provider →
      (s.openRun provider msg publicId).1.channels p = s.channels p :=
    fun p hp => Function.update_of_ne hp _ _
  have hids : (s.openRun provider msg publicId).1.requestIds.Perm
      ((publicId.map fun _ => s.nextRequestId).toList ++ s.requestIds) := by
    simp only [requestIds, CallTable.openRun, List.filterMap_append, List.filterMap_cons,
      List.filterMap_nil]
    cases publicId with
    | none => simp
    | some id => simp
  refine ⟨?_, ?_, ?_, ?_, ?_, ?_, ?_, hinv.ownEnded⟩
  · intro p
    by_cases hp : p = provider
    · subst hp
      simp [CallTable.openRun, beginForwardCall, hinv.counter p, List.countP_append]
    · rw [hother p hp, hinv.counter p]
      simp [CallTable.openRun, List.countP_append, Ne.symm hp]
  · rw [hids.nodup_iff]
    cases publicId with
    | none => simpa using hinv.ids
    | some id =>
      refine List.nodup_cons.mpr ⟨fun hmem => ?_, hinv.ids⟩
      exact lt_irrefl _ (hinv.bound _ hmem)
  · intro id hid
    have hmem := hids.mem_iff.mp hid
    cases publicId with
    | none => exact hinv.bound id (by simpa using hmem)
    | some own =>
      have hnext : (s.openRun provider msg (some own)).1.nextRequestId = s.nextRequestId + 1 := rfl
      rw [hnext]
      rcases List.mem_cons.mp hmem with rfl | hold
      · exact Int.lt_succ s.nextRequestId
      · have hlt := hinv.bound id hold
        omega
  · have hmap : (s.openRun provider msg publicId).1.running.map ForwardRun.index =
        s.running.map ForwardRun.index ++ [s.nextRun] := by simp [CallTable.openRun]
    rw [hmap]
    refine List.nodup_append.mpr ⟨hinv.index, List.nodup_singleton _, ?_⟩
    intro i hi j hj
    obtain ⟨other, hmem, rfl⟩ := List.mem_map.mp hi
    rw [List.mem_singleton.mp hj]
    exact (hinv.indexBound other hmem).ne
  · intro other hmem
    show other.index < s.nextRun + 1
    rcases List.mem_append.mp hmem with hold | hnew
    · exact (hinv.indexBound other hold).trans (Nat.lt_succ_self _)
    · rw [List.mem_singleton.mp hnew]
      exact Nat.lt_succ_self _
  · intro p id index hget
    have hkeep : ∀ other ∈ s.running, other ∈ (s.openRun provider msg publicId).1.running :=
      fun other hmem => List.mem_append_left _ hmem
    by_cases hp : p = provider
    · subst hp
      simp only [CallTable.openRun, Function.update_self, get_register] at hget
      split_ifs at hget with hid
      · cases hget
        exact ⟨_, List.mem_append_right _ (List.mem_singleton_self _), rfl, rfl, hid⟩
      · obtain ⟨other, hmem, hfacts⟩ := hinv.pending p id index hget
        exact ⟨other, hkeep other hmem, hfacts⟩
    · rw [hother p hp] at hget
      obtain ⟨other, hmem, hfacts⟩ := hinv.pending p id index hget
      exact ⟨other, hkeep other hmem, hfacts⟩
  · intro other hmem id hid
    rcases List.mem_append.mp hmem with hold | hnew
    · exact hinv.ownRun other hold id hid
    · rw [List.mem_singleton.mp hnew] at hid ⊢
      simp [hown id hid]

/-! ## Completing a future -/

/-- The run without its future. -/
def identity (run : ForwardRun) : ForwardRun := { run with future := .pending }

theorem identity_setResult (s : CallTable) (index : ℕ) (response : Dict) :
    (s.setResult index response).running.map identity = s.running.map identity := by
  simp only [setResult, List.map_map]
  apply List.map_congr_left
  intro run _
  simp only [Function.comp_apply]
  split
  · split_ifs <;> rfl
  · rfl

/-- Completing futures and taking entries off the tables keeps the accounts. -/
theorem AccountInv.completed (hinv : AccountInv s)
    (hruns : t.running.map identity = s.running.map identity) (hended : t.ended = s.ended)
    (hnext : t.nextRequestId = s.nextRequestId) (hnextRun : t.nextRun = s.nextRun)
    (hcounter : ∀ p, (t.channels p).inFlightCalls = (s.channels p).inFlightCalls)
    (hpending : ∀ p id index, OrderedDict.get (t.channels p).pendingCalls id = some index →
      OrderedDict.get (s.channels p).pendingCalls id = some index) : AccountInv t := by
  have hback : ∀ run ∈ t.running, ∃ old ∈ s.running, identity old = identity run := by
    intro run hrun
    have hmem : identity run ∈ s.running.map identity := hruns ▸ List.mem_map_of_mem hrun
    exact List.mem_map.mp hmem
  have hforth : ∀ run ∈ s.running, ∃ new ∈ t.running, identity new = identity run := by
    intro run hrun
    have hmem : identity run ∈ t.running.map identity := hruns ▸ List.mem_map_of_mem hrun
    exact List.mem_map.mp hmem
  have hids : t.requestIds = s.requestIds := by
    have hmap := congrArg (List.filterMap ForwardRun.requestId) hruns
    simp only [List.filterMap_map] at hmap
    rw [requestIds, requestIds, hended]
    exact congrArg (· ++ _) hmap
  refine ⟨?_, hids ▸ hinv.ids, ?_, ?_, ?_, ?_, ?_, hended ▸ hinv.ownEnded⟩
  · intro p
    have hcount := congrArg (List.countP fun run => decide (run.provider = p)) hruns
    simp only [List.countP_map] at hcount
    rw [hcounter, hinv.counter p]
    exact congrArg _ hcount.symm
  · rw [hids, hnext]
    exact hinv.bound
  · have hindex := congrArg (List.map ForwardRun.index) hruns
    simp only [List.map_map] at hindex
    have heq : t.running.map ForwardRun.index = s.running.map ForwardRun.index := hindex
    rw [heq]
    exact hinv.index
  · intro run hrun
    obtain ⟨old, hold, heq⟩ := hback run hrun
    have hlt := hinv.indexBound old hold
    have hindex : (identity old).index = (identity run).index := congrArg ForwardRun.index heq
    rw [hnextRun]
    exact hindex ▸ hlt
  · intro p id index hget
    obtain ⟨old, hold, hindex, hprovider, hid⟩ := hinv.pending p id index (hpending p id index hget)
    obtain ⟨run, hrun, heq⟩ := hforth old hold
    exact ⟨run, hrun, (congrArg ForwardRun.index heq).trans hindex,
      (congrArg ForwardRun.provider heq).trans hprovider,
      (congrArg ForwardRun.requestId heq).trans hid⟩
  · intro run hrun id hid
    obtain ⟨old, hold, heq⟩ := hback run hrun
    have hmsg : (identity old).msg = (identity run).msg := congrArg ForwardRun.msg heq
    exact (congrArg ForwardRun.publicId heq).symm.trans (hinv.ownRun old hold id (hmsg ▸ hid))

theorem AccountInv.setResult (hinv : AccountInv s) (index : ℕ) (response : Dict) :
    AccountInv (s.setResult index response) :=
  hinv.completed (identity_setResult s index response) rfl rfl rfl (fun _ => rfl)
    fun _ _ _ hget => hget

theorem AccountInv.failPending (hinv : AccountInv s) (provider : ℕ) (code : String) :
    AccountInv (s.failPending provider code) := by
  have hfold : ∀ (entries : List (ℤ × ℕ)) (key : PyStr) (t : CallTable), AccountInv t →
      AccountInv (entries.foldl (fun t entry =>
        t.setResult entry.2 (errorReply (.int entry.1) code key)) t) ∧
      (entries.foldl (fun t entry =>
        t.setResult entry.2 (errorReply (.int entry.1) code key)) t).channels = t.channels := by
    intro entries key
    induction entries with
    | nil => exact fun t ht => ⟨ht, rfl⟩
    | cons entry entries ih => exact fun t ht => ih _ (ht.setResult _ _)
  obtain ⟨hfailed, hchannels⟩ :=
    hfold (s.channels provider).pendingCalls (s.channels provider).key s hinv
  refine hfailed.completed rfl rfl rfl rfl ?_ ?_
  · intro p
    rw [hchannels]
    by_cases hp : p = provider
    · simp [CallTable.failPending, hp]
    · simp [CallTable.failPending, hp]
  · intro p id index hget
    rw [hchannels]
    by_cases hp : p = provider
    · simp [CallTable.failPending, hp, OrderedDict.get] at hget
    · simpa [CallTable.failPending, hp] using hget

/-! ## Steps -/

variable {py : Interpreter}

theorem ownReply_none (msg : Dict) : OwnReply msg none := by
  intro response hresult
  cases hresult

theorem ownReply_error (msg : Dict) (e : PyError) : OwnReply msg (some (.error e)) := by
  intro response hresult
  cases hresult

theorem ownReply_of_get? {msg response : Dict} {publicId : ℤ}
    (hown : ∀ id, callerId msg = .int id → publicId = id)
    (hget : Dict.get? response "id" = some (.int publicId)) :
    OwnReply msg (some (.ok response)) := by
  intro _ hresult id hid
  cases hresult
  rw [hget, hown id hid]

theorem ownReply_noSocket (msg : Dict) : OwnReply msg (some (.ok (noSocketPacket msg))) := by
  intro _ hresult id hid
  cases hresult
  simp [noSocketPacket, hid]

theorem get?_answerPacket (provider : Provider) (id : ℤ) (answer : Answer) :
    Dict.get? (answerPacket provider id answer) "id" = some (.int id) := by
  cases answer with
  | sendFailed reason => simp [answerPacket, errorReply]
  | timeout => simp [answerPacket, errorReply]
  | reply response => exact get?_set_self _ _ _

theorem ownReply_sendCall {source : PyStr} {now : ℚ} {sendError : Option PyStr}
    {result : Except PyError Dict} (hown : ∀ id, callerId run.msg = .int id → run.publicId = id)
    (h : s.sendCall run source now sendError = some result) : OwnReply run.msg (some result) := by
  simp only [sendCall] at h
  split at h
  · cases h
    exact ownReply_error _ _
  · cases h
    exact ownReply_of_get? hown (by simp [errorReply])
  · split at h
    · cases h
      exact ownReply_error _ _
    · split at h
      · cases h
        exact ownReply_of_get? hown (get?_answerPacket _ _ _)
      · cases h

theorem mem_openRun (s : CallTable) (provider : ℕ) (msg : Dict) (publicId : Option ℤ) :
    (s.openRun provider msg publicId).2 ∈ (s.openRun provider msg publicId).1.running :=
  List.mem_append_right _ (List.mem_singleton_self _)

theorem findRun_eq_some {index : ℕ} (h : s.findRun index = some run) : run ∈ s.running :=
  List.mem_of_find?_eq_some h

theorem accountInv_refused (hinv : AccountInv s) (provider : ℕ) (msg : Dict) :
    AccountInv { s with
      ended := s.ended ++ [⟨provider, msg, none, some (.ok (noSocketPacket msg))⟩] } := by
  have hids : CallTable.requestIds { s with
      ended := s.ended ++ [⟨provider, msg, none, some (.ok (noSocketPacket msg))⟩] } =
      s.requestIds := by simp [requestIds]
  refine ⟨hinv.counter, hids ▸ hinv.ids, hids ▸ hinv.bound, hinv.index, hinv.indexBound,
    hinv.pending, hinv.ownRun, ?_⟩
  intro ended hended
  rcases List.mem_append.mp hended with hold | hnew
  · exact hinv.ownEnded ended hold
  · rw [List.mem_singleton.mp hnew]
    exact ownReply_noSocket msg

theorem step_accountInv {l : Label} (hinv : AccountInv s) (h : step py s l = some t) :
    AccountInv t := by
  cases l with
  | forward provider msg source current now sendError =>
    simp only [step] at h
    split_ifs at h with hclosed
    · cases h
      exact accountInv_refused hinv provider msg
    · split at h
      · rename_i e hid
        cases h
        have hown : ∀ id, callerId msg = .int id → (none : Option ℤ) = some id := by
          intro id hcaller
          rw [hcaller] at hid
          cases hid
        exact (hinv.openRun provider hown).closeRun (mem_openRun _ _ _ _) (ownReply_error _ _)
      · rename_i publicId hid
        have hown : ∀ id, callerId msg = .int id → some publicId = some id := by
          intro id hcaller
          rw [hcaller] at hid
          cases hid
          rfl
        have hopened := hinv.openRun provider hown
        split at h
        · rename_i result hsend
          cases h
          exact hopened.closeRun (mem_openRun _ _ _ _)
            (ownReply_sendCall (hopened.ownRun _ (mem_openRun _ _ _ _)) hsend)
        · cases h
          exact hopened
  | reply provider response =>
    simp only [step] at h
    split at h
    · cases h
      exact hinv
    · split at h
      · cases h
        exact hinv
      · rename_i id _
        split at h
        · cases h
          exact hinv
        · rename_i index _
          cases h
          refine (hinv.setResult index response).completed rfl rfl rfl rfl ?_ ?_
          · intro p
            by_cases hp : p = provider <;> simp [hp, CallTable.setResult]
          · intro p other entry hget
            by_cases hp : p = provider
            · subst hp
              simp only [Function.update_self, get_unregister] at hget
              split_ifs at hget
              exact hget
            · simpa [hp, CallTable.setResult] using hget
  | resume index =>
    simp only [step, Option.bind_eq_bind, Option.bind_eq_some_iff] at h
    obtain ⟨run, hfind, h⟩ := h
    have hrun := findRun_eq_some hfind
    split at h
    · cases h
    · cases h
      exact hinv.closeRun hrun (ownReply_of_get? (hinv.ownRun run hrun) (get?_set_self _ _ _))
  | timeout index =>
    simp only [step, Option.bind_eq_bind, Option.bind_eq_some_iff, Option.some.injEq] at h
    obtain ⟨run, hfind, rfl⟩ := h
    have hrun := findRun_eq_some hfind
    exact hinv.closeRun hrun (ownReply_of_get? (hinv.ownRun run hrun) (get?_answerPacket _ _ _))
  | cancel index =>
    simp only [step, Option.bind_eq_bind, Option.bind_eq_some_iff, Option.some.injEq] at h
    obtain ⟨run, hfind, rfl⟩ := h
    exact hinv.closeRun (findRun_eq_some hfind) (ownReply_none _)
  | close provider code =>
    cases h
    exact hinv.failPending provider code

/-- A run that a result was set on, or one that was there before. -/
theorem mem_setResult {index : ℕ} {response : Dict} (h : run ∈ (s.setResult index response).running) :
    run ∈ s.running ∨ ∃ old ∈ s.running, old.index = index ∧ run.provider = old.provider := by
  obtain ⟨old, hold, rfl⟩ := List.mem_map.mp h
  split
  · split_ifs with hindex
    · exact .inr ⟨old, hold, hindex, rfl⟩
    · exact .inl hold
  · exact .inl hold

/-- What a reply of a provider may do. -/
structure ReplyLocal (py : Interpreter) (s : CallTable) (provider : ℕ) (response : Dict)
    (t : CallTable) : Prop where
  ended : t.ended = s.ended
  own : ∀ run ∈ t.running, run ∉ s.running → run.provider = provider
  unknown : (∀ value id, Dict.get? response "id" = some value → toInt py value = .ok id →
    OrderedDict.get (s.channels provider).pendingCalls id = none) → t = s

theorem ReplyLocal.refl (s : CallTable) (provider : ℕ) (response : Dict) :
    ReplyLocal py s provider response s :=
  ⟨rfl, fun _ hrun habsent => absurd hrun habsent, fun _ => rfl⟩

theorem AccountInv.replyLocal (hinv : AccountInv s) {provider : ℕ} {response : Dict}
    (h : step py s (.reply provider response) = some t) :
    ReplyLocal py s provider response t := by
  simp only [step] at h
  split at h
  · cases h
    exact ReplyLocal.refl s provider response
  · rename_i value hvalue
    split at h
    · cases h
      exact ReplyLocal.refl s provider response
    · rename_i id hid
      split at h
      · cases h
        exact ReplyLocal.refl s provider response
      · rename_i index hpending
        cases h
        refine ⟨rfl, ?_, ?_⟩
        · intro run hrun habsent
          rcases mem_setResult hrun with hsame | ⟨old, hold, hindex, hprovider⟩
          · exact absurd hsame habsent
          · obtain ⟨waiting, hwaiting, hwaits, hof, -⟩ := hinv.pending provider id index hpending
            have heq : old = waiting :=
              List.inj_on_of_nodup_map hinv.index hold hwaiting (hindex.trans hwaits.symm)
            rw [hprovider, heq, hof]
        · intro hnone
          rw [hnone value id hvalue hid] at hpending
          cases hpending

/-- What the table records of the runs so far. -/
structure Accounted (s : CallTable) : Prop where
  fresh : s.requestIds.Nodup
  gone : ∀ ended ∈ s.ended, ∀ id, ended.requestId = some id →
    ∀ p, OrderedDict.get (s.channels p).pendingCalls id = none
  counter : ∀ p, (s.channels p).inFlightCalls = s.running.countP fun run => run.provider = p
  nonneg : ∀ p, 0 ≤ (s.channels p).inFlightCalls
  ownId : ∀ ended ∈ s.ended, OwnReply ended.msg ended.result

theorem AccountInv.accounted (hinv : AccountInv s) : Accounted s where
  fresh := hinv.ids
  gone := by
    intro ended hended id hid p
    rw [Option.eq_none_iff_forall_ne_some]
    intro index hpending
    obtain ⟨run, hrun, -, -, hrunId⟩ := hinv.pending p id index hpending
    -- the id of an ended run cannot be the id of a running one
    have hdisjoint := (List.nodup_append.mp hinv.ids).2.2
    exact hdisjoint id (List.mem_filterMap.mpr ⟨run, hrun, hrunId⟩) id
      (List.mem_filterMap.mpr ⟨ended, hended, hid⟩) rfl
  counter := hinv.counter
  nonneg := by
    intro p
    rw [hinv.counter p]
    exact Int.natCast_nonneg _
  ownId := hinv.ownEnded

/-- In every run, the table accounts for every forwarded call, and a reply completes at most a
call that is pending on the provider that sent it. -/
theorem forward_accounting (keys : ℕ → PyStr) (ls : List Label)
    (hrun : Runs.run (step py) (initial keys) ls = some s) :
    Accounted s ∧ ∀ provider response t, step py s (.reply provider response) = some t →
      ReplyLocal py s provider response t := by
  have hinv : AccountInv s :=
    Runs.run_invariant_all (fun _ _ _ => step_accountInv) ls (accountInv_initial keys) hrun
  exact ⟨hinv.accounted, fun provider response t h => hinv.replyLocal h⟩

end

/-- One call to `a`, which answers under a foreign id, then twice under the right one. -/
def answeredTwice : List Label :=
  [.forward 0 (plainCall "component:a") (lit "b") true 0 none,
    .reply 0 (record [("type", text "return"), ("id", .int 7)]),
    .reply 0 (record [("type", text "return"), ("id", .int 1)]),
    .reply 0 (record [("type", text "return"), ("id", .int 1)]),
    .resume 0]

theorem answeredTwice_accounted :
    ∃ s, Runs.run (step asciiInterpreter) (initial fun _ => lit "a") answeredTwice = some s ∧
      s.ended.length = 1 ∧ Accounted s := by
  have hended : (Runs.run (step asciiInterpreter) (initial fun _ => lit "a") answeredTwice).map
      (fun s => s.ended.length) = some 1 := by decide +kernel
  obtain ⟨s, hrun, hlength⟩ := Option.map_eq_some_iff.mp hended
  exact ⟨s, hrun, hlength, (forward_accounting _ answeredTwice hrun).1⟩

end CallTable

end MsysCore.Core
