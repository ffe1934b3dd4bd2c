import MsysCore.Core.EventBus

/-!
# Who may publish and who receives

Invariants of the event plane. A subscription is covered by a grant of its component
from the moment it is made, and containment carries that over to every delivery. A
published topic is covered by a grant unless it came through the `broadcast` method of
Core, whose only check is the one for calls.
-/

namespace MsysCore.Core.EventBus

open Python Runs

variable {py : Interpreter} {s t s' : EventBus}

/-! ## What the checks establish -/

/-- Some publish grant covers the topic; a topic that is no text is covered by none. -/
def PublishCovered (permissions : List PyStr) (topic : Json) : Prop :=
  ∃ g text, eventPermission .publish g ∈ permissions ∧ topic = .str text ∧
    subscriptionCovers g text = true

/-- What an instance may hold as subscriptions. -/
structure SubscriptionsGranted (channel : Channel) : Prop where
  bounded : channel.subscriptions.length ≤ maxSubscriptions
  granted : ∀ pattern ∈ channel.subscriptions, ∃ g,
    eventPermission .subscribe g ∈ channel.permissions ∧ subscriptionCovers g pattern = true

theorem publishCovered_of_refusal {channel : Channel} {message : Dict}
    (h : publishRefusal py channel message = none) :
    PublishCovered channel.permissions (.str (topicText message)) := by
  unfold publishRefusal at h
  simp only at h
  unfold topicText
  split at h
  · rename_i text htopic
    split_ifs at h with hvalid hallowed
    obtain ⟨-, g, hg, hcovers⟩ := allowsEvent_iff.mp (by simpa using hallowed)
    exact ⟨g, text, hg, rfl, hcovers⟩
  · cases h

theorem length_insert_le {patterns : List PyStr} {pattern : PyStr}
    (h : pattern ∈ patterns ∨ patterns.length < maxSubscriptions)
    (hbound : patterns.length ≤ maxSubscriptions) :
    (patterns.insert pattern).length ≤ maxSubscriptions := by
  by_cases hmem : pattern ∈ patterns
  · rwa [List.insert_of_mem hmem]
  · rw [List.insert_of_not_mem hmem, List.length_cons]
    exact h.resolve_left hmem

variable (py) in
/-- The `subscribe` branch keeps the permissions and the grants of the subscriptions. -/
theorem subscribe_granted (channel : Channel) (message : Dict) :
    (Core.subscribe py channel message).1.permissions = channel.permissions ∧
      (SubscriptionsGranted channel →
        SubscriptionsGranted (Core.subscribe py channel message).1) := by
  unfold Core.subscribe
  simp only
  split
  · rename_i text htopic
    split_ifs with hvalid hallowed hlimit
    · exact ⟨rfl, id⟩
    · exact ⟨rfl, id⟩
    · exact ⟨rfl, id⟩
    · refine ⟨rfl, fun h => ⟨?_, ?_⟩⟩
      · apply length_insert_le _ h.bounded
        simp only [Bool.and_eq_true, Bool.not_eq_true', List.contains_eq_mem, decide_eq_false_iff_not,
          decide_eq_true_eq, not_and, Nat.not_le] at hlimit
        exact Decidable.or_iff_not_imp_left.mpr hlimit
      · intro pattern hpattern
        rcases List.mem_insert_iff.mp hpattern with rfl | hpattern
        · obtain ⟨-, g, hg, hcovers⟩ := allowsEvent_iff.mp (by simpa using hallowed)
          exact ⟨g, hg, hcovers⟩
        · exact h.granted pattern hpattern
  · exact ⟨rfl, id⟩

theorem takeReply_granted {channel channel' : Channel} {message : Dict}
    (h : takeReply py channel message = .ok channel') :
    channel'.permissions = channel.permissions ∧ channel'.subscriptions = channel.subscriptions := by
  unfold takeReply at h
  split at h
  · cases h
    exact ⟨rfl, rfl⟩
  · obtain ⟨id, -, h⟩ := bind_eq_ok.mp h
    cases h
    exact ⟨rfl, rfl⟩

/-! ## What a step does -/

/-- The permissions of the component of an object. -/
def permissions (s : EventBus) (object : ℕ) : List PyStr :=
  ((s.objects[object]?).map Channel.permissions).getD []

/-- The table refers to objects, each of them at most once. -/
structure TableOk (s : EventBus) : Prop where
  created : ∀ object ∈ s.instances.map Prod.snd, object < s.objects.length
  nodup : (s.instances.map Prod.snd).Nodup

/-- From `s` to `t` nothing is broadcast, and the objects keep their permissions. -/
structure Quiet (s t : EventBus) : Prop where
  created : s.objects.length ≤ t.objects.length
  permissions : ∀ object < s.objects.length, t.permissions object = s.permissions object
  granted : (∀ channel ∈ s.objects, SubscriptionsGranted channel) →
    ∀ channel ∈ t.objects, SubscriptionsGranted channel
  table : TableOk s → TableOk t
  reloading : ∀ event ∈ t.reloading, event ∈ s.reloading ∨ (event.object < s.objects.length ∧
    PublishCovered (s.permissions event.object) (.str event.topic))
  broadcasts : t.broadcasts = s.broadcasts
  chosen : t.chosen = s.chosen
  deliveries : t.deliveries = s.deliveries

theorem Quiet.refl (s : EventBus) : Quiet s s where
  created := Nat.le_refl _
  permissions _ _ := rfl
  granted := id
  table := id
  reloading _ h := Or.inl h
  broadcasts := rfl
  chosen := rfl
  deliveries := rfl

/-- An object changes and keeps its permissions. -/
theorem quiet_setObject {object : ℕ} {channel channel' : Channel}
    (hobject : s.objects[object]? = some channel)
    (hpermissions : channel'.permissions = channel.permissions)
    (hgranted : SubscriptionsGranted channel → SubscriptionsGranted channel') :
    Quiet s (s.setObject object channel') where
  created := by simp [setObject]
  permissions := by
    intro other _
    unfold EventBus.permissions setObject
    rw [List.getElem?_set]
    split_ifs with heq hlt
    · subst heq
      rw [hobject, Option.map_some, Option.map_some, hpermissions]
    · subst heq
      simp at hlt
      rw [List.getElem?_eq_none hlt]
    · rfl
  granted := by
    intro h channel'' hmem
    rcases List.mem_or_eq_of_mem_set hmem with hmem | rfl
    · exact h channel'' hmem
    · exact hgranted (h channel (List.mem_of_getElem? hobject))
  table := by
    intro h
    refine ⟨?_, h.nodup⟩
    intro n hn
    rw [setObject, List.length_set]
    exact h.created n hn
  reloading _ h := Or.inl h
  broadcasts := rfl
  chosen := rfl
  deliveries := rfl

/-! ## Broadcasts -/

/-- A broadcast touches nothing but the record of deliveries. -/
theorem broadcast_frame (s : EventBus) (unreachable : PyStr → Bool) (topic payload : Json)
    (source : PyStr) : ∃ count sent, s.broadcast unreachable topic payload source =
      { s with broadcasts := count, deliveries := sent } := by
  unfold broadcast
  cases topic with
  | str text =>
    simp only
    split_ifs
    · exact ⟨_, _, rfl⟩
    · exact ⟨_, _, rfl⟩
  | null => exact ⟨_, _, rfl⟩
  | bool b => exact ⟨_, _, rfl⟩
  | int i => exact ⟨_, _, rfl⟩
  | float f => exact ⟨_, _, rfl⟩
  | list items => exact ⟨_, _, rfl⟩
  | dict entries => exact ⟨_, _, rfl⟩

theorem deliveredTo_sublist (env : Surroundings) (packet : Dict) (topic : PyStr)
    (entries : List (ℕ × Channel)) :
    (deliveredTo env packet topic entries).Sublist entries := by
  induction entries with
  | nil => exact List.Sublist.refl _
  | cons entry rest ih =>
    unfold deliveredTo
    split_ifs
    · split
      · exact ih.cons_cons _
      · split_ifs
        · exact ih.cons _
        · exact List.nil_sublist _
    · exact ih.cons _

theorem receives_of_deliveredTo {env : Surroundings} {packet : Dict} {topic : PyStr}
    {entries : List (ℕ × Channel)} {entry : ℕ × Channel}
    (h : entry ∈ deliveredTo env packet topic entries) : receives topic entry.2 = true := by
  induction entries with
  | nil => cases h
  | cons first rest ih =>
    unfold deliveredTo at h
    split_ifs at h with hreceives
    · split at h
      · rcases List.mem_cons.mp h with rfl | h
        · exact hreceives
        · exact ih h
      · split_ifs at h
        · exact ih h
        · cases h
    · exact ih h

theorem mem_receivers {entry : ℕ × Channel} (h : entry ∈ s.receivers) :
    s.objects[entry.1]? = some entry.2 := by
  obtain ⟨row, -, hrow⟩ := List.mem_filterMap.mp h
  obtain ⟨channel, hchannel, rfl⟩ := Option.map_eq_some_iff.mp hrow
  exact hchannel

theorem receivers_sublist (s : EventBus) :
    (s.receivers.map Prod.fst).Sublist (s.instances.map Prod.snd) := by
  unfold receivers
  induction s.instances with
  | nil => exact List.Sublist.refl _
  | cons row rest ih =>
    cases hrow : s.objects[row.2]? with
    | none =>
      rw [List.filterMap_cons_none (by rw [hrow]; rfl)]
      exact ih.cons _
    | some channel =>
      rw [List.filterMap_cons_some (by rw [hrow]; rfl)]
      exact ih.cons_cons _

/-- A delivery that its receiver was entitled to. -/
structure Entitled (s : EventBus) (d : Delivery) : Prop where
  created : d.object < s.objects.length
  permissions : d.receiver.permissions = s.permissions d.object
  ready : d.receiver.ready = true
  isOpen : d.receiver.isOpen = true
  granted : ∃ g, eventPermission .subscribe g ∈ d.receiver.permissions ∧
    subscriptionMatches g d.topic = true

structure DeliveriesOk (s : EventBus) : Prop where
  entitled : ∀ d ∈ s.deliveries, Entitled s d
  numbered : ∀ d ∈ s.deliveries, d.broadcast < s.broadcasts
  once : (s.deliveries.map fun d => (d.broadcast, d.object)).Nodup

theorem entitled_of_receives {object : ℕ} {channel : Channel} {topic : PyStr} {n : ℕ}
    (hobject : s.objects[object]? = some channel) (hgranted : SubscriptionsGranted channel)
    (h : receives topic channel = true) : Entitled s ⟨n, topic, object, channel⟩ := by
  unfold receives at h
  rw [Bool.and_eq_true, Bool.and_eq_true, List.any_eq_true] at h
  obtain ⟨⟨⟨pattern, hpattern, hmatches⟩, hopen⟩, hready⟩ := h
  obtain ⟨g, hg, hcovers⟩ := hgranted.granted pattern hpattern
  refine ⟨?_, ?_, hready, hopen, g, hg, subscriptionMatches_of_covers hcovers hmatches⟩
  · exact (List.getElem?_eq_some_iff.mp hobject).1
  · simp [permissions, hobject]

/-- A broadcast delivers to entitled receivers only, and to each of them once. -/
theorem broadcast_deliveriesOk (hgranted : ∀ channel ∈ s.objects, SubscriptionsGranted channel)
    (htable : TableOk s) (h : DeliveriesOk s) (unreachable : PyStr → Bool) (topic payload : Json)
    (source : PyStr) : DeliveriesOk (s.broadcast unreachable topic payload source) := by
  unfold broadcast
  split
  · rename_i text
    split_ifs with hvalid
    · simp only
      set reached := deliveredTo (surroundings unreachable (.ok .null) (s.receivers.map Prod.snd))
        (eventPacket text payload source) text s.receivers with hreached
      have hnew : ∀ entry ∈ reached, Entitled s ⟨s.broadcasts, text, entry.1, entry.2⟩ := by
        intro entry hentry
        have hobject := mem_receivers ((deliveredTo_sublist _ _ _ _).subset hentry)
        exact entitled_of_receives hobject (hgranted _ (List.mem_of_getElem? hobject))
          (receives_of_deliveredTo hentry)
      have hkeep : ∀ d, Entitled s d → Entitled
          { s with
            broadcasts := s.broadcasts + 1
            deliveries := s.deliveries ++
              reached.map fun entry => ⟨s.broadcasts, text, entry.1, entry.2⟩ } d :=
        fun d hd => ⟨hd.created, hd.permissions, hd.ready, hd.isOpen, hd.granted⟩
      constructor
      · intro d hd
        rcases List.mem_append.mp hd with hd | hd
        · exact hkeep d (h.entitled d hd)
        · obtain ⟨entry, hentry, rfl⟩ := List.mem_map.mp hd
          exact hkeep _ (hnew entry hentry)
      · intro d hd
        rcases List.mem_append.mp hd with hd | hd
        · exact Nat.lt_succ_of_lt (h.numbered d hd)
        · obtain ⟨entry, -, rfl⟩ := List.mem_map.mp hd
          exact Nat.lt_succ_self _
      · rw [List.map_append, List.map_map, List.nodup_append]
        refine ⟨h.once, ?_, ?_⟩
        · have hfst : (reached.map Prod.fst).Nodup :=
            (htable.nodup.sublist (receivers_sublist s)).sublist
              ((deliveredTo_sublist _ _ _ _).map Prod.fst)
          have hpairs := hfst.map (f := Prod.mk s.broadcasts) (fun a b hab => (Prod.mk.inj hab).2)
          rwa [List.map_map] at hpairs
        · rintro pair hold other hother rfl
          obtain ⟨d, hd, rfl⟩ := List.mem_map.mp hold
          obtain ⟨entry, -, hentry⟩ := List.mem_map.mp hother
          have hlt := h.numbered d hd
          have heq : s.broadcasts = d.broadcast := (Prod.mk.inj hentry).1
          omega
    · exact h
  · exact h

/-! ## Effects of the labels -/

/-- What a step did: nothing public, an event of Core, or one whose topic a component
chose. -/
inductive Effect (s s' : EventBus) : Option (ℕ × Json) → Prop
  | quiet (h : Quiet s s') : Effect s s' none
  | core {t : EventBus} (h : Quiet s t) (unreachable : PyStr → Bool) (topic payload : Json)
      (source : PyStr) (heq : s' = t.broadcast unreachable topic payload source) :
      Effect s s' none
  | chosen {t : EventBus} (h : Quiet s t) {object : ℕ} (hobject : object < s.objects.length)
      (unreachable : PyStr → Bool) (topic payload : Json) (source : PyStr)
      (heq : s' = t.chosenBroadcast object unreachable topic payload source) :
      Effect s s' (some (object, topic))

/-- The topic that a call step makes Core broadcast, with its sender. -/
def callChoice (py : Interpreter) (s : EventBus) (object : ℕ) (interfacesOf : PyStr → List PyStr)
    (message : Dict) : Option (ℕ × Json) :=
  match s.objects[object]?, calledBroadcast py message with
  | some channel, some (topic, _) =>
    if authorized py interfacesOf channel message then some (object, topic) else none
  | _, _ => none

def labelChoice (py : Interpreter) (s : EventBus) : Label → Option (ℕ × Json)
  | .call index interfacesOf _ =>
    match s.calls[index]? with
    | some (object, message) => callChoice py s object interfacesOf message
    | none => none
  | .publicCall object message interfacesOf _ => callChoice py s object interfacesOf message
  | _ => none

/-- A permitted call of `broadcast` asks for a topic that a publish grant covers. -/
def CallsWithinGrants (py : Interpreter) (s : EventBus) (label : Label) : Prop :=
  ∀ entry ∈ labelChoice py s label, PublishCovered (s.permissions entry.1) entry.2

theorem permissions_eq {object : ℕ} {channel : Channel} (h : s.objects[object]? = some channel) :
    s.permissions object = channel.permissions := by
  simp [permissions, h]

theorem created_of_object {object : ℕ} {channel : Channel} (h : s.objects[object]? = some channel) :
    object < s.objects.length :=
  (List.getElem?_eq_some_iff.mp h).1

theorem permissions_append {object : ℕ} (h : object < s.objects.length) (channel : Channel)
    (instances : List (PyStr × ℕ)) :
    permissions { s with objects := s.objects ++ [channel], instances := instances } object =
      s.permissions object := by
  unfold permissions
  rw [List.getElem?_append_left h]

theorem quiet_started (key : PyStr) (generation : ℤ) (granted : List PyStr) (ready : Bool) :
    Quiet s
      { s with
        objects := s.objects ++ [⟨key, generation, granted, true, ready, [], []⟩]
        instances := OrderedDict.set s.instances key s.objects.length } where
  created := by simp
  permissions object h := permissions_append h _ _
  granted := by
    intro h channel hmem
    rcases List.mem_append.mp hmem with hmem | hmem
    · exact h channel hmem
    · rw [List.mem_singleton.mp hmem]
      exact ⟨Nat.zero_le _, fun pattern hpattern => absurd hpattern List.not_mem_nil⟩
  table := by
    intro h
    have hnew : s.objects.length ∉ s.instances.map Prod.snd :=
      fun hmem => absurd (h.created _ hmem) (Nat.lt_irrefl _)
    refine ⟨?_, OrderedDict.nodup_values_set h.nodup key hnew⟩
    intro object hmem
    rw [List.length_append]
    rcases OrderedDict.mem_values_set hmem with rfl | hmem
    · exact Nat.lt_succ_self _
    · exact Nat.lt_succ_of_lt (h.created object hmem)
  reloading _ h := Or.inl h
  broadcasts := rfl
  chosen := rfl
  deliveries := rfl

theorem quiet_removed (key : PyStr) :
    Quiet s { s with instances := OrderedDict.pop s.instances key } where
  created := Nat.le_refl _
  permissions _ _ := rfl
  granted := id
  table h := ⟨fun object hmem => h.created object (OrderedDict.mem_values_pop hmem),
    OrderedDict.nodup_values_pop h.nodup key⟩
  reloading _ h := Or.inl h
  broadcasts := rfl
  chosen := rfl
  deliveries := rfl

theorem quiet_calls (calls : List (ℕ × Dict)) : Quiet s { s with calls := calls } where
  created := Nat.le_refl _
  permissions _ _ := rfl
  granted := id
  table h := ⟨h.created, h.nodup⟩
  reloading _ h := Or.inl h
  broadcasts := rfl
  chosen := rfl
  deliveries := rfl

/-- Waiting events may leave, and covered ones may join. -/
theorem quiet_reloading {events : List WaitingEvent}
    (h : ∀ event ∈ events, event ∈ s.reloading ∨ (event.object < s.objects.length ∧
      PublishCovered (s.permissions event.object) (.str event.topic))) :
    Quiet s { s with reloading := events } where
  created := Nat.le_refl _
  permissions _ _ := rfl
  granted := id
  table h := ⟨h.created, h.nodup⟩
  reloading := h
  broadcasts := rfl
  chosen := rfl
  deliveries := rfl

/-- Every topic an event packet gets broadcast, now or after the reload, is covered. -/
theorem publish_effect {object : ℕ} {channel : Channel} (hobject : s.objects[object]? = some channel)
    (unreachable : PyStr → Bool) (message : Dict) :
    ∃ choice, Effect s (publish py s object channel unreachable message) choice ∧
      ∀ entry ∈ choice, PublishCovered (s.permissions entry.1) entry.2 := by
  unfold publish
  cases hrefusal : publishRefusal py channel message with
  | some refusal => exact ⟨none, .quiet (Quiet.refl s), by simp⟩
  | none =>
    have hcovered := publishCovered_of_refusal hrefusal
    rw [← permissions_eq hobject] at hcovered
    simp only
    split_ifs with hreload
    · refine ⟨none, .quiet (quiet_reloading ?_), by simp⟩
      intro event hevent
      rcases List.mem_append.mp hevent with hevent | hevent
      · exact Or.inl hevent
      · rw [List.mem_singleton.mp hevent]
        exact Or.inr ⟨created_of_object hobject, hcovered⟩
    · refine ⟨_, .chosen (Quiet.refl s) (created_of_object hobject) _ _ _ _ rfl, ?_⟩
      rintro entry ⟨⟩
      exact hcovered

theorem quiet_resolveReply {object : ℕ} {channel : Channel}
    (hobject : s.objects[object]? = some channel) (message : Dict) :
    Quiet s (resolveReply py s object channel message) := by
  unfold resolveReply
  split
  · rename_i channel' htake
    obtain ⟨hperm, hsubs⟩ := takeReply_granted htake
    apply quiet_setObject hobject hperm
    intro h
    constructor
    · rw [hsubs]
      exact h.bounded
    · rw [hsubs, hperm]
      exact h.granted
  · exact Quiet.refl s

variable (py) in
theorem handlePacket_effect {object : ℕ} {channel : Channel}
    (hobject : s.objects[object]? = some channel) (unreachable : PyStr → Bool) (message : Dict) :
    ∃ choice, Effect s (handlePacket py s object channel unreachable message) choice ∧
      ∀ entry ∈ choice, PublishCovered (s.permissions entry.1) entry.2 := by
  have hquiet : ∀ {s'}, Quiet s s' → ∃ choice, Effect s s' choice ∧
      ∀ entry ∈ choice, PublishCovered (s.permissions entry.1) entry.2 :=
    fun h => ⟨none, .quiet h, by simp⟩
  unfold handlePacket
  cases packetType message with
  | subscribe =>
    obtain ⟨hperm, hgranted⟩ := subscribe_granted py channel message
    exact hquiet (quiet_setObject hobject hperm hgranted)
  | ready => exact hquiet (quiet_setObject hobject rfl fun h => ⟨h.bounded, h.granted⟩)
  | event => exact publish_effect hobject unreachable message
  | returned => exact hquiet (quiet_resolveReply hobject message)
  | error => exact hquiet (quiet_resolveReply hobject message)
  | call => exact hquiet (quiet_calls _)
  | hello => exact hquiet (Quiet.refl s)
  | other => exact hquiet (Quiet.refl s)

theorem dispatch_effect (h : Quiet s t) (hobjects : t.objects = s.objects) (object : ℕ)
    (interfacesOf : PyStr → List PyStr) (unreachable : PyStr → Bool) (message : Dict) :
    Effect s (dispatch py t object interfacesOf unreachable message)
      (callChoice py s object interfacesOf message) := by
  unfold dispatch callChoice
  rw [hobjects]
  cases hobject : s.objects[object]? with
  | none => exact .quiet h
  | some channel =>
    cases calledBroadcast py message with
    | none => exact .quiet h
    | some request =>
      simp only
      split_ifs
      · exact .chosen h (created_of_object hobject) _ _ _ _ rfl
      · exact .quiet h

/-! ## Runs -/

structure BusInv (s : EventBus) : Prop where
  granted : ∀ channel ∈ s.objects, SubscriptionsGranted channel
  table : TableOk s
  waiting : ∀ event ∈ s.reloading, event.object < s.objects.length ∧
    PublishCovered (s.permissions event.object) (.str event.topic)
  senders : ∀ entry ∈ s.chosen, entry.1 < s.objects.length
  delivered : DeliveriesOk s

theorem initial_inv : BusInv initial where
  granted := by simp [initial]
  table := ⟨by simp [initial], List.nodup_nil⟩
  waiting := by simp [initial]
  senders := by simp [initial]
  delivered := ⟨by simp [initial], by simp [initial], List.nodup_nil⟩

theorem Quiet.entitled (h : Quiet s t) {d : Delivery} (hd : Entitled s d) : Entitled t d where
  created := Nat.lt_of_lt_of_le hd.created h.created
  permissions := by rw [hd.permissions, h.permissions _ hd.created]
  ready := hd.ready
  isOpen := hd.isOpen
  granted := hd.granted

theorem Quiet.inv (h : Quiet s t) (hinv : BusInv s) : BusInv t where
  granted := h.granted hinv.granted
  table := h.table hinv.table
  waiting := by
    intro event hevent
    obtain ⟨hcreated, hcovered⟩ : event.object < s.objects.length ∧
        PublishCovered (s.permissions event.object) (.str event.topic) :=
      (h.reloading event hevent).elim (hinv.waiting event) id
    rw [h.permissions _ hcreated]
    exact ⟨Nat.lt_of_lt_of_le hcreated h.created, hcovered⟩
  senders := by
    intro entry hentry
    rw [h.chosen] at hentry
    exact Nat.lt_of_lt_of_le (hinv.senders entry hentry) h.created
  delivered := by
    constructor
    · intro d hd
      rw [h.deliveries] at hd
      exact h.entitled (hinv.delivered.entitled d hd)
    · rw [h.deliveries, h.broadcasts]
      exact hinv.delivered.numbered
    · rw [h.deliveries]
      exact hinv.delivered.once

theorem broadcast_inv (hinv : BusInv s) (unreachable : PyStr → Bool) (topic payload : Json)
    (source : PyStr) : BusInv (s.broadcast unreachable topic payload source) := by
  have hdelivered := broadcast_deliveriesOk hinv.granted hinv.table hinv.delivered unreachable topic
    payload source
  obtain ⟨count, sent, heq⟩ := broadcast_frame s unreachable topic payload source
  rw [heq] at hdelivered ⊢
  exact ⟨hinv.granted, ⟨hinv.table.created, hinv.table.nodup⟩, hinv.waiting, hinv.senders,
    hdelivered⟩

theorem chosen_inv (hinv : BusInv s) {object : ℕ} (hobject : object < s.objects.length)
    (topic : Json) : BusInv { s with chosen := s.chosen ++ [(object, topic)] } where
  granted := hinv.granted
  table := ⟨hinv.table.created, hinv.table.nodup⟩
  waiting := hinv.waiting
  senders := by
    intro entry hentry
    rcases List.mem_append.mp hentry with hentry | hentry
    · exact hinv.senders entry hentry
    · rw [List.mem_singleton.mp hentry]
      exact hobject
  delivered := by
    constructor
    · intro d hd
      have hold := hinv.delivered.entitled d hd
      exact ⟨hold.created, hold.permissions, hold.ready, hold.isOpen, hold.granted⟩
    · exact hinv.delivered.numbered
    · exact hinv.delivered.once

theorem Effect.inv {choice : Option (ℕ × Json)} (h : Effect s s' choice) (hinv : BusInv s) :
    BusInv s' := by
  cases h with
  | quiet h => exact h.inv hinv
  | core h unreachable topic payload source heq =>
    rw [heq]
    exact broadcast_inv (h.inv hinv) _ _ _ _
  | chosen h hobject unreachable topic payload source heq =>
    rw [heq]
    exact broadcast_inv (chosen_inv (h.inv hinv) (Nat.lt_of_lt_of_le hobject h.created) topic)
      _ _ _ _

/-- A step adds its choice to the record and keeps the permissions of every object. -/
theorem Effect.record {choice : Option (ℕ × Json)} (h : Effect s s' choice) :
    s'.chosen = s.chosen ++ choice.toList ∧
      (∀ object < s.objects.length, s'.permissions object = s.permissions object) ∧
      ∀ entry ∈ choice, entry.1 < s.objects.length := by
  cases h with
  | quiet h => exact ⟨by simp [h.chosen], h.permissions, by simp⟩
  | @core t h unreachable topic payload source heq =>
    obtain ⟨count, sent, hframe⟩ := broadcast_frame t unreachable topic payload source
    rw [heq, hframe]
    exact ⟨by simp [h.chosen], h.permissions, by simp⟩
  | @chosen t h object hobject unreachable topic payload source heq =>
    obtain ⟨count, sent, hframe⟩ := broadcast_frame { t with chosen := t.chosen ++ [(object, topic)] }
      unreachable topic payload source
    rw [heq, chosenBroadcast, hframe]
    refine ⟨by simp [h.chosen], h.permissions, ?_⟩
    rintro entry ⟨⟩
    exact hobject

/-- Only a call can choose a topic that is not covered. -/
theorem step_effect (hinv : BusInv s) {label : Label} (hstep : step py s label = some s') :
    ∃ choice, Effect s s' choice ∧
      ((∀ entry ∈ choice, PublishCovered (s.permissions entry.1) entry.2) ↔
        CallsWithinGrants py s label) := by
  cases label with
  | started key generation granted ready =>
    cases hstep
    exact ⟨none, .quiet (quiet_started key generation granted ready), Iff.rfl⟩
  | removed key =>
    cases hstep
    exact ⟨none, .quiet (quiet_removed key), Iff.rfl⟩
  | status object isOpen ready =>
    obtain ⟨channel, hobject, hset⟩ := Option.bind_eq_some_iff.mp hstep
    cases hset
    exact ⟨none, .quiet (quiet_setObject hobject rfl fun h => ⟨h.bounded, h.granted⟩), Iff.rfl⟩
  | packet object message unreachable =>
    obtain ⟨channel, hobject, hhandle⟩ := Option.bind_eq_some_iff.mp hstep
    cases hhandle
    obtain ⟨choice, heffect, hcovered⟩ := handlePacket_effect py hobject unreachable message
    exact ⟨choice, heffect, iff_of_true hcovered (by simp [CallsWithinGrants, labelChoice])⟩
  | reloaded index outcome unreachable =>
    obtain ⟨event, hevent, hrest⟩ := Option.bind_eq_some_iff.mp hstep
    obtain ⟨channel, hobject, hpublish⟩ := Option.bind_eq_some_iff.mp hrest
    have hquiet : Quiet s { s with reloading := s.reloading.eraseIdx index } :=
      quiet_reloading fun event' h => Or.inl (List.mem_of_mem_eraseIdx h)
    have hcovered := (hinv.waiting event (List.mem_of_getElem? hevent)).2
    have hlabel : CallsWithinGrants py s (.reloaded index outcome unreachable) := by
      simp [CallsWithinGrants, labelChoice]
    simp only at hpublish
    split at hpublish
    · cases hpublish
      refine ⟨_, .chosen hquiet (created_of_object hobject) _ _ _ _ rfl, iff_of_true ?_ hlabel⟩
      rintro entry ⟨⟩
      exact hcovered
    · cases hpublish
      exact ⟨none, .quiet hquiet, iff_of_true (by simp) hlabel⟩
  | call index interfacesOf unreachable =>
    obtain ⟨⟨object, message⟩, hcall, hdispatch⟩ := Option.bind_eq_some_iff.mp hstep
    cases hdispatch
    refine ⟨_, dispatch_effect (quiet_calls _) rfl object interfacesOf unreachable message, ?_⟩
    simp only [CallsWithinGrants, labelChoice, hcall]
  | publicCall object message interfacesOf unreachable =>
    cases hstep
    exact ⟨_, dispatch_effect (Quiet.refl s) rfl object interfacesOf unreachable message, Iff.rfl⟩
  | coreEvent topic payload source unreachable =>
    cases hstep
    exact ⟨none, .core (Quiet.refl s) _ _ _ _ rfl, Iff.rfl⟩

theorem step_inv {label : Label} (hinv : BusInv s) (hstep : step py s label = some s') :
    BusInv s' := by
  obtain ⟨choice, heffect, -⟩ := step_effect hinv hstep
  exact heffect.inv hinv

/-- Every topic a component chose is covered by one of its publish grants. -/
def ChosenCovered (s : EventBus) : Prop :=
  ∀ entry ∈ s.chosen, PublishCovered (s.permissions entry.1) entry.2

theorem step_chosenCovered_iff {label : Label} (hinv : BusInv s)
    (hstep : step py s label = some s') :
    ChosenCovered s' ↔ ChosenCovered s ∧ CallsWithinGrants py s label := by
  obtain ⟨choice, heffect, hlabel⟩ := step_effect hinv hstep
  obtain ⟨hchosen, hpermissions, hsender⟩ := heffect.record
  unfold ChosenCovered
  rw [← hlabel, hchosen, List.forall_mem_append]
  apply and_congr
  · refine forall₂_congr fun entry hentry => ?_
    rw [hpermissions _ (hinv.senders entry hentry)]
  · simp only [Option.mem_toList]
    refine forall₂_congr fun entry hentry => ?_
    rw [hpermissions _ (hsender entry hentry)]

theorem run_inv {labels : List Label} (hrun : run (step py) initial labels = some s) : BusInv s :=
  run_invariant_all (fun _ _ _ => step_inv) labels initial_inv hrun

/-- The topics that components make Core broadcast are covered by their publish grants
exactly in the runs whose permitted `broadcast` calls are. -/
theorem run_chosenCovered_iff {labels : List Label}
    (hrun : run (step py) initial labels = some s) :
    ChosenCovered s ↔ Along (step py) (CallsWithinGrants py) initial labels := by
  have hstart : ChosenCovered initial := by simp [ChosenCovered, initial]
  rw [run_property_iff (fun _ _ _ => step_inv) (fun _ _ _ => step_chosenCovered_iff) labels
    initial_inv hrun]
  exact and_iff_right hstart

/-- One component subscribes to a family, and another publishes into it. -/
def publishing : List Label :=
  [.started (lit "a:s") 1 [lit "mipc.event:subscribe:x*"] true,
    .started (lit "a:p") 1 [lit "mipc.event:publish:x.y"] true,
    .packet 0 (record [("type", text "subscribe"), ("topic", text "x.*")]) fun _ => false,
    .packet 1 (record [("type", text "event"), ("topic", text "x.y")]) fun _ => false]

theorem run_chosenCovered_iff_publishing :
    ∃ s, run (step asciiInterpreter) initial publishing = some s ∧
      (ChosenCovered s ↔
        Along (step asciiInterpreter) (CallsWithinGrants asciiInterpreter) initial publishing) := by
  obtain ⟨s, hrun⟩ : ∃ s, run (step asciiInterpreter) initial publishing = some s := ⟨_, rfl⟩
  exact ⟨s, hrun, run_chosenCovered_iff hrun⟩

/-- A component whose only permission is to call `broadcast` publishes a topic. -/
def calling : List Label :=
  [.started (lit "a:c") 1 [lit "mipc.call:msys.core.broadcast"] true,
    .packet 0 (record [("type", text "call"), ("id", .int 1), ("target", text "msys.core"),
      ("method", text "broadcast"), ("payload", .dict (record [("topic", text "x.y")]))])
      fun _ => false,
    .call 0 (fun _ => []) fun _ => false]

theorem calling_not_covered :
    ¬ ∀ (py : Interpreter) (labels : List Label) (s : EventBus),
      run (step py) initial labels = some s → ChosenCovered s := by
  intro h
  have hreached : ∃ s, run (step asciiInterpreter) initial calling = some s ∧
      s.chosen = [(0, text "x.y")] ∧ s.permissions 0 = [lit "mipc.call:msys.core.broadcast"] :=
    ⟨_, rfl, rfl, rfl⟩
  obtain ⟨s, hrun, hchosen, hpermissions⟩ := hreached
  obtain ⟨g, topic, hg, -, -⟩ := h asciiInterpreter calling s hrun (0, text "x.y") (by simp [hchosen])
  rw [hpermissions, List.mem_singleton, ← eventPermission_append] at hg
  have hprefix : eventPermission .publish [] <+: lit "mipc.call:msys.core.broadcast" := ⟨g, hg⟩
  exact absurd (List.isPrefixOf_iff_prefix.mpr hprefix) (by decide)

/-- Every delivered event has a topic that a subscribe grant of its receiver matches; the
receiver was ready with an open channel and got the event once, and no instance holds too
many subscriptions. -/
theorem run_deliveries_entitled {labels : List Label}
    (hrun : run (step py) initial labels = some s) :
    (∀ d ∈ s.deliveries,
      (∃ g, eventPermission .subscribe g ∈ s.permissions d.object ∧
        subscriptionMatches g d.topic = true) ∧
      d.receiver.ready = true ∧ d.receiver.isOpen = true) ∧
      (s.deliveries.map fun d => (d.broadcast, d.object)).Nodup ∧
      ∀ channel ∈ s.objects, channel.subscriptions.length ≤ maxSubscriptions := by
  have hinv := run_inv hrun
  refine ⟨?_, hinv.delivered.once, fun channel h => (hinv.granted channel h).bounded⟩
  intro d hd
  have hentitled := hinv.delivered.entitled d hd
  rw [← hentitled.permissions]
  exact ⟨hentitled.granted, hentitled.ready, hentitled.isOpen⟩

theorem run_deliveries_entitled_publishing :
    ∃ s, run (step asciiInterpreter) initial publishing = some s ∧ s.deliveries.length = 1 ∧
      ((∀ d ∈ s.deliveries,
        (∃ g, eventPermission .subscribe g ∈ s.permissions d.object ∧
          subscriptionMatches g d.topic = true) ∧
        d.receiver.ready = true ∧ d.receiver.isOpen = true) ∧
        (s.deliveries.map fun d => (d.broadcast, d.object)).Nodup ∧
        ∀ channel ∈ s.objects, channel.subscriptions.length ≤ maxSubscriptions) := by
  obtain ⟨s, hrun, hone⟩ : ∃ s, run (step asciiInterpreter) initial publishing = some s ∧
      s.deliveries.length = 1 := ⟨_, rfl, rfl⟩
  exact ⟨s, hrun, hone, run_deliveries_entitled hrun⟩

end MsysCore.Core.EventBus
