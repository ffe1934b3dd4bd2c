import MsysCore.Native.EventPlane

/-!
# Which events reach whom

What every run of the event plane keeps: a broadcast is sent once to each session that has a
subscription which matches, unless the session is closed before its turn, and whatever is sent was
published with a grant of the publisher and is received with a grant of the subscriber.
-/

namespace MsysCore.Native.EventPlane

open Handshake History

variable {router : Router} {broker : Broker} {log : List Fact} {s s' : State}

/-! ## Grants and patterns -/

/-- A family ends in a dot and a star. -/
theorem exists_of_family {pattern : Bytes}
    (h : (2 ≤ pattern.length && (ascii ".*").isSuffixOf pattern) = true) :
    ∃ start, pattern.dropLast = start ++ [46] ∧ pattern = start ++ [46] ++ [42] := by
  obtain ⟨-, hsuffix⟩ := Bool.and_eq_true_iff.mp h
  obtain ⟨start, rfl⟩ := List.isSuffixOf_iff_suffix.mp hsuffix
  have hpattern : start ++ ascii ".*" = start ++ [46] ++ [42] := by
    rw [List.append_assoc]
    rfl
  exact ⟨start, by rw [hpattern, List.dropLast_concat], hpattern⟩

/-- A rule that covers a pattern covers every topic that the pattern matches. -/
theorem topicMatch_of_matches {rule pattern topic : Bytes}
    (hrule : NativeCatalog.topicMatch rule pattern = true)
    (hmatches : subscriptionMatches pattern topic = true) :
    NativeCatalog.topicMatch rule topic = true := by
  unfold NativeCatalog.topicMatch at hrule ⊢
  by_cases hall : rule = ascii "*"
  · rw [if_pos hall]
  rw [if_neg hall] at hrule ⊢
  by_cases hfamily : (2 ≤ rule.length && (ascii ".*").isSuffixOf rule) = true
  · rw [if_pos hfamily] at hrule ⊢
    obtain ⟨start, hstart, -⟩ := exists_of_family hfamily
    rw [hstart, List.isPrefixOf_iff_prefix] at hrule ⊢
    unfold subscriptionMatches at hmatches
    by_cases hstar : pattern = ascii "*"
    · -- a star alone begins with no dot
      rw [hstar, show ascii "*" = [] ++ [42] from rfl, List.prefix_concat_iff] at hrule
      rcases hrule with heq | hnil
      · simp [List.append_eq_singleton_iff] at heq
      · simp at hnil
    rw [if_neg hstar] at hmatches
    split_ifs at hmatches with hpattern
    · obtain ⟨root, hroot, hsame⟩ := exists_of_family hpattern
      rw [hsame, List.prefix_concat_iff] at hrule
      rw [hroot, List.isPrefixOf_iff_prefix] at hmatches
      rcases hrule with heq | hmore
      · exact absurd (List.append_inj_right' heq rfl) (by decide)
      · exact hmore.trans hmatches
    · exact eq_of_beq hmatches ▸ hrule
  · rw [if_neg hfamily] at hrule ⊢
    cases eq_of_beq hrule
    unfold subscriptionMatches at hmatches
    rwa [if_neg hall, if_neg hfamily] at hmatches

theorem allowsTopic_of_matches {component : ℕ} {start pattern topic : Bytes}
    (hallows : router.catalog.allowsTopic component start pattern = true)
    (hmatches : subscriptionMatches pattern topic = true) :
    router.catalog.allowsTopic component start topic = true := by
  unfold NativeCatalog.allowsTopic at hallows ⊢
  rw [List.any_eq_true] at hallows ⊢
  obtain ⟨permission, hpermission, hcovers⟩ := hallows
  obtain ⟨hstart, htopic⟩ := Bool.and_eq_true_iff.mp hcovers
  exact ⟨permission, hpermission,
    Bool.and_eq_true_iff.mpr ⟨hstart, topicMatch_of_matches htopic hmatches⟩⟩

/-! ## What is allowed -/

/-- A session has a subscription that matches. -/
def Subscribed (history : List Happened) (id : ℕ) (topic : Bytes) : Prop :=
  .dropped id ∉ history ∧ ∃ component pattern,
    .subscribed id component pattern ∈ history ∧ subscriptionMatches pattern topic = true

def Published (history : List Happened) (number : ℕ) (targets : List ℕ) : Prop :=
  ∃ serial topic packet, .published number serial topic packet targets ∈ history

/-- The turn of a session in a broadcast is over. -/
def Served (history : List Happened) (number id : ℕ) : Prop :=
  .delivered number id ∈ history ∨ .missed number id ∈ history

/-- A broadcast has one publication, for the sessions with a subscription that matches; each of
them gets it once, or was closed. -/
def Allowed (history : List Happened) : Happened → Prop
  | .published number _ topic _ targets =>
    (∀ others, ¬ Published history number others) ∧ targets.Nodup ∧
      ∀ id, id ∈ targets ↔ Subscribed history id topic
  | .delivered number id =>
    (∃ targets, Published history number targets ∧ id ∈ targets) ∧
      ¬ Served history number id ∧ .dropped id ∉ history
  | .missed number id =>
    (∃ targets, Published history number targets ∧ id ∈ targets) ∧
      ¬ Served history number id ∧ .dropped id ∈ history
  | .completed number =>
    ∃ targets, Published history number targets ∧ ∀ id ∈ targets, Served history number id
  | _ => True

/-- The session is of a component that may subscribe to the topic. -/
def MayReceive (router : Router) (log : List Fact) (id : ℕ) (topic : Bytes) : Prop :=
  ∃ peer component, .created id peer ∈ log ∧ peer.kind = .component ∧
    router.catalog.componentIndex peer.source = some component ∧
    router.catalog.allowsSubscribe component topic = true

/-- The packet came from a component that is ready and may publish the topic, or from a call of
the `broadcast` method of Core that `authorize_call` let pass. -/
def MayPublish (router : Router) (log : List Fact) (serial : ℕ) (topic packet : Bytes) : Prop :=
  ∃ id peer message, .routed serial id peer message ∈ log ∧
    ((message.type = .event ∧ message.topic = topic ∧ peer.kind = .component ∧ .ready id ∈ log ∧
        ∃ component, router.catalog.componentIndex peer.source = some component ∧
          router.catalog.allowsPublish component topic = true ∧
          packet = eventPacket topic (router.componentId component) message.payloadJson) ∨
      (message.type = .call ∧ IsBroadcast message ∧ message.payloadTopic = some topic ∧
        ∃ processes requestId name,
          router.authorizeCall processes ⟨peer, requestId, message.target, message.method⟩ = true ∧
          packet = eventPacket topic name
            (message.nestedPayloadJson.getD (ascii "\x7b\x7d"))))

/-! ## The invariant -/

/-- How far a broadcast in progress is. -/
structure Progress (history : List Happened) (loop : Broadcast) : Prop where
  published : ∃ targets, Published history loop.number targets ∧ loop.remaining ⊆ targets ∧
    ∀ id ∈ targets, id ∈ loop.remaining ∨ Served history loop.number id
  nodup : loop.remaining.Nodup
  waiting : ∀ id ∈ loop.remaining, ¬ Served history loop.number id

/-- The tables and the history when the hooks of the facts of `log` have run. -/
structure Inv (router : Router) (log : List Fact) (s : State) : Prop where
  justified : Justified Allowed s.history
  keys : (s.subscriptions.map Prod.fst).Nodup
  topics : ∀ id topics, OrderedDict.get s.subscriptions id = some topics →
    topics.length ≤ maxSubscriptionsPerSession ∧ .closed id ∉ log ∧
      ∀ topic ∈ topics, ∃ component, .subscribed id component topic ∈ s.history
  stored : ∀ id component topic, .subscribed id component topic ∈ s.history →
    .dropped id ∉ s.history → ∃ topics, OrderedDict.get s.subscriptions id = some topics ∧
      topic ∈ topics
  dropped : ∀ id, .dropped id ∈ s.history ↔ .closed id ∈ log
  receivers : ∀ id component topic, .subscribed id component topic ∈ s.history →
    MayReceive router log id topic
  publishers : ∀ number serial topic packet targets,
    .published number serial topic packet targets ∈ s.history →
      MayPublish router log serial topic packet
  numbered : ∀ number targets, Published s.history number targets → number < s.started
  progress : ∀ loop ∈ s.broadcasts, Progress s.history loop
  distinct : (s.broadcasts.map Broadcast.number).Nodup
  answered : ∀ serial request, .authorized serial request true ∈ log →
    ∃ processes, router.authorizeCall processes request = true

theorem inv_initial (router : Router) : Inv router [] {} where
  justified := justified_nil
  keys := List.nodup_nil
  topics := by simp [OrderedDict.get]
  stored := by simp
  dropped := by simp
  receivers := by simp
  publishers := by simp
  numbered := by simp [Published]
  progress := by simp
  distinct := List.nodup_nil
  answered := by simp

theorem MayReceive.mono {id : ℕ} {topic : Bytes} (h : MayReceive router log id topic)
    (facts : List Fact) : MayReceive router (log ++ facts) id topic := by
  obtain ⟨peer, component, hcreated, hgrant⟩ := h
  exact ⟨peer, component, List.mem_append_left _ hcreated, hgrant⟩

theorem MayPublish.mono {serial : ℕ} {topic packet : Bytes}
    (h : MayPublish router log serial topic packet) (facts : List Fact) :
    MayPublish router (log ++ facts) serial topic packet := by
  obtain ⟨id, peer, message, hrouted, horigin⟩ := h
  refine ⟨id, peer, message, List.mem_append_left _ hrouted, horigin.imp_left ?_⟩
  rintro ⟨htype, htopic, hkind, hready, hgrant⟩
  exact ⟨htype, htopic, hkind, List.mem_append_left _ hready, hgrant⟩

/-- A fact that the router does not look at. -/
theorem Inv.fact (h : Inv router log s) {fact : Fact} (hclosed : ∀ id, fact ≠ .closed id)
    (hasked : ∀ serial request, fact = .authorized serial request true →
      ∃ processes, router.authorizeCall processes request = true) :
    Inv router (log ++ [fact]) s :=
  { h with
    topics := by
      intro id topics hget
      obtain ⟨hlength, hopen, hhistory⟩ := h.topics id topics hget
      refine ⟨hlength, fun hmem => ?_, hhistory⟩
      rcases List.mem_append.mp hmem with hold | hnew
      · exact hopen hold
      · exact hclosed id (List.mem_singleton.mp hnew).symm
    dropped := by
      intro id
      rw [h.dropped id, List.mem_append, List.mem_singleton]
      exact ⟨.inl, fun hmem => hmem.resolve_right fun heq => hclosed id heq.symm⟩
    receivers := fun id component topic hmem => (h.receivers id component topic hmem).mono _
    publishers := fun number serial topic packet targets hmem =>
      (h.publishers number serial topic packet targets hmem).mono _
    answered := by
      intro serial request hmem
      rcases List.mem_append.mp hmem with hold | hnew
      · exact h.answered serial request hold
      · exact hasked serial request (List.mem_singleton.mp hnew).symm }

/-! ## More history -/

/-- What happens between the publications and the sends. -/
def Happened.Quiet : Happened → Prop
  | .activity _ | .completed _ | .abandoned _ => True
  | _ => False

theorem mem_snoc {happened other : Happened} {history : List Happened} :
    other ∈ history ++ [happened] ↔ other ∈ history ∨ other = happened := by
  rw [List.mem_append, List.mem_singleton]

theorem published_snoc {happened : Happened} {history : List Happened} {number : ℕ}
    {targets : List ℕ} (h : ∀ serial topic packet,
      happened ≠ .published number serial topic packet targets) :
    Published (history ++ [happened]) number targets ↔ Published history number targets := by
  unfold Published
  simp only [mem_snoc]
  refine exists_congr fun serial => exists_congr fun topic => exists_congr fun packet => ?_
  exact or_iff_left fun heq => h serial topic packet heq.symm

theorem served_snoc {happened : Happened} {history : List Happened} {number id : ℕ}
    (h : happened ≠ .delivered number id ∧ happened ≠ .missed number id) :
    Served (history ++ [happened]) number id ↔ Served history number id := by
  unfold Served
  simp only [mem_snoc]
  exact or_congr (or_iff_left fun heq => h.1 heq.symm) (or_iff_left fun heq => h.2 heq.symm)

theorem Progress.snoc {loop : Broadcast} {history : List Happened} (h : Progress history loop)
    {happened : Happened}
    (hserved : ∀ id, happened ≠ .delivered loop.number id ∧ happened ≠ .missed loop.number id) :
    Progress (history ++ [happened]) loop where
  published := by
    obtain ⟨targets, ⟨serial, topic, packet, hmem⟩, hsub, hall⟩ := h.published
    refine ⟨targets, ⟨serial, topic, packet, List.mem_append_left _ hmem⟩, hsub, fun id hid => ?_⟩
    rw [served_snoc (hserved id)]
    exact hall id hid
  nodup := h.nodup
  waiting := by
    intro id hid
    rw [served_snoc (hserved id)]
    exact h.waiting id hid

theorem Inv.record (h : Inv router log s) {happened : Happened} (hquiet : happened.Quiet)
    (hallowed : Allowed s.history happened) : Inv router log (s.record happened) where
  justified := h.justified.append hallowed
  keys := h.keys
  topics := by
    intro id topics hget
    obtain ⟨hlength, hopen, hhistory⟩ := h.topics id topics hget
    exact ⟨hlength, hopen, fun topic htopic =>
      (hhistory topic htopic).imp fun _ hmem => List.mem_append_left _ hmem⟩
  stored := by
    intro id component topic hmem hopen
    have hopen' : .dropped id ∉ s.history := fun hmem => hopen (List.mem_append_left _ hmem)
    rcases mem_snoc.mp hmem with hold | rfl
    · exact h.stored id component topic hold hopen'
    · cases hquiet
  dropped := by
    intro id
    rw [← h.dropped id]
    refine mem_snoc.trans (or_iff_left ?_)
    rintro rfl
    cases hquiet
  receivers := by
    intro id component topic hmem
    rcases mem_snoc.mp hmem with hold | rfl
    · exact h.receivers id component topic hold
    · cases hquiet
  publishers := by
    intro number serial topic packet targets hmem
    rcases mem_snoc.mp hmem with hold | rfl
    · exact h.publishers number serial topic packet targets hold
    · cases hquiet
  numbered := by
    intro number targets hpublished
    refine h.numbered number targets ((published_snoc ?_).mp hpublished)
    rintro serial topic packet rfl
    cases hquiet
  progress := by
    intro loop hloop
    refine (h.progress loop hloop).snoc fun id => ⟨?_, ?_⟩ <;>
    · rintro rfl
      cases hquiet
  distinct := h.distinct
  answered := h.answered

/-! ## Messages -/

/-- A subscription is added. -/
theorem Inv.store (h : Inv router log s) {id : ℕ} {topic : Bytes} (hopen : .closed id ∉ log)
    (hreceive : MayReceive router log id topic)
    (hlimit : maxSubscriptionsPerSession ≤ ((OrderedDict.get s.subscriptions id).getD []).length →
      topic ∈ (OrderedDict.get s.subscriptions id).getD []) (component : ℕ)
    (subscriberComponents : List (ℕ × ℕ)) :
    Inv router log
      { s with
        subscriptions := OrderedDict.set s.subscriptions id
          (((OrderedDict.get s.subscriptions id).getD []).insert topic)
        subscriberComponents := subscriberComponents
        history := s.history ++ [.subscribed id component topic] } where
  justified := h.justified.append trivial
  keys := OrderedDict.nodup_set h.keys _ _
  topics := by
    intro other topics hget
    rw [OrderedDict.get_set] at hget
    split_ifs at hget with heq
    · cases hget
      subst heq
      have hold : ((OrderedDict.get s.subscriptions other).getD []).length
            ≤ maxSubscriptionsPerSession ∧
          ∀ topic ∈ (OrderedDict.get s.subscriptions other).getD [],
            ∃ component, .subscribed other component topic ∈ s.history := by
        cases hstored : OrderedDict.get s.subscriptions other with
        | none => simp
        | some topics =>
          obtain ⟨hlength, -, hhistory⟩ := h.topics other topics hstored
          exact ⟨hlength, hhistory⟩
      refine ⟨?_, hopen, fun pattern hpattern => ?_⟩
      · by_cases hmem : topic ∈ (OrderedDict.get s.subscriptions other).getD []
        · rw [List.insert_of_mem hmem]
          exact hold.1
        · rw [List.insert_of_not_mem hmem, List.length_cons]
          exact not_le.mp (mt hlimit hmem)
      · rcases List.mem_insert_iff.mp hpattern with rfl | hstored
        · exact ⟨component, mem_snoc.mpr (.inr rfl)⟩
        · exact (hold.2 pattern hstored).imp fun _ hmem => mem_snoc.mpr (.inl hmem)
    · obtain ⟨hlength, hopen, hhistory⟩ := h.topics other topics hget
      exact ⟨hlength, hopen, fun topic htopic =>
        (hhistory topic htopic).imp fun _ hmem => mem_snoc.mpr (.inl hmem)⟩
  stored := by
    intro other source pattern hmem hdropped
    have hdropped' : .dropped other ∉ s.history := fun hmem => hdropped (mem_snoc.mpr (.inl hmem))
    rw [OrderedDict.get_set]
    rcases mem_snoc.mp hmem with hold | hnew
    · obtain ⟨topics, hget, hpattern⟩ := h.stored other source pattern hold hdropped'
      split_ifs with heq
      · subst heq
        rw [hget]
        exact ⟨_, rfl, List.mem_insert_of_mem hpattern⟩
      · exact ⟨topics, hget, hpattern⟩
    · cases hnew
      exact ⟨_, if_pos rfl, List.mem_insert_self⟩
  dropped := by
    intro other
    rw [← h.dropped other]
    exact mem_snoc.trans (or_iff_left (by simp))
  receivers := by
    intro other source pattern hmem
    rcases mem_snoc.mp hmem with hold | hnew
    · exact h.receivers other source pattern hold
    · cases hnew
      exact hreceive
  publishers := by
    intro number serial topic packet targets hmem
    have hold := (mem_snoc.mp hmem).resolve_right (by simp)
    exact h.publishers number serial topic packet targets hold
  numbered := by
    intro number targets hpublished
    exact h.numbered number targets ((published_snoc (by simp)).mp hpublished)
  progress := fun loop hloop => (h.progress loop hloop).snoc (by simp)
  distinct := h.distinct
  answered := h.answered

/-- A packet that is routed, after the facts of `log`. -/
structure Routed (log : List Fact) (serial id : ℕ) (peer : PeerIdentity)
    (message : DecodedMessage) : Prop where
  routed : .routed serial id peer message ∈ log
  created : .created id peer ∈ log
  isOpen : .closed id ∉ log
  component : message.type ≠ .call → peer.kind = .component
  ready : message.type = .event → .ready id ∈ log
  authorized : message.type = .call → ∃ requestId,
    .authorized serial ⟨peer, requestId, message.target, message.method⟩ true ∈ log

theorem routed_of_allowed {serial id : ℕ} {peer : PeerIdentity} {message : DecodedMessage}
    (h : Handshake.Allowed log (.routed serial id peer message)) :
    Routed (log ++ [.routed serial id peer message]) serial id peer message := by
  obtain ⟨hcreated, -, hover, hready, hpublic, hcall⟩ := h
  have hkind : message.type ≠ .call → peer.kind = .component := by
    intro htype
    cases hkind : peer.kind with
    | component => rfl
    | publicControl => exact absurd (hpublic hkind) htype
  exact
    { routed := List.mem_append_right _ (List.mem_singleton_self _)
      created := List.mem_append_left _ hcreated
      isOpen := by
        intro hmem
        rcases List.mem_append.mp hmem with hold | hnew
        · exact hover (.inl hold)
        · simp at hnew
      component := hkind
      ready := by
        intro htype
        rcases hready (hkind (by simp [htype])) with hready | ⟨hsubscribe, -⟩
        · exact List.mem_append_left _ hready
        · rw [hsubscribe] at htype
          cases htype
      authorized := by
        intro htype
        obtain ⟨-, -, requestId, -, hasked⟩ := hcall htype
        exact ⟨requestId, List.mem_append_left _ hasked⟩ }

theorem Inv.subscribe (h : Inv router log s) {serial id : ℕ} {peer : PeerIdentity}
    {message : DecodedMessage} (hrouted : Routed log serial id peer message)
    (htype : message.type = .subscribe) (processes : Processes) :
    Inv router log (subscribe router processes s id peer message.topic) := by
  have hkind : peer.kind = .component := hrouted.component (by simp [htype])
  unfold EventPlane.subscribe
  cases hsource : router.sourceComponent processes peer with
  | none => exact h
  | some source =>
    dsimp only
    split_ifs with hallows hlimit
    · exact h
    · -- the entry is there already
      cases hget : OrderedDict.get s.subscriptions id with
      | none => simp [hget, maxSubscriptionsPerSession] at hlimit
      | some topics =>
        rw [Option.getD_some, OrderedDict.set_of_get hget]
        exact h
    · have hreceive : MayReceive router log id message.topic := by
        refine ⟨peer, source, hrouted.created, hkind, ?_, by simpa using hallows⟩
        rwa [Router.sourceComponent, hkind] at hsource
      have hstored := h.store hrouted.isOpen hreceive (by simpa using hlimit) source
        (OrderedDict.set s.subscriberComponents id source)
      have hactive := hstored.record (show Happened.Quiet (.activity source) from trivial) trivial
      rw [State.record, List.append_assoc] at hactive
      exact hactive

theorem Inv.mem_subscribers (h : Inv router log s) {id : ℕ} {topic : Bytes} :
    id ∈ subscribers s topic ↔ Subscribed s.history id topic := by
  constructor
  · intro hmem
    obtain ⟨⟨other, topics⟩, hentry, rfl⟩ := List.mem_map.mp hmem
    obtain ⟨hentry, hany⟩ := List.mem_filter.mp hentry
    obtain ⟨pattern, hpattern, hmatches⟩ := List.any_eq_true.mp hany
    obtain ⟨-, hopen, hhistory⟩ :=
      h.topics other topics ((OrderedDict.get_eq_some_iff h.keys).mpr hentry)
    obtain ⟨component, hsubscribed⟩ := hhistory pattern hpattern
    exact ⟨mt (h.dropped other).mp hopen, component, pattern, hsubscribed, hmatches⟩
  · rintro ⟨hdropped, component, pattern, hsubscribed, hmatches⟩
    obtain ⟨topics, hget, hpattern⟩ := h.stored id component pattern hsubscribed hdropped
    exact List.mem_map.mpr ⟨(id, topics), List.mem_filter.mpr ⟨OrderedDict.mem_of_get hget,
      List.any_eq_true.mpr ⟨pattern, hpattern, hmatches⟩⟩, rfl⟩

theorem Inv.lt_of_published (h : Inv router log s) {before : List Happened}
    (hbefore : before <+: s.history) {number id : ℕ}
    (hpublished : ∃ targets, Published before number targets ∧ id ∈ targets) :
    number < s.started := by
  obtain ⟨targets, ⟨serial, topic, packet, hmem⟩, -⟩ := hpublished
  exact h.numbered number targets ⟨serial, topic, packet, hbefore.subset hmem⟩

theorem Inv.lt_of_served (h : Inv router log s) {number id : ℕ}
    (hserved : Served s.history number id) : number < s.started := by
  rcases hserved with hmem | hmem
  · obtain ⟨before, hbefore, hpublished, -⟩ := h.justified.exists_before hmem
    exact h.lt_of_published hbefore hpublished
  · obtain ⟨before, hbefore, hpublished, -⟩ := h.justified.exists_before hmem
    exact h.lt_of_published hbefore hpublished

theorem Inv.broadcast (h : Inv router log s) {serial : ℕ} {topic payload name : Bytes}
    (hpublish : MayPublish router log serial topic (eventPacket topic name payload))
    (order : Iteration) (source : Option ℕ) :
    Inv router log (broadcast order s serial topic payload name source) := by
  have hmem : ∀ {id}, id ∈ order.arrange (subscribers s topic) ↔ Subscribed s.history id topic :=
    (order.perm _).mem_iff.trans h.mem_subscribers
  have hnodup : (order.arrange (subscribers s topic)).Nodup :=
    (order.perm _).nodup_iff.mpr (h.keys.sublist (List.filter_sublist.map _))
  have hfresh : ∀ targets, ¬ Published s.history s.started targets := fun targets hpublished =>
    (h.numbered s.started targets hpublished).false
  exact
    { justified := h.justified.append ⟨hfresh, hnodup, fun _ => hmem⟩
      keys := h.keys
      topics := by
        intro id topics hget
        obtain ⟨hlength, hopen, hhistory⟩ := h.topics id topics hget
        exact ⟨hlength, hopen, fun topic htopic =>
          (hhistory topic htopic).imp fun _ hmem => mem_snoc.mpr (.inl hmem)⟩
      stored := by
        intro id component pattern hsubscribed hdropped
        exact h.stored id component pattern ((mem_snoc.mp hsubscribed).resolve_right (by simp))
          fun hmem => hdropped (mem_snoc.mpr (.inl hmem))
      dropped := by
        intro id
        rw [← h.dropped id]
        exact mem_snoc.trans (or_iff_left (by simp))
      receivers := by
        intro id component pattern hsubscribed
        exact h.receivers id component pattern
          ((mem_snoc.mp hsubscribed).resolve_right (by simp))
      publishers := by
        intro number other pattern packet targets hpublished
        rcases mem_snoc.mp hpublished with hold | hnew
        · exact h.publishers number other pattern packet targets hold
        · cases hnew
          exact hpublish
      numbered := by
        rintro number targets ⟨other, pattern, packet, hpublished⟩
        rcases mem_snoc.mp hpublished with hold | hnew
        · exact (h.numbered number targets ⟨other, pattern, packet, hold⟩).trans
            (Nat.lt_succ_self _)
        · cases hnew
          exact Nat.lt_succ_self _
      progress := by
        intro loop hloop
        rcases List.mem_cons.mp hloop with rfl | hold
        · have hwaiting : ∀ id, ¬ Served (s.history ++ [.published s.started serial topic
              (eventPacket topic name payload) (order.arrange (subscribers s topic))])
              s.started id := by
            intro id hserved
            exact (h.lt_of_served ((served_snoc (by simp)).mp hserved)).false
          exact
            { published := ⟨_, ⟨serial, topic, _, mem_snoc.mpr (.inr rfl)⟩,
                List.Subset.refl _, fun id hid => .inl hid⟩
              nodup := hnodup
              waiting := fun id _ => hwaiting id }
        · exact (h.progress loop hold).snoc (by simp)
      distinct := by
        refine List.nodup_cons.mpr ⟨fun hnumber => ?_, h.distinct⟩
        obtain ⟨loop, hloop, hsame⟩ := List.mem_map.mp hnumber
        obtain ⟨targets, hpublished, -⟩ := (h.progress loop hloop).published
        have hnumber : loop.number = s.started := hsame
        exact hfresh targets (hnumber ▸ hpublished)
      answered := h.answered }

theorem Inv.publish (h : Inv router log s) {serial id : ℕ} {peer : PeerIdentity}
    {message : DecodedMessage} (hrouted : Routed log serial id peer message)
    (htype : message.type = .event) (processes : Processes) (order : Iteration) :
    Inv router log (publish router processes order s serial peer message) := by
  have hkind : peer.kind = .component := hrouted.component (by simp [htype])
  unfold EventPlane.publish
  cases hsource : router.sourceComponent processes peer with
  | none => exact h
  | some source =>
    dsimp only
    split_ifs with hallows
    · exact h
    · rw [Router.sourceComponent, hkind] at hsource
      exact h.broadcast ⟨id, peer, message, hrouted.routed, .inl ⟨htype, rfl, hkind,
        hrouted.ready htype, source, hsource, by simpa using hallows, rfl⟩⟩ order (some source)

theorem Inv.coreBroadcast (h : Inv router log s) {serial id : ℕ} {peer : PeerIdentity}
    {message : DecodedMessage} (hrouted : Routed log serial id peer message)
    (htype : message.type = .call) (hbroadcast : IsBroadcast message) (processes : Processes)
    (order : Iteration) :
    Inv router log (coreBroadcast router processes order s serial peer message) := by
  obtain ⟨requestId, hasked⟩ := hrouted.authorized htype
  obtain ⟨asked, hanswer⟩ := h.answered _ _ hasked
  unfold EventPlane.coreBroadcast
  cases htopic : message.payloadTopic with
  | none => exact h
  | some topic =>
    exact h.broadcast ⟨id, peer, message, hrouted.routed, .inr ⟨htype, hbroadcast, htopic, asked,
      requestId, _, hanswer, rfl⟩⟩ order none

theorem Inv.onMessage (h : Inv router log s) {serial id : ℕ} {peer : PeerIdentity}
    {message : DecodedMessage} (hrouted : Routed log serial id peer message)
    (processes : Processes) (order : Iteration) :
    Inv router log (onMessage router processes order s serial id peer message) := by
  unfold EventPlane.onMessage
  split
  · rename_i htype
    exact h.subscribe hrouted htype processes
  · rename_i htype
    exact h.publish hrouted htype processes order
  · rename_i htype
    split_ifs with hbroadcast
    · exact h.coreBroadcast hrouted htype hbroadcast processes order
    · exact h
  · exact h

theorem Inv.sessionClosed (h : Inv router log s) (id : ℕ) :
    Inv router (log ++ [.closed id]) (sessionClosed s id) where
  justified := h.justified.append trivial
  keys := OrderedDict.nodup_pop h.keys id
  topics := by
    intro other topics hget
    simp only [EventPlane.sessionClosed, OrderedDict.get_pop] at hget
    split_ifs at hget with heq
    obtain ⟨hlength, hopen, hhistory⟩ := h.topics other topics hget
    refine ⟨hlength, fun hmem => ?_, fun topic htopic =>
      (hhistory topic htopic).imp fun _ hmem => mem_snoc.mpr (.inl hmem)⟩
    rcases List.mem_append.mp hmem with hold | hnew
    · exact hopen hold
    · cases List.mem_singleton.mp hnew
      exact heq rfl
  stored := by
    intro other component topic hsubscribed hdropped
    have hne : other ≠ id := by
      rintro rfl
      exact hdropped (mem_snoc.mpr (.inr rfl))
    have hold := (mem_snoc.mp hsubscribed).resolve_right (by simp)
    obtain ⟨topics, hget, htopic⟩ := h.stored other component topic hold
      fun hmem => hdropped (mem_snoc.mpr (.inl hmem))
    refine ⟨topics, ?_, htopic⟩
    rw [EventPlane.sessionClosed, OrderedDict.get_pop_ne hne]
    exact hget
  dropped := by
    intro other
    rw [List.mem_append, List.mem_singleton, ← h.dropped other]
    refine mem_snoc.trans (or_congr_right ?_)
    rw [Happened.dropped.injEq, Fact.closed.injEq]
  receivers := by
    intro other component topic hsubscribed
    have hold := (mem_snoc.mp hsubscribed).resolve_right (by simp)
    exact (h.receivers other component topic hold).mono _
  publishers := by
    intro number serial topic packet targets hpublished
    have hold := (mem_snoc.mp hpublished).resolve_right (by simp)
    exact (h.publishers number serial topic packet targets hold).mono _
  numbered := by
    intro number targets hpublished
    exact h.numbered number targets ((published_snoc (by simp)).mp hpublished)
  progress := fun loop hloop => (h.progress loop hloop).snoc (by simp)
  distinct := h.distinct
  answered := by
    intro serial request hmem
    exact h.answered serial request ((List.mem_append.mp hmem).resolve_right (by simp))

/-! ## Steps of the broker -/

theorem Inv.onFact (h : Inv router log s) {fact : Fact} (hallowed : Handshake.Allowed log fact)
    (hasked : ∀ serial request, fact = .authorized serial request true →
      ∃ processes, router.authorizeCall processes request = true)
    (processes : Processes) (order : Iteration) :
    Inv router (log ++ [fact]) (EventPlane.onFact router processes order s fact) := by
  unfold EventPlane.onFact
  split
  · exact h.sessionClosed _
  · exact (h.fact (by simp) hasked).onMessage (routed_of_allowed hallowed) processes order
  · rename_i hclosed _
    exact h.fact hclosed hasked

theorem Inv.onFacts (processes : Processes) (order : Iteration) (facts : List Fact) :
    ∀ {log : List Fact} {s : State}, Inv router log s →
      Justified Handshake.Allowed (log ++ facts) →
      (∀ serial request, .authorized serial request true ∈ facts →
        ∃ processes, router.authorizeCall processes request = true) →
      Inv router (log ++ facts) (facts.foldl (EventPlane.onFact router processes order) s) := by
  induction facts with
  | nil =>
    intro log s h _ _
    rwa [List.append_nil]
  | cons fact rest ih =>
    intro log s h hjustified hasked
    have hfact := h.onFact (hjustified log fact rest rfl) (fun serial request heq =>
      hasked serial request (heq ▸ List.mem_cons_self)) processes order
    have hsplit : log ++ fact :: rest = (log ++ [fact]) ++ rest := by
      rw [List.append_assoc, List.singleton_append]
    rw [hsplit] at hjustified ⊢
    exact ih hfact hjustified fun serial request hmem =>
      hasked serial request (List.mem_cons_of_mem _ hmem)

/-- The state of the broker is no part of the invariant. -/
theorem Inv.setBroker (h : Inv router log s) (broker : Handshake.State) :
    Inv router log { s with broker := broker } :=
  { h with }

/-- The calls that some process table lets pass. -/
def Answered (router : Router) (_ : ℕ) (request : AccessRequest) : Prop :=
  ∃ processes, router.authorizeCall processes request = true

theorem Inv.advance (h : Inv router s.broker.log s) {next : Handshake.State}
    (hsettled : Settled next) (hgrows : Grows (Answered router) s.broker next)
    (processes : Processes) (order : Iteration) :
    Inv router next.log (advance router processes order s next) := by
  obtain ⟨facts, hlog, -, -, hasked⟩ := hgrows
  have hjustified := hsettled.justified
  unfold EventPlane.advance
  rw [hlog, List.drop_left]
  rw [hlog] at hjustified
  exact (h.setBroker next).onFacts processes order facts hjustified hasked

/-! ## Steps of a broadcast -/

theorem Inv.leave (h : Inv router log s) {happened : Happened} (hquiet : happened.Quiet)
    (hallowed : Allowed s.history happened) : Inv router log (leave s happened) := by
  have htail : Inv router log { s with broadcasts := s.broadcasts.tail } :=
    { h with
      progress := fun loop hloop => h.progress loop (List.mem_of_mem_tail hloop)
      distinct := h.distinct.sublist ((List.tail_sublist _).map _) }
  exact htail.record hquiet hallowed

/-- The innermost broadcast serves the next session. -/
theorem Inv.serve (h : Inv router log s) {loop : Broadcast} {rest : List Broadcast}
    (hbroadcasts : s.broadcasts = loop :: rest) {id : ℕ} {remaining : List ℕ}
    (hremaining : loop.remaining = id :: remaining) {happened : Happened}
    (hhappened : happened = .delivered loop.number id ∨ happened = .missed loop.number id)
    (hallowed : Allowed s.history happened) :
    Inv router log ({ s with
      broadcasts := { loop with remaining := remaining } :: rest }.record happened) where
  justified := h.justified.append hallowed
  keys := h.keys
  topics := by
    intro other topics hget
    obtain ⟨hlength, hopen, hhistory⟩ := h.topics other topics hget
    exact ⟨hlength, hopen, fun topic htopic =>
      (hhistory topic htopic).imp fun _ hmem => mem_snoc.mpr (.inl hmem)⟩
  stored := by
    intro other component topic hsubscribed hdropped
    have hold : .subscribed other component topic ∈ s.history :=
      (mem_snoc.mp hsubscribed).resolve_right (by rcases hhappened with rfl | rfl <;> simp)
    exact h.stored other component topic hold fun hmem => hdropped (mem_snoc.mpr (.inl hmem))
  dropped := by
    intro other
    rw [← h.dropped other]
    exact mem_snoc.trans (or_iff_left (by rcases hhappened with rfl | rfl <;> simp))
  receivers := by
    intro other component topic hsubscribed
    have hold : .subscribed other component topic ∈ s.history :=
      (mem_snoc.mp hsubscribed).resolve_right (by rcases hhappened with rfl | rfl <;> simp)
    exact h.receivers other component topic hold
  publishers := by
    intro number serial topic packet targets hpublished
    have hold : .published number serial topic packet targets ∈ s.history :=
      (mem_snoc.mp hpublished).resolve_right (by rcases hhappened with rfl | rfl <;> simp)
    exact h.publishers number serial topic packet targets hold
  numbered := by
    intro number targets hpublished
    refine h.numbered number targets ((published_snoc ?_).mp hpublished)
    rcases hhappened with rfl | rfl <;> simp
  progress := by
    have hserves : Served (s.history ++ [happened]) loop.number id :=
      hhappened.imp (fun heq => mem_snoc.mpr (.inr heq.symm)) fun heq =>
        mem_snoc.mpr (.inr heq.symm)
    have hother : ∀ number other, number ≠ loop.number ∨ other ≠ id →
        happened ≠ .delivered number other ∧ happened ≠ .missed number other := by
      intro number other hne
      constructor <;>
      · rintro rfl
        simp only [Happened.delivered.injEq, Happened.missed.injEq, reduceCtorEq, or_false,
          false_or] at hhappened
        exact hne.elim (fun hne => hne hhappened.1) fun hne => hne hhappened.2
    have hprogress := h.progress loop (hbroadcasts ▸ List.mem_cons_self)
    have hnodup := hprogress.nodup
    rw [hremaining] at hnodup
    obtain ⟨hnew, hnodup⟩ := List.nodup_cons.mp hnodup
    intro other hloop
    rcases List.mem_cons.mp hloop with rfl | hrest
    · obtain ⟨targets, ⟨serial, topic, packet, hmem⟩, hsub, hall⟩ := hprogress.published
      rw [hremaining] at hsub hall
      refine ⟨⟨targets, ⟨serial, topic, packet, mem_snoc.mpr (.inl hmem)⟩,
        fun target htarget => hsub (List.mem_cons_of_mem _ htarget), fun target htarget => ?_⟩,
        hnodup, fun target htarget => ?_⟩
      · rcases hall target htarget with hwaiting | hserved
        · rcases List.mem_cons.mp hwaiting with rfl | hlater
          · exact .inr hserves
          · exact .inl hlater
        · exact .inr (hserved.imp (fun hmem => mem_snoc.mpr (.inl hmem)) fun hmem =>
            mem_snoc.mpr (.inl hmem))
      · have hne : target ≠ id := fun heq => hnew (heq ▸ htarget)
        have hwaiting := hprogress.waiting target (hremaining ▸ List.mem_cons_of_mem _ htarget)
        exact mt (served_snoc (hother loop.number target (.inr hne))).mp hwaiting
    · have hnumber : other.number ≠ loop.number := by
        intro heq
        have hdistinct := h.distinct
        rw [hbroadcasts] at hdistinct
        exact (List.nodup_cons.mp hdistinct).1 (heq ▸ List.mem_map_of_mem hrest)
      exact (h.progress other (hbroadcasts ▸ List.mem_cons_of_mem _ hrest)).snoc
        fun target => hother other.number target (.inl hnumber)
  distinct := by
    have hdistinct := h.distinct
    rwa [hbroadcasts] at hdistinct
  answered := h.answered

theorem onFact_broker (router : Router) (processes : Processes) (order : Iteration) (s : State)
    (fact : Fact) : (onFact router processes order s fact).broker = s.broker := by
  unfold onFact
  split
  · rfl
  · unfold onMessage
    split
    · unfold subscribe
      split
      · rfl
      · dsimp only
        split_ifs <;> rfl
    · unfold publish
      split
      · rfl
      · split_ifs <;> rfl
    · unfold coreBroadcast
      split_ifs
      · split <;> rfl
      · rfl
    · rfl
  · rfl

theorem advance_broker (router : Router) (processes : Processes) (order : Iteration) (s : State)
    (next : Handshake.State) : (advance router processes order s next).broker = next := by
  have hfold : ∀ (facts : List Fact) (s : State),
      (facts.foldl (onFact router processes order) s).broker = s.broker := by
    intro facts
    induction facts with
    | nil => exact fun _ => rfl
    | cons fact rest ih => exact fun s => (ih _).trans (onFact_broker router processes order s fact)
  exact hfold _ _

/-- What every step of the event plane keeps. -/
structure Sound (router : Router) (s : State) : Prop where
  settled : Settled s.broker
  complete : Complete s.broker
  inv : Inv router s.broker.log s

theorem sound_initial (router : Router) : Sound router {} where
  settled := settled_initial
  complete := by
    intro id peer hmem
    cases hmem
  inv := inv_initial router

theorem Sound.advance (h : Sound router s) {next : Handshake.State} (hsettled : Settled next)
    (hgrows : Grows (Answered router) s.broker next) (processes : Processes)
    (order : Iteration) : Sound router (advance router processes order s next) := by
  have hbroker := advance_broker router processes order s next
  exact
    { settled := hbroker.symm ▸ hsettled
      complete := hbroker.symm ▸ hgrows.complete h.complete
      inv := by
        rw [hbroker]
        exact h.inv.advance hsettled hgrows processes order }

theorem inControl_eq {loop : Broadcast} (h : s.inControl = some loop) :
    s.broadcasts = loop :: s.broadcasts.tail := by
  obtain ⟨hhead, -⟩ := Option.filter_eq_some_iff.mp h
  exact (List.head?_eq_some_iff.mp hhead).elim fun rest hrest => by rw [hrest, List.tail_cons]

theorem advance_of_log {next : Handshake.State} (h : next.log = s.broker.log)
    (processes : Processes) (order : Iteration) :
    advance router processes order s next = { s with broker := next } := by
  unfold advance
  rw [h, List.drop_length]
  rfl

theorem advance_of_closed {next : Handshake.State} {id : ℕ}
    (h : next.log = s.broker.log ++ [.closed id]) (processes : Processes) (order : Iteration) :
    advance router processes order s next = sessionClosed { s with broker := next } id := by
  unfold advance
  rw [h, List.drop_left]
  rfl

theorem Inv.subscribed_of_target (h : Inv router log s) {number id : ℕ} {targets : List ℕ}
    {serial : ℕ} {topic packet : Bytes}
    (hpublished : .published number serial topic packet targets ∈ s.history) (hid : id ∈ targets) :
    MayReceive router log id topic := by
  obtain ⟨before, hbefore, -, -, htargets⟩ := h.justified.exists_before hpublished
  obtain ⟨-, component, pattern, hsubscribed, hmatches⟩ := (htargets id).mp hid
  obtain ⟨peer, component, hcreated, hkind, hcomponent, hallows⟩ :=
    h.receivers id component pattern (hbefore.subset hsubscribed)
  exact ⟨peer, component, hcreated, hkind, hcomponent, allowsTopic_of_matches hallows hmatches⟩

/-- A session of a broadcast in progress that is not in the table was closed. -/
theorem Sound.dropped_of_gone (h : Sound router s) {loop : Broadcast}
    (hloop : loop ∈ s.broadcasts) {id : ℕ} (hid : id ∈ loop.remaining)
    (hgone : s.broker.findSession id = none) : .dropped id ∈ s.history := by
  obtain ⟨targets, ⟨serial, topic, packet, hpublished⟩, hsub, -⟩ :=
    (h.inv.progress loop hloop).published
  obtain ⟨peer, -, hcreated, -⟩ := h.inv.subscribed_of_target hpublished (hsub hid)
  by_contra hdropped
  have hopen : .closed id ∉ s.broker.log := mt (h.inv.dropped id).mpr hdropped
  exact mem_ids_iff.mp (h.complete id peer hcreated hopen) hgone

/-- The state when the send of the innermost broadcast has returned. -/
def served (s : State) (next : Handshake.State) (loop : Broadcast) (remaining : List ℕ)
    (happened : Happened) : State :=
  { s with
    broker := next
    broadcasts := { loop with remaining := remaining } :: s.broadcasts.tail }.record happened

/-- The session is not there, the send closes it, or the send keeps it. -/
theorem deliver_cases (router : Router) (broker : Broker) (s : State) (loop : Broadcast) (id : ℕ)
    (remaining : List ℕ) (send : Send) :
    (s.broker.findSession id = none ∧ deliver router broker s loop id remaining send =
      served s s.broker loop remaining (.missed loop.number id)) ∨
    (∃ next, (Handshake.queuePacket broker s.broker id loop.packet send).2 = next ∧
      next.log = s.broker.log ++ [.closed id] ∧ deliver router broker s loop id remaining send =
        served (sessionClosed s id) next loop remaining (.missed loop.number id)) ∨
    ∃ next, (Handshake.queuePacket broker s.broker id loop.packet send).2 = next ∧
      s.broker.findSession id ≠ none ∧ next.log = s.broker.log ∧
      (deliver router broker s loop id remaining send =
          served s next loop remaining (.delivered loop.number id) ∨
        (∃ component, deliver router broker s loop id remaining send =
          (served s next loop remaining (.delivered loop.number id)).record
            (.activity component)) ∨
        deliver router broker s loop id remaining send =
          leave (served s next loop remaining (.delivered loop.number id))
            (.abandoned loop.number)) := by
  unfold deliver
  cases hfind : s.broker.findSession id with
  | none =>
    have hqueued : Handshake.queuePacket broker s.broker id loop.packet send
        = (none, s.broker) := by
      unfold Handshake.queuePacket
      rw [hfind]
    rw [hqueued]
    dsimp only
    rw [advance_of_log rfl]
    exact .inl ⟨rfl, rfl⟩
  | some session =>
    rcases queuePacket_cases broker hfind loop.packet send with
      ⟨notify, hqueued⟩ | ⟨result, output, hresult, hqueued⟩
    · have hlog : (closeSession s.broker id notify none).log = s.broker.log ++ [.closed id] := by
        unfold closeSession
        rw [hfind]
      rw [hqueued]
      refine .inr (.inl ⟨_, rfl, hlog, ?_⟩)
      dsimp only
      rw [advance_of_closed]
      · rfl
      · exact hlog
    · rw [hqueued]
      refine .inr (.inr ⟨_, rfl, by simp, rfl, ?_⟩)
      dsimp only
      rw [advance_of_log]
      case h => rfl
      cases result with
      | closed => exact absurd rfl hresult
      | kept =>
        dsimp only
        cases OrderedDict.get s.subscriberComponents id with
        | none => exact .inl rfl
        | some component => exact .inr (.inl ⟨component, rfl⟩)
      | raised => exact .inr (.inr rfl)

theorem Sound.deliver (h : Sound router s) {loop : Broadcast} (hcontrol : s.inControl = some loop)
    {id : ℕ} {remaining : List ℕ} (hremaining : loop.remaining = id :: remaining) (send : Send) :
    Sound router (deliver router broker s loop id remaining send) := by
  have hbroadcasts := inControl_eq hcontrol
  have hloop : loop ∈ s.broadcasts := hbroadcasts ▸ List.mem_cons_self
  have hid : id ∈ loop.remaining := hremaining ▸ List.mem_cons_self
  have hprogress := h.inv.progress loop hloop
  have hwaiting := hprogress.waiting id hid
  obtain ⟨targets, hpublished, hsub, -⟩ := hprogress.published
  have htarget : ∃ targets, Published s.history loop.number targets ∧ id ∈ targets :=
    ⟨targets, hpublished, hsub hid⟩
  have hsettled : Settled (Handshake.queuePacket broker s.broker id loop.packet send).2 :=
    h.settled.queuePacket broker id loop.packet send
  have hgrows : Grows (Answered router) s.broker
      (Handshake.queuePacket broker s.broker id loop.packet send).2 :=
    grows_queuePacket broker s.broker id loop.packet send
  have hcomplete := hgrows.complete h.complete
  rcases deliver_cases router broker s loop id remaining send with
    ⟨hgone, heq⟩ | ⟨next, hnext, hlog, heq⟩ | ⟨next, hnext, hopen, hlog, heq⟩
  · have hdropped := h.dropped_of_gone hloop hid hgone
    rw [heq]
    exact
      { settled := h.settled
        complete := h.complete
        inv := h.inv.serve hbroadcasts hremaining (.inr rfl) ⟨htarget, hwaiting, hdropped⟩ }
  · rw [hnext] at hsettled hcomplete
    rw [heq]
    have hclosed := h.inv.sessionClosed id
    rw [← hlog] at hclosed
    exact
      { settled := hsettled
        complete := hcomplete
        inv := by
          refine (hclosed.setBroker next).serve hbroadcasts hremaining (.inr rfl) ⟨?_, ?_, ?_⟩
          · exact ⟨targets, (published_snoc (by simp)).mpr hpublished, hsub hid⟩
          · exact mt (served_snoc (by simp)).mp hwaiting
          · exact mem_snoc.mpr (.inr rfl) }
  · rw [hnext] at hsettled hcomplete
    have hserved : Sound router (served s next loop remaining (.delivered loop.number id)) :=
      { settled := hsettled
        complete := hcomplete
        inv := by
          have hkept : Inv router next.log s := hlog ▸ h.inv
          refine (hkept.setBroker next).serve hbroadcasts hremaining (.inl rfl)
            ⟨htarget, hwaiting, fun hdropped => ?_⟩
          have hover : Over s.broker.log id := .inl ((h.inv.dropped id).mp hdropped)
          exact hopen (findSession_eq_none (h.settled.gone id hover)) }
    rcases heq with heq | ⟨component, heq⟩ | heq
    · rw [heq]
      exact hserved
    · rw [heq]
      exact { hserved with inv := hserved.inv.record trivial trivial }
    · rw [heq]
      exact { hserved with inv := hserved.inv.leave trivial trivial }

theorem Sound.completes (h : Sound router s) {loop : Broadcast}
    (hcontrol : s.inControl = some loop) (hremaining : loop.remaining = []) :
    Sound router (EventPlane.complete s loop) := by
  have hloop : loop ∈ s.broadcasts := inControl_eq hcontrol ▸ List.mem_cons_self
  obtain ⟨targets, hpublished, -, hall⟩ := (h.inv.progress loop hloop).published
  have hserved : ∀ id ∈ targets, Served s.history loop.number id := fun id hid =>
    (hall id hid).resolve_left (by simp [hremaining])
  have hleft : Inv router s.broker.log (leave s (.completed loop.number)) :=
    h.inv.leave trivial ⟨targets, hpublished, hserved⟩
  unfold EventPlane.complete
  dsimp only
  split
  · exact { h with inv := hleft.record trivial trivial }
  · exact { h with inv := hleft }

theorem answered_of_answers {processes : Processes} {b : Handshake.State} {label : Handshake.Label}
    (h : answers router processes b label = true) : Answers (Answered router) b label := by
  unfold Answers
  split
  · intro serial id message request rest hstack
    unfold answers at h
    simp only [hstack] at h
    exact ⟨processes, (eq_of_beq h).symm⟩
  · trivial

theorem Sound.step (h : Sound router s) {label : Label}
    (hstep : step router broker s label = some s') : Sound router s' := by
  cases label with
  | broker label processes order =>
    simp only [EventPlane.step] at hstep
    split_ifs at hstep with hblocked
    obtain ⟨next, hnext, rfl⟩ := Option.map_eq_some_iff.mp hstep
    have hanswers : answers router processes s.broker label = true := by
      simp only [Bool.or_eq_true, not_or, Bool.not_eq_true, Bool.not_eq_false'] at hblocked
      exact hblocked.2
    exact h.advance (h.settled.step hnext) (step_grows (answered_of_answers hanswers) hnext)
      processes order
  | deliver send =>
    simp only [EventPlane.step] at hstep
    split at hstep
    · cases hstep
    · rename_i hcontrol
      split at hstep
      · cases hstep
      · rename_i hremaining
        cases hstep
        exact h.deliver hcontrol hremaining send
  | complete =>
    simp only [EventPlane.step] at hstep
    split at hstep
    · cases hstep
    · rename_i hcontrol
      split_ifs at hstep with hremaining
      cases hstep
      exact h.completes hcontrol hremaining
  | throws standard what send =>
    simp only [EventPlane.step] at hstep
    split at hstep
    · cases hstep
    · rename_i loop hcontrol
      obtain ⟨next, hnext, rfl⟩ := Option.map_eq_some_iff.mp hstep
      have hleft : Sound router (leave s (.abandoned loop.number)) :=
        { h with inv := h.inv.leave trivial trivial }
      exact hleft.advance (h.settled.step hnext) (step_grows (by trivial) hnext) nowhere asStored

/-- In every run: a broadcast has as targets the sessions with a subscription that matches, each
is served once, and is not sent the packet only when it was closed; who is sent it may subscribe
to the topic, and who published it may publish it, or may call the method of Core that does. A
session that was closed has no subscription left, and none has more than the limit. -/
theorem run_events (router : Router) (broker : Broker) (labels : List Label) (s : State)
    (hrun : Runs.run (step router broker) {} labels = some s) :
    Justified Allowed s.history ∧
      (∀ number id, .delivered number id ∈ s.history → ∃ serial topic packet targets,
        .published number serial topic packet targets ∈ s.history ∧ id ∈ targets ∧
          MayReceive router s.broker.log id topic ∧
          MayPublish router s.broker.log serial topic packet) ∧
      ∀ id topics, OrderedDict.get s.subscriptions id = some topics →
        .closed id ∉ s.broker.log ∧ topics.length ≤ maxSubscriptionsPerSession := by
  have h : Sound router s := Runs.run_invariant_all (fun _ _ _ h hstep => h.step hstep) labels
    (sound_initial router) hrun
  refine ⟨h.inv.justified, fun number id hdelivered => ?_, fun id topics hget => ?_⟩
  · obtain ⟨before, hbefore, ⟨targets, ⟨serial, topic, packet, hpublished⟩, hid⟩, -⟩ :=
      h.inv.justified.exists_before hdelivered
    have hmem := hbefore.subset hpublished
    exact ⟨serial, topic, packet, targets, hmem, hid, h.inv.subscribed_of_target hmem hid,
      h.inv.publishers number serial topic packet targets hmem⟩
  · obtain ⟨hlength, hopen, -⟩ := h.inv.topics id topics hget
    exact ⟨hopen, hlength⟩

/-- A component that may subscribe to and publish what begins with `x.`. -/
def familyRouter : Router where
  catalog :=
    { plan :=
        { components := [
            { id := ascii "a"
              permissions :=
                [ascii "mipc.event:subscribe:x.*", ascii "mipc.event:publish:x.*"] }] }
      roles := []
      interfaces := [] }
  euid := 0

/-- It subscribes, becomes ready, publishes and receives its own event. -/
def familyLabels : List Label :=
  [.createComponentSession (ascii "a") 1 7 0 0 false,
    .packet 1 { type := .hello, component := ascii "a", generation := some 1 } {},
    .packet 1 { type := .subscribe, topic := ascii "x.*" } {}, .returns,
    .packet 1 { type := .ready } {}, .returns,
    .packet 1 { type := .event, topic := ascii "x.b" } {}].map
      (Label.broker · nowhere asStored) ++ [.deliver {}, .complete]

theorem run_events_family : ∃ s topic,
    Runs.run (step familyRouter { runtimeDir := [] }) {} familyLabels = some s ∧
      .delivered 0 1 ∈ s.history ∧ MayReceive familyRouter s.broker.log 1 topic := by
  have hhistory : (Runs.run (step familyRouter { runtimeDir := [] }) {} familyLabels).map
      State.history = some [.subscribed 1 0 (ascii "x.*"), .activity 0,
        .published 0 3 (ascii "x.b")
          (eventPacket (ascii "x.b") (ascii "a") (ascii "{}")) [1],
        .delivered 0 1, .activity 0, .completed 0, .activity 0] := rfl
  obtain ⟨s, hs, hfacts⟩ := Option.map_eq_some_iff.mp hhistory
  have hdelivered : .delivered 0 1 ∈ s.history := by simp [hfacts]
  obtain ⟨-, hdeliveries, -⟩ := run_events familyRouter { runtimeDir := [] } familyLabels s hs
  obtain ⟨serial, topic, packet, targets, -, -, hreceive, -⟩ := hdeliveries 0 1 hdelivered
  exact ⟨s, topic, hs, hdelivered, hreceive⟩

end MsysCore.Native.EventPlane
