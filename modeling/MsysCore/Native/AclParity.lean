import MsysCore.Core.CallGrants
import MsysCore.Core.TopicPatterns
import MsysCore.Native.Catalog
import MsysCore.Native.MipcAcceptance
import MsysCore.Python.Utf8

/-!
# The native authorization against the Python one

Both programs read the same manifest permissions. The native rules work on bytes, take
`prefix.*` for a family of topics and never ask whether a topic is well formed; the
Python rules work on texts, take `prefix*` and refuse malformed topics and patterns.
-/

namespace MsysCore.Native

open Python (PyStr lit Spells)
open Core (star validTopicText validSubscriptionText subscriptionCovers maxTopicLength
  patternPrefix wellFormed mem_callPermissionCandidates)

/-! ## Texts of the source -/

theorem spells_ascii (s : String) (h : (s.toList.all fun c => c.toNat < 0x80) = true) :
    Spells (lit s) (ascii s) := by
  rw [List.all_eq_true] at h
  constructor
  · intro c hc
    obtain ⟨d, hd, rfl⟩ := List.mem_map.mp hc
    have hlow : d.toNat < 0x80 := by simpa using h d hd
    constructor
    · omega
    · simp [Python.isSurrogate]
      omega
  · unfold lit ascii
    rw [List.flatMap_map]
    generalize s.toList = cs at h
    induction cs with
    | nil => rfl
    | cons d cs ih =>
      have hlow : d.toNat < 0x80 := by simpa using h d List.mem_cons_self
      rw [List.map_cons, List.flatMap_cons, Python.utf8Char_of_ascii hlow,
        ← ih fun c hc => h c (List.mem_cons_of_mem _ hc)]
      rfl

theorem spells_star : Spells [star] (ascii "*") := spells_ascii "*" rfl

/-! ## Families of topics -/

variable {rule topic : PyStr} {ruleBytes topicBytes : Bytes}

theorem ascii_family : ascii ".*" = [46] ++ [42] := rfl

/-- A native rule is the global one, the family below a dot, or one topic. -/
theorem topicMatch_cases (hr : Spells rule ruleBytes) (ht : Spells topic topicBytes)
    (h : NativeCatalog.topicMatch ruleBytes topicBytes = true) :
    rule = [star] ∨ (∃ p, rule = p ++ [46] ++ [star] ∧ p ++ [46] <+: topic) ∨ rule = topic := by
  unfold NativeCatalog.topicMatch at h
  split_ifs at h with hglobal hfamily
  · exact Or.inl ((hr.eq_iff spells_star).mp hglobal)
  · rw [Bool.and_eq_true, List.isSuffixOf_iff_suffix] at hfamily
    obtain ⟨-, front, rfl⟩ := hfamily
    rw [ascii_family, ← List.append_assoc] at hr h
    obtain ⟨q, rfl, hq⟩ := hr.of_snoc (by decide)
    obtain ⟨p, rfl, -⟩ := hq.of_snoc (by decide)
    rw [List.dropLast_concat, hq.isPrefixOf_eq ht, List.isPrefixOf_iff_prefix] at h
    exact Or.inr (Or.inl ⟨p, rfl, h⟩)
  · exact Or.inr (Or.inr ((hr.eq_iff ht).mp (beq_iff_eq.mp h)))

theorem topicMatch_global : NativeCatalog.topicMatch (ascii "*") topicBytes = true := rfl

/-- The family rule of a topic that ends in a dot matches the topic itself. -/
theorem topicMatch_family (front : Bytes) :
    NativeCatalog.topicMatch (front ++ [46] ++ [42]) (front ++ [46]) = true := by
  have hsuffix : (ascii ".*").isSuffixOf (front ++ [46] ++ [42]) = true := by
    rw [List.isSuffixOf_iff_suffix]
    exact ⟨front, by rw [ascii_family, List.append_assoc]⟩
  have hlen : 2 ≤ (front ++ [46] ++ [(42 : UInt8)]).length := by simp
  unfold NativeCatalog.topicMatch
  split_ifs with hglobal hfamily
  · rfl
  · rw [List.dropLast_concat, List.isPrefixOf_iff_prefix]
  · exact absurd (Bool.and_eq_true_iff.mpr ⟨decide_eq_true hlen, hsuffix⟩) hfamily

/-- A topic of full length that ends in a dot: the family rule below it is one character
too long to be a pattern. -/
def FullFamily (topic : PyStr) : Prop := topic.length = maxTopicLength ∧ topic.getLast? = some 46

instance (topic : PyStr) : Decidable (FullFamily topic) := inferInstanceAs (Decidable (_ ∧ _))

/-- A native rule that matches a valid request covers it under the Python rules. -/
theorem subscriptionCovers_of_rule (hvalid : validSubscriptionText topic = true)
    (hfull : ¬ FullFamily topic)
    (hrule : rule = [star] ∨ (∃ p, rule = p ++ [46] ++ [star] ∧ p ++ [46] <+: topic) ∨
      rule = topic) :
    subscriptionCovers rule topic = true := by
  rw [Core.subscriptionCovers_iff]
  rcases hrule with rfl | ⟨p, rfl, hp⟩ | rfl
  · exact ⟨rfl, hvalid, Or.inl rfl⟩
  · -- The family lies below a topic text: the request itself, or what stands before its star.
    have hbelow : ∃ q, validTopicText q = true ∧ p ++ [46] <+: q ∧
        (p ++ [46]).length < maxTopicLength ∧ patternPrefix topic = q := by
      rcases Core.validSubscriptionText_iff.mp hvalid with hglobal | ⟨q, rfl, hq, hlen⟩ | htopic
      · rw [hglobal] at hp
        obtain ⟨rest, hrest⟩ := hp
        cases p with
        | nil => exact absurd (List.head_eq_of_cons_eq hrest) (by decide)
        | cons c p => simp at hrest
      · have hpq : p ++ [46] <+: q := by
          rcases List.prefix_concat_iff.mp hp with heq | h
          · have hlast := List.head_eq_of_cons_eq (List.append_inj' heq rfl).2
            exact absurd hlast (by decide)
          · exact h
        exact ⟨q, hq, hpq, hpq.length_le.trans_lt hlen, Core.patternPrefix_snoc q⟩
      · refine ⟨topic, htopic, hp, ?_, Core.patternPrefix_of_topic htopic⟩
        by_contra hlong
        have hbound := (Core.validTopicText_iff.mp htopic).1
        have hle := hp.length_le
        have hall := hp.eq_of_length (by omega)
        apply hfull
        constructor
        · omega
        · rw [← hall]
          simp
    obtain ⟨q, hq, hpq, hlen, hbelow⟩ := hbelow
    refine ⟨?_, hvalid, Or.inr (Or.inl ⟨p ++ [46], rfl, by rw [hbelow]; exact hpq⟩)⟩
    rw [Core.validSubscriptionText_iff]
    exact Or.inr (Or.inl ⟨p ++ [46], rfl, Core.validTopicText_of_prefix hq hpq (by simp), hlen⟩)
  · exact ⟨hvalid, hvalid, Or.inr (Or.inr rfl)⟩

/-! ## Permissions -/

theorem spelled_of_mem {permissions : List PyStr} {spelled : List Bytes}
    (h : List.Forall₂ Spells permissions spelled) {value : Bytes} (hv : value ∈ spelled) :
    ∃ permission ∈ permissions, Spells permission value := by
  induction h with
  | nil => cases hv
  | cons hhead _ ih =>
    rcases List.mem_cons.mp hv with rfl | hv
    · exact ⟨_, List.mem_cons_self, hhead⟩
    · obtain ⟨permission, hp, hs⟩ := ih hv
      exact ⟨permission, List.mem_cons_of_mem _ hp, hs⟩

variable {catalog : NativeCatalog} {source : ℕ} {permissions : List PyStr}

theorem hasPermission_text {broad exact : PyStr} {broadBytes exactBytes : Bytes}
    (hp : List.Forall₂ Spells permissions (catalog.permissionsOf source))
    (hb : Spells broad broadBytes) (he : Spells exact exactBytes)
    (h : catalog.hasPermission source broadBytes exactBytes = true) :
    broad ∈ permissions ∨ exact ∈ permissions := by
  unfold NativeCatalog.hasPermission at h
  rw [List.any_eq_true] at h
  obtain ⟨value, hv, hsame⟩ := h
  obtain ⟨permission, hmem, hs⟩ := spelled_of_mem hp hv
  rw [Bool.or_eq_true, beq_iff_eq, beq_iff_eq] at hsame
  rcases hsame with rfl | rfl
  · rw [(hb.eq_iff hs).mp rfl]
    exact Or.inl hmem
  · rw [(he.eq_iff hs).mp rfl]
    exact Or.inr hmem

theorem allowsTopic_text {start : PyStr} {startBytes : Bytes}
    (hp : List.Forall₂ Spells permissions (catalog.permissionsOf source))
    (hs : Spells start startBytes) (h : catalog.allowsTopic source startBytes topicBytes = true) :
    ∃ rule ruleBytes, start ++ rule ∈ permissions ∧ Spells rule ruleBytes ∧
      NativeCatalog.topicMatch ruleBytes topicBytes = true := by
  unfold NativeCatalog.allowsTopic at h
  rw [List.any_eq_true] at h
  obtain ⟨value, hv, hboth⟩ := h
  rw [Bool.and_eq_true, List.isPrefixOf_iff_prefix] at hboth
  obtain ⟨⟨ruleBytes, rfl⟩, hmatch⟩ := hboth
  obtain ⟨permission, hmem, hspell⟩ := spelled_of_mem hp hv
  obtain ⟨rule, rfl, hrule⟩ := hspell.of_append hs
  rw [List.drop_left] at hmatch
  exact ⟨rule, ruleBytes, hmem, hrule, hmatch⟩

/-! ## Calls -/

variable {target method : PyStr} {targetBytes methodBytes : Bytes}

/-- A native call permission is one of the Python candidates, unless the interface has
no name. -/
theorem allowsCall_text (hp : List.Forall₂ Spells permissions (catalog.permissionsOf source))
    (ht : Spells target targetBytes) (hm : Spells method methodBytes) (hmethod : method ≠ [])
    (hname : targetBytes ≠ ascii "interface:")
    (h : catalog.allowsCall source targetBytes methodBytes = true) :
    Core.allowsCall permissions target method = true := by
  have hcandidate : ∀ resource, lit "mipc.call:" ++ resource ∈ permissions →
      lit "mipc.call:" ++ resource ∈ Core.callPermissionCandidates target method →
      Core.allowsCall permissions target method = true := by
    intro resource hmem hresource
    unfold Core.allowsCall
    rw [Bool.or_eq_true, List.any_eq_true]
    exact Or.inr ⟨_, hresource, by simpa using hmem⟩
  have hcall : Spells (lit "mipc.call:") (ascii "mipc.call:") := spells_ascii _ rfl
  have hdot : Spells (lit ".") (ascii ".") := spells_ascii _ rfl
  have hinterface : Spells (lit "interface:") (ascii "interface:") := spells_ascii _ rfl
  unfold NativeCatalog.allowsCall at h
  simp only at h
  split_ifs at h with halias
  · obtain ⟨nameBytes, rfl⟩ := List.isPrefixOf_iff_prefix.mp halias
    obtain ⟨name, rfl, hn⟩ := ht.of_append hinterface
    have hne : name ≠ [] := by
      rintro rfl
      apply hname
      rw [hn.data_eq]
      simp
    have hdrop : (ascii "interface:" ++ nameBytes).drop 10 = nameBytes := rfl
    rw [hdrop] at h
    rcases hasPermission_text hp (hcall.append hn) (((hcall.append hn).append hdot).append hm) h
      with hmem | hmem
    · apply hcandidate name hmem
      rw [mem_callPermissionCandidates]
      exact ⟨name, rfl, Or.inr ⟨name, rfl, hne, Or.inl rfl⟩⟩
    · have hassoc : lit "mipc.call:" ++ name ++ lit "." ++ method =
          lit "mipc.call:" ++ (name ++ lit "." ++ method) := by simp
      rw [hassoc] at hmem
      apply hcandidate _ hmem
      rw [mem_callPermissionCandidates]
      exact ⟨_, rfl, Or.inr ⟨name, rfl, hne, Or.inr ⟨hmethod, rfl⟩⟩⟩
  · rcases hasPermission_text hp (hcall.append ht) (((hcall.append ht).append hdot).append hm) h
      with hmem | hmem
    · apply hcandidate target hmem
      rw [mem_callPermissionCandidates]
      exact ⟨target, rfl, Or.inl (Or.inl rfl)⟩
    · have hassoc : lit "mipc.call:" ++ target ++ lit "." ++ method =
          lit "mipc.call:" ++ (target ++ lit "." ++ method) := by simp
      rw [hassoc] at hmem
      apply hcandidate _ hmem
      rw [mem_callPermissionCandidates]
      exact ⟨_, rfl, Or.inl (Or.inr ⟨hmethod, rfl⟩)⟩

/-- An accepted call has a method. -/
theorem decodeMessage_method {packet : Bytes} {m : DecodedMessage}
    (h : decodeMessage packet = .ok m) (hcall : m.type = .call) : m.method ≠ [] := by
  obtain ⟨e, hrule, hm⟩ := decodeMessage_rule h
  rw [hcall] at hrule
  intro hempty
  have hmethod : e.message.method = [] := by
    rw [hm] at hempty
    exact hempty
  simp only [brokenRule, hmethod, List.isEmpty_nil, Bool.or_true, Bool.true_or, if_true] at hrule
  split_ifs at hrule

/-! ## Events -/

theorem permissionsOf_build {plan : RuntimePlan} {component : ComponentPlan}
    (hbuild : NativeCatalog.build plan = .ok catalog)
    (hcomponent : plan.components[source]? = some component) :
    catalog.permissionsOf source = component.permissions := by
  obtain ⟨-, -, tables, -, rfl, -⟩ := NativeCatalog.build_eq_ok.mp hbuild
  simp [NativeCatalog.permissionsOf, NativeCatalog.ofTables, hcomponent]

/-- A plan of one component that holds the given permissions. -/
def soloPlan (permissions : List Bytes) : RuntimePlan where
  components := [{ id := ascii "a", permissions := permissions }]

def soloCatalog (permissions : List Bytes) : NativeCatalog := ⟨soloPlan permissions, [], []⟩

theorem build_soloPlan (permissions : List Bytes) :
    NativeCatalog.build (soloPlan permissions) = .ok (soloCatalog permissions) := rfl

/-- `allowed` of a catalog implies `granted` of the same permissions, for every plan and
every component of it. -/
def Within (allowed : NativeCatalog → ℕ → Bool) (granted : List PyStr → Bool) : Prop :=
  ∀ (plan : RuntimePlan) (catalog : NativeCatalog) (source : ℕ) (component : ComponentPlan)
    (permissions : List PyStr),
    NativeCatalog.build plan = .ok catalog → plan.components[source]? = some component →
    List.Forall₂ Spells permissions component.permissions →
    allowed catalog source = true → granted permissions = true

/-- A permission that only the native program honours. -/
theorem not_within {allowed : NativeCatalog → ℕ → Bool} {granted : List PyStr → Bool}
    {permission : PyStr} {spelled : Bytes} (hs : Spells permission spelled)
    (hallowed : allowed (soloCatalog [spelled]) 0 = true)
    (hgranted : ¬ granted [permission] = true) : ¬ Within allowed granted := by
  intro h
  apply hgranted
  exact h (soloPlan [spelled]) _ 0 _ _ (build_soloPlan _) rfl (.cons hs .nil) hallowed

theorem allowsTopic_solo {start rule : Bytes} (h : NativeCatalog.topicMatch rule topicBytes = true) :
    (soloCatalog [start ++ rule]).allowsTopic 0 start topicBytes = true := by
  have hpermissions : (soloCatalog [start ++ rule]).permissionsOf 0 = [start ++ rule] := rfl
  have hprefix : start.isPrefixOf (start ++ rule) = true :=
    List.isPrefixOf_iff_prefix.mpr (List.prefix_append _ _)
  simp [NativeCatalog.allowsTopic, hpermissions, hprefix, h]

theorem allowsTopic_within_iff {action : Core.EventAction} {start : Bytes}
    (hs : Spells (Core.eventPermission action []) start) (ht : Spells topic topicBytes) :
    Within (fun catalog source => catalog.allowsTopic source start topicBytes)
        (fun permissions => Core.allowsEvent permissions action topic) ↔
      wellFormed action topic = true ∧ ¬ FullFamily topic := by
  constructor
  · intro h
    have hwell : wellFormed action topic = true := by
      by_contra hbad
      refine not_within (hs.append spells_star) (allowsTopic_solo topicMatch_global) ?_ h
      rw [Core.allowsEvent_iff]
      exact fun hboth => hbad hboth.1
    refine ⟨hwell, fun hfull => ?_⟩
    obtain ⟨hlen, hdot⟩ := hfull
    obtain ⟨front, rfl⟩ := List.getLast?_eq_some_iff.mp hdot
    have hfront : Spells front (front.flatMap Python.utf8Char) :=
      ⟨fun c hc => ht.scalar c (List.mem_append_left _ hc), rfl⟩
    have hbytes : topicBytes = front.flatMap Python.utf8Char ++ [46] := by
      rw [ht.data_eq, List.flatMap_append]
      rfl
    have hrule : Spells (front ++ [46] ++ [star]) (topicBytes ++ [42]) := ht.append spells_star
    refine not_within (hs.append hrule) (allowsTopic_solo ?_) ?_ h
    · rw [hbytes]
      exact topicMatch_family _
    · rw [Core.allowsEvent_iff]
      rintro ⟨-, rule, hmem, hcovers⟩
      rw [List.mem_singleton, ← Core.eventPermission_append] at hmem
      rw [List.append_cancel_left hmem] at hcovers
      have hbound := Core.validSubscriptionText_length (Core.subscriptionCovers_iff.mp hcovers).1
      rw [List.length_append, hlen] at hbound
      simp at hbound
  · rintro ⟨hwell, hfull⟩ plan catalog source component permissions hbuild hcomponent hp h
    rw [← permissionsOf_build hbuild hcomponent] at hp
    obtain ⟨rule, ruleBytes, hmem, hrule, hmatch⟩ := allowsTopic_text hp hs h
    rw [Core.allowsEvent_iff]
    rw [Core.eventPermission_append] at hmem
    exact ⟨hwell, rule, hmem, subscriptionCovers_of_rule
      (Core.validSubscriptionText_of_wellFormed hwell) hfull (topicMatch_cases hrule ht hmatch)⟩

/-! ## Packets -/

/-- Whatever the native catalog allows the sender of `m`, the Python rules allow it with
the same permissions. The texts are those of `m`. -/
def NativeWithinPython (m : DecodedMessage) (target method topic : PyStr) : Prop :=
  match m.type with
  | .call => Within (fun catalog source => catalog.allowsCall source m.target m.method)
      (fun permissions => Core.allowsCall permissions target method)
  | .event => Within (fun catalog source => catalog.allowsPublish source m.topic)
      (fun permissions => Core.allowsEvent permissions .publish topic)
  | .subscribe => Within (fun catalog source => catalog.allowsSubscribe source m.topic)
      (fun permissions => Core.allowsEvent permissions .subscribe topic)
  | _ => True

/-- The packets on which the native rules stay within the Python ones: a call names its
interface, and a topic or a pattern is well formed and leaves room for a star. -/
def WithinRules (m : DecodedMessage) (topic : PyStr) : Prop :=
  match m.type with
  | .call => m.target ≠ ascii "interface:"
  | .event => validTopicText topic = true ∧ ¬ FullFamily topic
  | .subscribe => validSubscriptionText topic = true ∧ ¬ FullFamily topic
  | _ => True

/-- A call permission without a target names no target, not even a nameless interface. -/
theorem not_allowsCall_nameless :
    ¬ Core.allowsCall [lit "mipc.call:"] (lit "interface:") method = true := by
  intro h
  unfold Core.allowsCall at h
  rw [Bool.or_eq_true, List.any_eq_true] at h
  rcases h with h | ⟨permission, hcandidate, hmem⟩
  · exact absurd h (by decide)
  · rw [List.contains_iff_mem, List.mem_singleton] at hmem
    obtain ⟨resource, hresource, hcase⟩ := mem_callPermissionCandidates.mp hcandidate
    rw [hmem] at hresource
    have hempty : resource = [] := List.self_eq_append_right.mp hresource
    rcases hcase with (h | ⟨-, h⟩) | ⟨name, h, hname, -⟩
    · rw [hempty] at h
      exact absurd h (by decide)
    · rw [hempty] at h
      have hdot := (List.append_eq_nil_iff.mp (List.append_eq_nil_iff.mp h.symm).1).2
      exact absurd hdot (by decide)
    · exact hname (List.self_eq_append_right.mp h)

theorem allowsCall_within_iff (ht : Spells target targetBytes) (hm : Spells method methodBytes)
    (hmethod : methodBytes ≠ []) :
    Within (fun catalog source => catalog.allowsCall source targetBytes methodBytes)
        (fun permissions => Core.allowsCall permissions target method) ↔
      targetBytes ≠ ascii "interface:" := by
  have hinterface : Spells (lit "interface:") (ascii "interface:") := spells_ascii _ rfl
  constructor
  · rintro h rfl
    have htarget : target = lit "interface:" := (ht.eq_iff hinterface).mp rfl
    have hs : Spells (lit "mipc.call:") (ascii "mipc.call:") := spells_ascii _ rfl
    refine not_within hs rfl ?_ h
    rw [htarget]
    exact not_allowsCall_nameless
  · intro hname plan catalog source component permissions hbuild hcomponent hp h
    rw [← permissionsOf_build hbuild hcomponent] at hp
    have hne : method ≠ [] := by
      rintro rfl
      apply hmethod
      rw [hm.data_eq]
      rfl
    exact allowsCall_text hp ht hm hne hname h

/-- On every packet the decoder accepts, the native rules grant no more than the Python
ones exactly when the packet is within the rules. -/
theorem nativeWithinPython_iff {packet : Bytes} {m : DecodedMessage}
    (hm : decodeMessage packet = .ok m) (htarget : Spells target m.target)
    (hmethod : Spells method m.method) (htopic : Spells topic m.topic) :
    NativeWithinPython m target method topic ↔ WithinRules m topic := by
  have hpublish : Spells (Core.eventPermission .publish []) (ascii "mipc.event:publish:") :=
    spells_ascii "mipc.event:publish:" rfl
  have hsubscribe : Spells (Core.eventPermission .subscribe []) (ascii "mipc.event:subscribe:") :=
    spells_ascii "mipc.event:subscribe:" rfl
  unfold NativeWithinPython WithinRules
  cases htype : m.type with
  | call => exact allowsCall_within_iff htarget hmethod (decodeMessage_method hm htype)
  | event => exact allowsTopic_within_iff hpublish htopic
  | subscribe => exact allowsTopic_within_iff hsubscribe htopic
  | hello => rfl
  | ready => rfl
  | returned => rfl
  | error => rfl

/-- An event whose topic holds a space. -/
def spacedEvent : Bytes :=
  ascii "\x7b\"type\":\"event\",\"topic\":\"a b\",\"payload\":\x7b\x7d\x7d"

theorem decode_spacedEvent :
    decodeMessage spacedEvent = .ok { type := .event, topic := ascii "a b" } := by rfl

theorem nativeWithinPython_iff_spaced :
    NativeWithinPython { type := .event, topic := ascii "a b" } [] [] (lit "a b") ↔
      WithinRules { type := .event, topic := ascii "a b" } (lit "a b") :=
  nativeWithinPython_iff decode_spacedEvent .nil .nil (spells_ascii "a b" rfl)

/-- A wildcard grant lets the native program publish a topic that is no topic. -/
theorem native_grants_spaced :
    ¬ ∀ (packet : Bytes) (m : DecodedMessage) (target method topic : PyStr),
      decodeMessage packet = .ok m → Spells target m.target → Spells method m.method →
      Spells topic m.topic → NativeWithinPython m target method topic := by
  intro h
  have hwithin := h spacedEvent _ [] [] (lit "a b") decode_spacedEvent .nil .nil
    (spells_ascii "a b" rfl)
  have hpublish : Spells (Core.eventPermission .publish []) (ascii "mipc.event:publish:") :=
    spells_ascii "mipc.event:publish:" rfl
  have hrules := (allowsTopic_within_iff hpublish (spells_ascii "a b" rfl)).mp hwithin
  exact absurd hrules.1 (by decide)

end MsysCore.Native
