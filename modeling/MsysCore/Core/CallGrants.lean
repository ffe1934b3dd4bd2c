import MsysCore.Core.MipcAcl

/-!
# What one call permission grants

A permission is compared as one flat text with the texts built from a target and a
method. Several calls may build the same text: an interface has an alias without its
head, and a dot may part the method from the target or stand inside a name.
-/

namespace MsysCore.Core

open Python

variable {target method resource p : PyStr}

/-! ## The candidates of a call -/

theorem afterColon_interface (name : PyStr) : afterColon (lit "interface:" ++ name) = name :=
  rfl

/-- The resources one target offers: itself, narrowed by the method if there is one. -/
theorem mem_resources :
    resource ∈ (if method.isEmpty then [target] else [target ++ lit "." ++ method, target]) ↔
      resource = target ∨ (method ≠ [] ∧ resource = target ++ lit "." ++ method) := by
  cases method with
  | nil => simp
  | cons c method => simp [or_comm]

theorem mem_callPermissionCandidates {permission : PyStr} :
    permission ∈ callPermissionCandidates target method ↔
      ∃ resource, permission = lit "mipc.call:" ++ resource ∧
        ((resource = target ∨ (method ≠ [] ∧ resource = target ++ lit "." ++ method)) ∨
          ∃ name, target = lit "interface:" ++ name ∧ name ≠ [] ∧
            (resource = name ∨ (method ≠ [] ∧ resource = name ++ lit "." ++ method))) := by
  unfold callPermissionCandidates
  simp only [List.mem_map, List.mem_eraseDups, List.mem_append, mem_resources]
  constructor
  · rintro ⟨resource, hresource, rfl⟩
    refine ⟨resource, rfl, hresource.imp_right fun halias => ?_⟩
    by_cases hhead : (lit "interface:").isPrefixOf target
    · obtain ⟨name, rfl⟩ := List.isPrefixOf_iff_prefix.mp hhead
      rw [if_pos hhead, afterColon_interface] at halias
      by_cases hname : name = []
      · rw [hname] at halias
        cases halias
      · rw [if_neg (by simpa using hname), mem_resources] at halias
        exact ⟨name, rfl, hname, halias⟩
    · rw [if_neg hhead] at halias
      cases halias
  · rintro ⟨resource, rfl, hresource⟩
    refine ⟨resource, hresource.imp_right fun halias => ?_, rfl⟩
    obtain ⟨name, rfl, hname, hcase⟩ := halias
    rw [if_pos (List.isPrefixOf_iff_prefix.mpr (List.prefix_append _ _)), afterColon_interface,
      if_neg (by simpa using hname), mem_resources]
    exact hcase

/-! ## One target under its spellings -/

/-- The target that `interface:<name>` and its alias `<name>` both stand for. -/
def plainTarget (target : PyStr) : PyStr :=
  if (lit "interface:").isPrefixOf target ∧ afterColon target ≠ [] then
    plainTarget (afterColon target)
  else target
termination_by target.length
decreasing_by
  obtain ⟨name, rfl⟩ := List.isPrefixOf_iff_prefix.mp (by assumption : _ ∧ _).1
  rw [afterColon_interface, List.length_append]
  have hhead : 0 < (lit "interface:").length := by decide
  omega

theorem plainTarget_interface (hname : resource ≠ []) :
    plainTarget (lit "interface:" ++ resource) = plainTarget resource := by
  conv_lhs => rw [plainTarget]
  rw [if_pos, afterColon_interface]
  exact ⟨List.isPrefixOf_iff_prefix.mpr (List.prefix_append _ _), hname⟩

theorem plainTarget_of_headless (h : ¬ lit "interface:" <+: target) :
    plainTarget target = target := by
  rw [plainTarget, if_neg]
  rintro ⟨hhead, -⟩
  exact h (List.isPrefixOf_iff_prefix.mp hhead)

theorem plainTarget_head : plainTarget (lit "interface:") = lit "interface:" := by
  rw [plainTarget, if_neg]
  decide

/-- The head of an interface has no dot, so it ends before the dot of a method. -/
theorem interface_prefix_dotted :
    lit "interface:" <+: target ++ lit "." ++ method ↔ lit "interface:" <+: target := by
  constructor
  · intro h
    rw [List.append_assoc] at h
    by_cases hlen : (lit "interface:").length ≤ target.length
    · exact List.prefix_of_prefix_length_le h (List.prefix_append _ _) hlen
    · have hshort : (target ++ lit ".").length ≤ (lit "interface:").length := by
        have hdot : (lit ".").length = 1 := rfl
        rw [List.length_append]
        omega
      have hdotted : target ++ lit "." <+: lit "interface:" := by
        refine List.prefix_of_prefix_length_le ?_ h hshort
        exact ⟨method, by rw [List.append_assoc]⟩
      have hmem : 46 ∈ lit "interface:" := hdotted.subset (by simp [lit])
      exact absurd hmem (by decide)
  · intro h
    rw [List.append_assoc]
    exact h.trans (List.prefix_append _ _)

/-- A target and the same text with a method are never spellings of one target. -/
theorem plainTarget_dotted_ne (target method : PyStr) :
    plainTarget (target ++ lit "." ++ method) ≠ plainTarget target := by
  induction target using plainTarget.induct with
  | case1 target h ih =>
    obtain ⟨name, rfl⟩ := List.isPrefixOf_iff_prefix.mp h.1
    rw [afterColon_interface] at h ih
    rw [plainTarget_interface h.2, List.append_assoc, List.append_assoc, plainTarget_interface,
      ← List.append_assoc]
    · exact ih
    · simp [h.2]
  | case2 target h =>
    by_cases hhead : lit "interface:" <+: target
    · -- only the bare head is left, and what follows it begins with the dot
      obtain ⟨name, rfl⟩ := hhead
      have hname : name = [] := by
        by_contra hne
        exact h ⟨List.isPrefixOf_iff_prefix.mpr (List.prefix_append _ _), hne⟩
      rw [hname, List.append_nil, plainTarget_head, List.append_assoc,
        plainTarget_interface (by simp [lit]), plainTarget_of_headless]
      · simp [lit]
      · simp [lit]
    · rw [plainTarget_of_headless hhead,
        plainTarget_of_headless (fun hdotted => hhead (interface_prefix_dotted.mp hdotted))]
      intro heq
      have hlen := congrArg List.length heq
      simp [lit] at hlen

/-! ## Grants -/

/-- The permission authorizes the method on a spelling of the target. -/
def Grants (p target method : PyStr) : Prop :=
  method ≠ [] ∧ ∃ spelled, plainTarget spelled = target ∧ allowsCall [p] spelled method = true

/-- No call, every method of one target, or one method of one target. -/
def NamesOneResource (p : PyStr) : Prop :=
  (∀ target method, ¬ Grants p target method) ∨
    (∃ resource, ∀ target method, Grants p target method ↔ target = resource ∧ method ≠ []) ∨
      ∃ resource operation, ∀ target method,
        Grants p target method ↔ target = resource ∧ method = operation

/-- A call permission with a dot that may part a target from a method. -/
def Dotted (p : PyStr) : Prop :=
  ∃ target method, method ≠ [] ∧ p = lit "mipc.call:" ++ (target ++ lit "." ++ method)

theorem allowsCall_iff (hp : p ≠ lit "mipc.call:*") :
    allowsCall [p] target method = true ↔ p ∈ callPermissionCandidates target method := by
  unfold allowsCall
  rw [Bool.or_eq_true, List.any_eq_true]
  constructor
  · rintro (hall | ⟨permission, hmem, hequal⟩)
    · exact absurd (by simpa using hall : lit "mipc.call:*" = p).symm hp
    · rw [List.contains_iff_mem, List.mem_singleton] at hequal
      exact hequal ▸ hmem
  · intro hmem
    exact Or.inr ⟨p, hmem, by simp⟩

/-- A grant for a text is one for every method of that text as a target. -/
theorem grants_whole (hp : lit "mipc.call:" ++ resource ≠ lit "mipc.call:*")
    (hmethod : method ≠ []) :
    Grants (lit "mipc.call:" ++ resource) (plainTarget resource) method := by
  refine ⟨hmethod, resource, rfl, (allowsCall_iff hp).mpr ?_⟩
  exact mem_callPermissionCandidates.mpr ⟨resource, rfl, Or.inl (Or.inl rfl)⟩

/-- Without a dot the text can only be a target. -/
theorem grants_undotted (hp : lit "mipc.call:" ++ resource ≠ lit "mipc.call:*")
    (hdot : ¬ Dotted (lit "mipc.call:" ++ resource))
    (h : Grants (lit "mipc.call:" ++ resource) target method) : target = plainTarget resource := by
  obtain ⟨hmethod, spelled, rfl, hallowed⟩ := h
  obtain ⟨text, htext, hcase⟩ := mem_callPermissionCandidates.mp ((allowsCall_iff hp).mp hallowed)
  obtain rfl : resource = text := List.append_cancel_left htext
  rcases hcase with (rfl | ⟨-, hsplit⟩) | ⟨name, rfl, hname, rfl | ⟨-, hsplit⟩⟩
  · rfl
  · exact absurd ⟨spelled, method, hmethod, by rw [hsplit]⟩ hdot
  · exact plainTarget_interface hname
  · exact absurd ⟨name, method, hmethod, by rw [hsplit]⟩ hdot

theorem grants_split (hmethod : method ≠ [])
    (hp : lit "mipc.call:" ++ (target ++ lit "." ++ method) ≠ lit "mipc.call:*") :
    Grants (lit "mipc.call:" ++ (target ++ lit "." ++ method)) (plainTarget target) method := by
  refine ⟨hmethod, target, rfl, (allowsCall_iff hp).mpr ?_⟩
  exact mem_callPermissionCandidates.mpr ⟨_, rfl, Or.inl (Or.inr ⟨hmethod, rfl⟩)⟩

theorem not_grants_of_not_call (hp : ¬ lit "mipc.call:" <+: p) : ¬ Grants p target method := by
  rintro ⟨-, spelled, -, hallowed⟩
  have hall : p ≠ lit "mipc.call:*" := by
    rintro rfl
    exact hp (by decide)
  obtain ⟨text, rfl, -⟩ := mem_callPermissionCandidates.mp ((allowsCall_iff hall).mp hallowed)
  exact hp (List.prefix_append _ _)

theorem not_namesOneResource (hp : p ≠ lit "mipc.call:*") (hdot : Dotted p) :
    ¬ NamesOneResource p := by
  obtain ⟨target, method, hmethod, rfl⟩ := hdot
  have hsplit := grants_split hmethod hp
  have hwhole := grants_whole hp hmethod
  have hne := plainTarget_dotted_ne target method
  rintro (hnone | ⟨resource, hone⟩ | ⟨resource, operation, hone⟩)
  · exact hnone _ _ hsplit
  · apply hne
    rw [((hone _ _).mp hwhole).1, ((hone _ _).mp hsplit).1]
  · apply hne
    rw [((hone _ _).mp hwhole).1, ((hone _ _).mp hsplit).1]

/-- A permission grants calls to one target unless it can be read both as a target and as a target
with a method. -/
theorem namesOneResource_iff (hp : p ≠ lit "mipc.call:*") : NamesOneResource p ↔ ¬ Dotted p := by
  constructor
  · intro hone hdot
    exact not_namesOneResource hp hdot hone
  · intro hdot
    by_cases hcall : lit "mipc.call:" <+: p
    · obtain ⟨resource, rfl⟩ := hcall
      right
      left
      use plainTarget resource
      intro target method
      constructor
      · intro h
        exact ⟨grants_undotted hp hdot h, h.1⟩
      · rintro ⟨rfl, hmethod⟩
        exact grants_whole hp hmethod
    · left
      intro target method
      exact not_grants_of_not_call hcall

theorem display_namesOneResource : NamesOneResource (lit "mipc.call:role:display-output") := by
  apply (namesOneResource_iff (by decide)).mpr
  rintro ⟨target, method, -, heq⟩
  have hrest : lit "role:display-output" = target ++ lit "." ++ method :=
    (List.append_right_inj (lit "mipc.call:")).mp heq
  have hmem : 46 ∈ lit "role:display-output" := by
    rw [hrest]
    simp [lit]
  exact absurd hmem (by decide)

/-- A grant for one version of an interface is also one for the method `v1` of the interface
without a version. -/
theorem versioned_grant_names_two :
    ¬ NamesOneResource (lit "mipc.call:interface:org.msys.power.v1") :=
  not_namesOneResource (by decide) ⟨lit "interface:org.msys.power", lit "v1", by decide, rfl⟩

end MsysCore.Core
