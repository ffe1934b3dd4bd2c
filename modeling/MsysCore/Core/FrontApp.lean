import MsysCore.Core.Transitions

/-!
# Which application is in front

`_foreground_entries`, `_memory_reclaim_candidate` and `_announce_foreground_closing` walk the
foreground stack and skip different entries of it. The application that the user sees is the
one that `_foreground_entries` does not list as background. Readings of the clock are exact.
-/

namespace MsysCore.Core.FrontApp

open Python
open Display (Manifest)
open Transitions (isForegroundApp)

/-- The values of `Instance.state`. -/
inductive InstanceState
  | declared | handshaking | ready | displayWait | backoff | exited | failed | quarantined
  | channelFailed
  deriving DecidableEq

def InstanceState.name : InstanceState → String
  | .declared => "declared"
  | .handshaking => "handshaking"
  | .ready => "ready"
  | .displayWait => "display-wait"
  | .backoff => "backoff"
  | .exited => "exited"
  | .failed => "failed"
  | .quarantined => "quarantined"
  | .channelFailed => "channel-failed"

theorem name_ne_background (state : InstanceState) : lit state.name ≠ lit "background" := by
  cases state <;> decide

structure Process where
  pid : ℕ
  /-- `poll() is None` -/
  live : Bool
  deriving DecidableEq

/-- An entry of `instances`. -/
structure Task where
  manifest : Manifest
  /-- `component.raw.get("name")` -/
  name : Json
  /-- `component.windowing.get("identity", {})` -/
  identity : Json
  process : Option Process
  state : InstanceState
  startedAt : ℚ
  finalized : Bool
  transitionClosing : Bool

/-- What the three functions read. A key is in the stack once (`Foreground.WellFormed`). -/
structure View where
  foreground : Foreground
  nodup : foreground.stack.Nodup
  instances : PyStr → Option Task
  minAppAgeMs : ℕ

/-- An element of the list that `_foreground_entries` returns. -/
structure Entry where
  component : PyStr
  title : Json
  identity : PyStr
  state : PyStr
  lifecycle : PyStr
  resources : Option Json

/-- `a or b` -/
def orElse (a b : Json) : Json := if a.truthy then a else b

def windowIdentity (py : Interpreter) : Json → PyStr
  | .dict identity =>
    toStr py (orElse (Dict.get identity "x11_wm_class" .null)
      (orElse (Dict.get identity "app_id" .null) (text "")))
  | _ => []

def entry (py : Interpreter) (resources : Option (ℕ → Json)) (key : PyStr) (task : Task)
    (process : Process) (background : Bool) : Entry where
  component := key
  title := orElse task.name (.str key)
  identity := windowIdentity py task.identity
  state := if background then lit "background" else lit task.state.name
  lifecycle := task.manifest.lifecycle
  resources := resources.map fun snapshot => snapshot process.pid

namespace View

/-- The instance of the key, if its process has not exited. -/
def liveTask (v : View) (key : PyStr) : Option (Task × Process) :=
  match v.instances key with
  | none => none
  | some task =>
    match task.process with
    | none => none
    | some process => if process.live then some (task, process) else none

def live (v : View) (key : PyStr) : Bool := (v.liveTask key).isSome

/-- The loop of `_foreground_entries` after `visible` entries were listed. -/
def entriesFrom (v : View) (py : Interpreter) (resources : Option (ℕ → Json)) :
    ℕ → List PyStr → List Entry
  | _, [] => []
  | visible, key :: rest =>
    match v.liveTask key with
    | none => entriesFrom v py resources visible rest
    | some (task, process) =>
      entry py resources key task process (0 < visible || key ∈ v.foreground.backgrounded) ::
        entriesFrom v py resources (visible + 1) rest

/-- `_foreground_entries`; `resources` samples the memory of a process group where they are
included. -/
def foregroundEntries (v : View) (py : Interpreter) (resources : Option (ℕ → Json)) :
    List Entry :=
  v.entriesFrom py resources 0 v.foreground.stack

/-- An ordinary application that has run for the minimum age. -/
def reclaimable (v : View) (now : ℚ) (key : PyStr) : Bool :=
  match v.instances key with
  | none => false
  | some task =>
    !task.finalized && v.live key && isForegroundApp task.manifest &&
      !decide (now - task.startedAt < (v.minAppAgeMs : ℚ) / 1000)

/-- The key that `_memory_reclaim_candidate` takes for the front one. -/
def front (v : View) : Option PyStr :=
  v.foreground.stack.head?.filter fun key => key ∉ v.foreground.backgrounded

/-- `_memory_reclaim_candidate`, as the key of the instance. -/
def memoryReclaimCandidate (v : View) (now : ℚ) : Option PyStr :=
  v.foreground.stack.reverse.find? fun key => v.front ≠ some key && v.reclaimable now key

def closable (v : View) (key : PyStr) : Bool :=
  match v.instances key with
  | none => false
  | some task =>
    key ∉ v.foreground.backgrounded && isForegroundApp task.manifest &&
      !task.transitionClosing && v.live key

def markClosing (v : View) (key : PyStr) : View :=
  let marked := (v.instances key).map fun task => { task with transitionClosing := true }
  { v with instances := Function.update v.instances key marked }

/-- `_announce_foreground_closing`, with the key of the instance that it returns. -/
def announceForegroundClosing (v : View) : View × Option PyStr :=
  match v.foreground.stack.find? v.closable with
  | none => (v, none)
  | some key => (v.markClosing key, some key)

/-! ## One notion of the front application -/

/-- The component that `_foreground_entries` lists first with another state than background. -/
def shown (v : View) (py : Interpreter) : Option PyStr :=
  ((v.foregroundEntries py none).find? fun entry => entry.state ≠ lit "background").map
    Entry.component

structure OneFront (v : View) (py : Interpreter) (now : ℚ) : Prop where
  notShown : ∀ key, v.memoryReclaimCandidate now = some key → v.shown py ≠ some key
  oldest : ∀ key, v.memoryReclaimCandidate now = some key →
    v.reclaimable now key = true ∧ ∃ above below, v.foreground.stack = above ++ key :: below ∧
      ∀ other ∈ below, v.reclaimable now other = false
  closing : ∀ key, v.announceForegroundClosing.1.instances key ≠ v.instances key →
    v.shown py = some key

/-- The first entry of the stack with a live process. -/
def firstLive (v : View) : Option PyStr := v.foreground.stack.find? v.live

/-- Where the first live entry is not the top of the stack, it is hidden or there is something
else to reclaim; where it cannot be announced, nothing can. -/
structure Aligned (v : View) (now : ℚ) : Prop where
  reclaim : ∀ key, v.firstLive = some key → v.foreground.stack.head? ≠ some key →
    key ∉ v.foreground.backgrounded → v.reclaimable now key = true →
      ∃ other ∈ v.foreground.stack, other ≠ key ∧ v.reclaimable now other = true
  closing : ∀ key, v.firstLive = some key → v.closable key = false →
    ∀ other ∈ v.foreground.stack, v.closable other = false

variable {v : View} {py : Interpreter} {now : ℚ} {key other : PyStr}

theorem live_of_reclaimable (h : v.reclaimable now key = true) : v.live key = true := by
  unfold reclaimable at h
  cases htask : v.instances key with
  | none => simp [htask] at h
  | some task =>
    simp only [htask, Bool.and_eq_true] at h
    exact h.1.1.2

theorem live_of_closable (h : v.closable key = true) : v.live key = true := by
  unfold closable at h
  cases htask : v.instances key with
  | none => simp [htask] at h
  | some task =>
    simp only [htask, Bool.and_eq_true] at h
    exact h.2

theorem not_backgrounded_of_closable (h : v.closable key = true) :
    key ∉ v.foreground.backgrounded := by
  unfold closable at h
  cases htask : v.instances key with
  | none => simp [htask] at h
  | some task =>
    simp only [htask, Bool.and_eq_true, decide_eq_true_eq] at h
    exact h.1.1.1

theorem firstLive_eq_some : v.firstLive = some key ↔ v.live key = true ∧
    ∃ above below, v.foreground.stack = above ++ key :: below ∧
      ∀ other ∈ above, v.live other = false := by
  rw [firstLive, List.find?_eq_some_iff_append]
  simp

/-! ### The entry that is shown -/

theorem entriesFrom_pos (stack : List PyStr) : ∀ visible, 0 < visible →
    ∀ entry ∈ v.entriesFrom py none visible stack, entry.state = lit "background" := by
  induction stack with
  | nil =>
    intro visible _ entry hentry
    cases hentry
  | cons key rest ih =>
    intro visible hvisible listed hlisted
    unfold entriesFrom at hlisted
    cases hlive : v.liveTask key with
    | none =>
      rw [hlive] at hlisted
      exact ih visible hvisible listed hlisted
    | some task =>
      rw [hlive] at hlisted
      rcases List.mem_cons.mp hlisted with rfl | hrest
      · simp [entry, hvisible]
      · exact ih (visible + 1) (by omega) listed hrest

/-- Only the first listed entry can have another state than background. -/
theorem find_entriesFrom (stack : List PyStr) :
    ((v.entriesFrom py none 0 stack).find? fun entry => entry.state ≠ lit "background").map
      Entry.component =
        (stack.find? v.live).filter fun key => key ∉ v.foreground.backgrounded := by
  induction stack with
  | nil => rfl
  | cons key rest ih =>
    unfold entriesFrom
    cases hlive : v.liveTask key with
    | none =>
      rw [List.find?_cons_of_neg (by simp [live, hlive])]
      exact ih
    | some task =>
      have hrest : (v.entriesFrom py none 1 rest).find?
          (fun entry => entry.state ≠ lit "background") = none := by
        rw [List.find?_eq_none]
        intro listed hlisted
        simp [entriesFrom_pos rest 1 Nat.one_pos listed hlisted]
      have hfirst : (key :: rest).find? v.live = some key :=
        List.find?_cons_of_pos (by simp [live, hlive])
      rw [hfirst]
      by_cases hflag : key ∈ v.foreground.backgrounded
      · rw [List.find?_cons_of_neg (by simp [entry, hflag]), hrest]
        simp [Option.filter, hflag]
      · rw [List.find?_cons_of_pos (by simp [entry, hflag, name_ne_background])]
        simp [entry, Option.filter, hflag]

theorem shown_eq_some : v.shown py = some key ↔
    v.firstLive = some key ∧ key ∉ v.foreground.backgrounded := by
  have hshown : v.shown py =
      v.firstLive.filter fun key => key ∉ v.foreground.backgrounded :=
    find_entriesFrom v.foreground.stack
  rw [hshown, Option.filter_eq_some_iff]
  simp

theorem front_eq_some : v.front = some key ↔
    v.foreground.stack.head? = some key ∧ key ∉ v.foreground.backgrounded := by
  rw [front, Option.filter_eq_some_iff]
  simp

/-! ### The candidate -/

/-- The last entry of the stack that may be reclaimed, the front one left out. -/
theorem memoryReclaimCandidate_eq_some : v.memoryReclaimCandidate now = some key ↔
    (v.front ≠ some key ∧ v.reclaimable now key = true) ∧
      ∃ above below, v.foreground.stack = above ++ key :: below ∧
        ∀ other ∈ below, v.front = some other ∨ v.reclaimable now other = false := by
  have hsplit : ∀ above below : List PyStr,
      v.foreground.stack.reverse = above ++ key :: below ↔
        v.foreground.stack = below.reverse ++ key :: above.reverse := by
    intro above below
    rw [List.reverse_eq_iff]
    simp
  rw [memoryReclaimCandidate, List.find?_eq_some_iff_append]
  simp only [Bool.and_eq_true, decide_eq_true_eq]
  refine and_congr_right fun _ => ?_
  constructor
  · rintro ⟨above, below, hstack, habove⟩
    refine ⟨below.reverse, above.reverse, (hsplit above below).mp hstack, fun other hother => ?_⟩
    have hskipped := habove other (List.mem_reverse.mp hother)
    grind
  · rintro ⟨above, below, hstack, hbelow⟩
    refine ⟨below.reverse, above.reverse, (hsplit _ _).mpr (by simpa using hstack), ?_⟩
    intro other hother
    have hskipped := hbelow other (List.mem_reverse.mp hother)
    grind

/-- An entry occurs once, so what is above it and below it is determined. -/
theorem split_unique {stack above below above' below' : List PyStr} (hnodup : stack.Nodup)
    (h : stack = above ++ key :: below) (h' : stack = above' ++ key :: below') :
    above = above' ∧ below = below' := by
  have hmid : ∀ {xs ys : List PyStr}, stack = xs ++ key :: ys → key ∉ xs ∧ key ∉ ys := by
    rintro xs ys rfl
    rw [List.nodup_middle, List.nodup_cons, List.mem_append, not_or] at hnodup
    exact hnodup.1
  have hboth := (List.append_cons_inj_of_notMem (hmid h).1 (hmid h).2).mp (h.symm.trans h')
  exact ⟨hboth.1, hboth.2.2⟩

/-- The front entry is the top one, so nothing below another entry is spared. -/
theorem oldest_of_candidate (h : v.memoryReclaimCandidate now = some key) :
    v.reclaimable now key = true ∧ ∃ above below, v.foreground.stack = above ++ key :: below ∧
      ∀ other ∈ below, v.reclaimable now other = false := by
  obtain ⟨⟨-, hkey⟩, above, below, hstack, hbelow⟩ := memoryReclaimCandidate_eq_some.mp h
  refine ⟨hkey, above, below, hstack, fun other hother => ?_⟩
  apply (hbelow other hother).resolve_left
  intro hfront
  have htop := (front_eq_some.mp hfront).1
  have hnodup := v.nodup
  rw [hstack] at htop hnodup
  cases above with
  | nil =>
    rw [List.nil_append, List.head?_cons, Option.some.injEq] at htop
    rw [List.nil_append, List.nodup_cons] at hnodup
    exact hnodup.1 (htop ▸ hother)
  | cons top above =>
    rw [List.cons_append, List.head?_cons, Option.some.injEq] at htop
    rw [List.cons_append, List.nodup_cons] at hnodup
    exact hnodup.1 (htop ▸ by simp [hother])

/-- The candidate is the entry that is shown where that one is the only entry to reclaim and not
the top of the stack. -/
theorem candidate_shown_iff (hfirst : v.firstLive = some key)
    (hflag : key ∉ v.foreground.backgrounded) :
    v.memoryReclaimCandidate now = some key ↔
      v.foreground.stack.head? ≠ some key ∧ v.reclaimable now key = true ∧
        ∀ other ∈ v.foreground.stack, other ≠ key → v.reclaimable now other = false := by
  obtain ⟨hlive, above, below, hstack, habove⟩ := firstLive_eq_some.mp hfirst
  constructor
  · intro h
    obtain ⟨⟨hfront, hkey⟩, -⟩ := memoryReclaimCandidate_eq_some.mp h
    obtain ⟨-, above', below', hstack', hbelow⟩ := oldest_of_candidate h
    obtain ⟨rfl, rfl⟩ := split_unique v.nodup hstack hstack'
    refine ⟨fun htop => hfront (front_eq_some.mpr ⟨htop, hflag⟩), hkey, ?_⟩
    intro other hother hne
    rw [hstack, List.mem_append, List.mem_cons] at hother
    rcases hother with hother | rfl | hother
    · by_contra hyes
      have := live_of_reclaimable (Bool.eq_true_of_not_eq_false hyes)
      rw [habove other hother] at this
      cases this
    · exact absurd rfl hne
    · exact hbelow other hother
  · rintro ⟨htop, hkey, honly⟩
    have hfront : v.front ≠ some key := fun hfront => htop (front_eq_some.mp hfront).1
    refine memoryReclaimCandidate_eq_some.mpr ⟨⟨hfront, hkey⟩, above, below, hstack, ?_⟩
    intro other hother
    right
    apply honly other (by simp [hstack, hother])
    rintro rfl
    have hnodup := v.nodup
    rw [hstack, List.nodup_middle, List.nodup_cons] at hnodup
    exact hnodup.1 (by simp [hother])

theorem notShown_iff :
    (∀ key, v.memoryReclaimCandidate now = some key → v.shown py ≠ some key) ↔
      ∀ key, v.firstLive = some key → v.foreground.stack.head? ≠ some key →
        key ∉ v.foreground.backgrounded → v.reclaimable now key = true →
          ∃ other ∈ v.foreground.stack, other ≠ key ∧ v.reclaimable now other = true := by
  constructor
  · intro h key hfirst htop hflag hkey
    by_contra hnone
    apply h key ((candidate_shown_iff hfirst hflag).mpr ⟨htop, hkey, ?_⟩)
      (shown_eq_some.mpr ⟨hfirst, hflag⟩)
    intro other hother hne
    apply Bool.eq_false_of_not_eq_true
    intro hyes
    exact hnone ⟨other, hother, hne, hyes⟩
  · intro h key hcandidate hshown
    obtain ⟨hfirst, hflag⟩ := shown_eq_some.mp hshown
    obtain ⟨htop, hkey, honly⟩ := (candidate_shown_iff hfirst hflag).mp hcandidate
    obtain ⟨other, hother, hne, hyes⟩ := h key hfirst htop hflag hkey
    rw [honly other hother hne] at hyes
    cases hyes

/-! ### The announcement -/

theorem announced_ne (h : v.announceForegroundClosing.1.instances key ≠ v.instances key) :
    v.foreground.stack.find? v.closable = some key := by
  unfold announceForegroundClosing at h
  cases hfound : v.foreground.stack.find? v.closable with
  | none =>
    rw [hfound] at h
    exact absurd rfl h
  | some marked =>
    rw [hfound] at h
    by_contra hne
    apply h
    have hother : key ≠ marked := fun heq => hne (by rw [heq])
    simp [markClosing, hother]

theorem announced_changes (h : v.foreground.stack.find? v.closable = some key) :
    v.announceForegroundClosing.1.instances key ≠ v.instances key := by
  have hclosable := List.find?_some h
  unfold closable at hclosable
  rw [announceForegroundClosing, h]
  cases htask : v.instances key with
  | none => simp [htask] at hclosable
  | some task =>
    simp only [htask, Bool.and_eq_true, Bool.not_eq_true'] at hclosable
    intro heq
    simp only [markClosing, Function.update_self, htask, Option.map_some, Option.some.injEq] at heq
    have hmarked : task.transitionClosing = true := by rw [← heq]
    rw [hmarked] at hclosable
    simp at hclosable

/-- What is announced is the first live entry, if that one can be announced. -/
theorem find_closable (hfirst : v.firstLive = some key) (hclosable : v.closable key = true) :
    v.foreground.stack.find? v.closable = some key := by
  obtain ⟨-, above, below, hstack, habove⟩ := firstLive_eq_some.mp hfirst
  refine List.find?_eq_some_iff_append.mpr ⟨hclosable, above, below, hstack, fun other hother => ?_⟩
  cases hother' : v.closable other with
  | false => rfl
  | true =>
    have hlive := live_of_closable hother'
    rw [habove other hother] at hlive
    cases hlive

theorem closing_iff :
    (∀ key, v.announceForegroundClosing.1.instances key ≠ v.instances key →
      v.shown py = some key) ↔
      ∀ key, v.firstLive = some key → v.closable key = false →
        ∀ other ∈ v.foreground.stack, v.closable other = false := by
  constructor
  · intro h key hfirst hnot other hother
    by_contra hyes
    have hsome : (v.foreground.stack.find? v.closable).isSome :=
      List.find?_isSome.mpr ⟨other, hother, Bool.eq_true_of_not_eq_false hyes⟩
    obtain ⟨marked, hmarked⟩ := Option.isSome_iff_exists.mp hsome
    have hshown := (shown_eq_some.mp (h marked (announced_changes hmarked))).1
    rw [hfirst, Option.some.injEq] at hshown
    rw [hshown, List.find?_some hmarked] at hnot
    cases hnot
  · intro h key hchanged
    have hmarked := announced_ne hchanged
    have hkey := List.find?_some hmarked
    have hsome : v.firstLive.isSome :=
      List.find?_isSome.mpr ⟨key, List.mem_of_find?_eq_some hmarked, live_of_closable hkey⟩
    obtain ⟨first, hfirst⟩ := Option.isSome_iff_exists.mp hsome
    cases hclosable : v.closable first with
    | false =>
      rw [h first hfirst hclosable key (List.mem_of_find?_eq_some hmarked)] at hkey
      cases hkey
    | true =>
      rw [find_closable hfirst hclosable, Option.some.injEq] at hmarked
      rw [← hmarked]
      exact shown_eq_some.mpr ⟨hfirst, not_backgrounded_of_closable hclosable⟩

/-- The three functions agree on the front application exactly when the first live entry is
aligned with the top of the stack and with what can be announced. -/
theorem oneFront_iff : v.OneFront py now ↔ v.Aligned now := by
  constructor
  · intro h
    exact ⟨notShown_iff.mp h.notShown, closing_iff.mp h.closing⟩
  · intro h
    exact ⟨notShown_iff.mpr h.reclaim, fun key hkey => oldest_of_candidate hkey,
      closing_iff.mpr h.closing⟩

/-- A window of an application that was started at the time. -/
def window (name : String) (live : Bool) (startedAt : ℚ) : Task where
  manifest := ⟨lit "x11", lit "inherit", lit "window", lit "manual", []⟩
  name := text name
  identity := .dict []
  process := some ⟨100, live⟩
  state := .ready
  startedAt := startedAt
  finalized := false
  transitionClosing := false

/-- Two applications, the first one on top. -/
def twoWindows (frontLive : Bool) : View where
  foreground := ⟨[lit "front", lit "old"], ∅⟩
  nodup := by decide
  instances key :=
    if key = lit "front" then some (window "front" frontLive 0)
    else if key = lit "old" then some (window "old" true 0)
    else none
  minAppAgeMs := 15000

theorem twoWindows_oneFront : (twoWindows true).OneFront bareInterpreter 100 := by
  apply oneFront_iff.mpr
  have hfirst : (twoWindows true).firstLive = some (lit "front") := by decide
  constructor
  · intro key hkey htop
    rw [hfirst] at hkey
    exact absurd hkey htop
  · intro key hkey hnot
    rw [hfirst, Option.some.injEq] at hkey
    rw [← hkey] at hnot
    revert hnot
    decide

/-- The front application has exited and is not finalized yet: the next one is shown, and it is the
one that is reclaimed. -/
theorem exitedFront_not_oneFront : ¬ (twoWindows false).OneFront bareInterpreter 100 := by
  intro h
  have hshown : (twoWindows false).shown bareInterpreter = some (lit "old") := by decide
  exact h.notShown (lit "old") (by decide +kernel) hshown

end View

end MsysCore.Core.FrontApp
