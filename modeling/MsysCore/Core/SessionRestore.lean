import MsysCore.Core.Foreground

/-!
# The visual session across a change of display

A planned outage stops every consumer and starts it again when the provider is back. A
migration stops and starts its consumers one after the other, and its rollback does so once
more. Each of them ends with `_restore_foreground` of the stack that was saved before the
first stop; the set of hidden tasks is not saved.
-/

namespace MsysCore.Core.Foreground

open Python

/-- `_restore_foreground`; `ready` says whether a key has a ready instance. -/
def restoreForeground (f : Foreground) (ready : PyStr → Bool) (foreground : List PyStr) :
    Foreground :=
  let restored := foreground.filter ready
  { f with stack := restored ++ f.stack.filter (· ∉ restored) }

/-- What a loop over components does to one of them. -/
structure Restart where
  key : PyStr
  /-- `stop_component` removes an instance. -/
  stopped : Bool
  /-- `ensure_ready` spawns a generation. -/
  started : Bool
  deriving DecidableEq

section

variable (app : PyStr → Bool)

/-- A stop forgets the task, a start marks it when it is a foreground app. -/
def Restart.ops (r : Restart) : List Op :=
  (if r.stopped then [.forget r.key] else []) ++
    (if r.started && app r.key then [.mark r.key] else [])

def restartAll (f : Foreground) (restarts : List Restart) : Foreground :=
  (restarts.flatMap (Restart.ops app)).foldl apply f

/-- `_suspend_display_consumers`, the restart of the provider and
`_recover_display_consumers` of a planned outage. -/
def outageRestarts (provider : PyStr) (suspended recovered : List PyStr) : List Restart :=
  suspended.map (fun key => ⟨key, true, false⟩) ++ [⟨provider, true, true⟩] ++
    recovered.map (fun key => ⟨key, false, true⟩)

def recoverOutage (f : Foreground) (ready : PyStr → Bool) (provider : PyStr)
    (suspended recovered : List PyStr) : Foreground :=
  (f.restartAll app (outageRestarts provider suspended recovered)).restoreForeground ready f.stack

/-- The consumers of `_migrate_display_output`; `running` are those that have an instance. An
outage that the migration recovers has `suspended` the others. -/
def migrationRestarts (provider : Restart) (suspended : List PyStr) (running : PyStr → Bool)
    (consumers : List PyStr) : List Restart :=
  suspended.map (fun key => ⟨key, true, false⟩) ++ provider ::
    consumers.map fun key => ⟨key, running key, true⟩

/-- A migration that succeeds retires the old provider after the restore. -/
def migrate (f : Foreground) (ready : PyStr → Bool) (provider : Restart)
    (suspended retired : List PyStr) (running : PyStr → Bool) (consumers : List PyStr) :
    Foreground :=
  ((f.restartAll app (migrationRestarts provider suspended running consumers)).restoreForeground
    ready f.stack).restartAll app (retired.map fun key => ⟨key, true, false⟩)

/-- `_rollback_display_migration` after the restarts that were attempted: replacements are
stopped from the last to the first, the providers change back, and what is not the original
instance is started. -/
def rollbackRestarts (attempted : List Restart) (replaced kept stale : PyStr → Bool)
    (providers : List Restart) : List Restart :=
  let keys := attempted.map Restart.key
  attempted ++ (keys.reverse.filter replaced).map (fun key => ⟨key, true, false⟩) ++ providers ++
    (keys.filter fun key => !kept key).map fun key => ⟨key, stale key, true⟩

def rollback (f : Foreground) (ready : PyStr → Bool) (attempted : List Restart)
    (replaced kept stale : PyStr → Bool) (providers : List Restart) : Foreground :=
  (f.restartAll app (rollbackRestarts attempted replaced kept stale providers)).restoreForeground
    ready f.stack

end

/-- The consumers have their order of before, and the same of them are hidden. -/
structure SessionPreserved (before after : Foreground) (consumers : List PyStr) : Prop where
  order : after.stack.filter (fun key => key ∈ consumers ∧ key ∈ before.stack) =
    before.stack.filter (· ∈ consumers)
  hidden : ∀ key ∈ consumers, key ∈ after.backgrounded ↔ key ∈ before.backgrounded

variable {app : PyStr → Bool} {f g : Foreground} {key : PyStr}

@[simp] theorem restore_backgrounded (f : Foreground) (ready : PyStr → Bool)
    (foreground : List PyStr) :
    (f.restoreForeground ready foreground).backgrounded = f.backgrounded := rfl

/-- The saved stack comes first, so the consumers that are ready keep its order. -/
theorem restore_order {ready : PyStr → Bool} {foreground consumers : List PyStr}
    (hready : ∀ key ∈ consumers, ready key = true) :
    (f.restoreForeground ready foreground).stack.filter
      (fun key => key ∈ consumers ∧ key ∈ foreground) = foreground.filter (· ∈ consumers) := by
  have hsaved : (foreground.filter ready).filter
      (fun key => key ∈ consumers ∧ key ∈ foreground) = foreground.filter (· ∈ consumers) := by
    rw [List.filter_filter]
    apply List.filter_congr
    intro key hkey
    by_cases hmem : key ∈ consumers <;> simp [hmem, hkey, hready]
  have hrest : (f.stack.filter (· ∉ foreground.filter ready)).filter
      (fun key => key ∈ consumers ∧ key ∈ foreground) = [] := by
    rw [List.filter_filter, List.filter_eq_nil_iff]
    intro key _
    simp only [Bool.and_eq_true, decide_eq_true_eq, List.mem_filter, not_and]
    rintro ⟨hmem, hkey⟩ habsent
    exact habsent hkey (hready key hmem)
  simp only [restoreForeground, List.filter_append, hsaved, hrest, List.append_nil]

theorem restartAll_append (f : Foreground) (rs rs' : List Restart) :
    f.restartAll app (rs ++ rs') = (f.restartAll app rs).restartAll app rs' := by
  simp [restartAll, List.flatMap_append, List.foldl_append]

theorem restartAll_cons (f : Foreground) (r : Restart) (rs : List Restart) :
    f.restartAll app (r :: rs) = (f.restartAll app [r]).restartAll app rs :=
  restartAll_append f [r] rs

/-- One restart: the task is forgotten when it is stopped and marked when it is shown again. -/
theorem restartAll_one (f : Foreground) (r : Restart) : f.restartAll app [r] =
    let stopped := if r.stopped then f.forgetForeground r.key else f
    if r.started && app r.key then stopped.markForeground r.key else stopped := by
  simp only [restartAll, Restart.ops, List.flatMap_cons, List.flatMap_nil, List.append_nil]
  cases r.stopped <;> cases r.started && app r.key <;> simp [apply]

theorem WellFormed.restartAll (hf : f.WellFormed) (rs : List Restart) :
    (f.restartAll app rs).WellFormed := by
  suffices h : ∀ (ops : List Op) (f : Foreground), f.WellFormed →
      (ops.foldl Foreground.apply f).WellFormed
    from h _ f hf
  intro ops
  induction ops with
  | nil => exact fun _ hf => hf
  | cons op ops ih => exact fun f hf => ih _ (hf.apply op)

theorem forget_backgrounded_subset (hkey : key ∉ f.backgrounded) :
    (f.forgetForeground key).backgrounded ⊆ f.backgrounded := by
  intro other hother
  rcases mem_forget_backgrounded.mp hother with ⟨-, hflagged⟩ | ⟨hhidden, -⟩
  · exact hflagged
  · exact absurd hhidden hkey

/-- When no task that is stopped is hidden, no restart hides a task. -/
theorem restartAll_backgrounded_subset (rs : List Restart) : ∀ f : Foreground,
    (∀ r ∈ rs, r.stopped = true → r.key ∉ f.backgrounded) →
    (f.restartAll app rs).backgrounded ⊆ f.backgrounded := by
  induction rs with
  | nil => exact fun f _ => Finset.Subset.refl _
  | cons r rs ih =>
    intro f hstopped
    have hstop : (if r.stopped then f.forgetForeground r.key else f).backgrounded ⊆
        f.backgrounded := by
      split_ifs with hr
      · exact forget_backgrounded_subset (hstopped r List.mem_cons_self hr)
      · exact Finset.Subset.refl _
    have hone : (f.restartAll app [r]).backgrounded ⊆ f.backgrounded := by
      rw [restartAll_one]
      dsimp only
      split
      · exact (Finset.erase_subset _ _).trans hstop
      · exact hstop
    rw [restartAll_cons]
    refine (ih _ fun r' hr' hstop' hmem => ?_).trans hone
    exact hstopped r' (List.mem_cons_of_mem _ hr') hstop' (hone hmem)

/-- A task that is stopped and not started again leaves the stack. -/
theorem notMem_restartAll_stops (keys : List PyStr) : ∀ f : Foreground,
    (key ∈ keys ∨ key ∉ f.stack) →
    key ∉ (f.restartAll app (keys.map fun key => ⟨key, true, false⟩)).stack := by
  induction keys with
  | nil => exact fun f h => h.resolve_left List.not_mem_nil
  | cons k keys ih =>
    intro f h
    rw [List.map_cons, restartAll_cons, restartAll_one]
    apply ih
    by_cases hk : key = k
    · exact .inr (by simp [hk])
    · refine h.imp (fun hmem => ?_) (fun hmem => by simp [hmem])
      exact (List.mem_cons.mp hmem).resolve_left hk

/-- Every consumer of a planned outage comes back visible. -/
theorem recoverOutage_visible (hf : f.WellFormed) {ready : PyStr → Bool} {provider : PyStr}
    {suspended recovered : List PyStr} (hsuspended : key ∈ suspended) (hprovider : key ≠ provider) :
    key ∉ (f.recoverOutage app ready provider suspended recovered).backgrounded := by
  rw [recoverOutage, restore_backgrounded, outageRestarts, restartAll_append, restartAll_append]
  generalize hsession : f.restartAll app (suspended.map fun key => ⟨key, true, false⟩) = session
  have hstopped : key ∉ session.stack := by
    rw [← hsession]
    exact notMem_restartAll_stops suspended f (.inl hsuspended)
  have hwf : session.WellFormed := hsession ▸ hf.restartAll _
  have hback : key ∉ (session.restartAll app [⟨provider, true, true⟩]).stack := by
    rw [restartAll_one]
    dsimp only
    split_ifs <;> simp [hstopped, hprovider]
  intro hmem
  have hsubset := @restartAll_backgrounded_subset app
    (recovered.map fun key => ⟨key, false, true⟩)
    (session.restartAll app [⟨provider, true, true⟩]) (by simp)
  exact hback ((hwf.restartAll _).flagged key (hsubset hmem))

theorem filter_restartAll_stops {p : PyStr → Bool} (keys : List PyStr) : ∀ f : Foreground,
    (∀ key ∈ keys, p key = false) →
    (f.restartAll app (keys.map fun key => ⟨key, true, false⟩)).stack.filter p =
      f.stack.filter p := by
  induction keys with
  | nil => exact fun f _ => rfl
  | cons k keys ih =>
    intro f hkeys
    rw [List.map_cons, restartAll_cons, ih _ fun key hkey => hkeys key (List.mem_cons_of_mem _ hkey),
      restartAll_one]
    simp only [if_true, Bool.false_and, Bool.false_eq_true, if_false, forget_stack,
      List.filter_filter]
    apply List.filter_congr
    intro key _
    by_cases hk : key = k
    · simp [hk, hkeys k List.mem_cons_self]
    · simp [hk]

theorem sessionPreserved_of_subset {ready : PyStr → Bool} {consumers : List PyStr}
    (hready : ∀ key ∈ consumers, ready key = true) (hsubset : g.backgrounded ⊆ f.backgrounded)
    (hvisible : ∀ key ∈ consumers, key ∉ f.backgrounded) :
    SessionPreserved f (g.restoreForeground ready f.stack) consumers where
  order := restore_order hready
  hidden := fun key hkey => iff_of_false (fun h => hvisible key hkey (hsubset h)) (hvisible key hkey)

theorem rollbackRestarts_key {attempted providers : List Restart} {replaced kept stale : PyStr → Bool}
    {r : Restart} (hr : r ∈ rollbackRestarts attempted replaced kept stale providers) :
    r.key ∈ (attempted ++ providers).map Restart.key := by
  simp only [rollbackRestarts, List.mem_append, List.mem_map, List.mem_filter,
    List.mem_reverse] at hr
  simp only [List.map_append, List.mem_append, List.mem_map]
  rcases hr with ((hr | ⟨key, ⟨hkey, -⟩, rfl⟩) | hr) | ⟨key, ⟨hkey, -⟩, rfl⟩
  · exact .inl ⟨r, hr, rfl⟩
  · exact .inl hkey
  · exact .inr ⟨r, hr, rfl⟩
  · exact .inl hkey

/-- A planned outage preserves the session exactly when none of its consumers was hidden. The
same is enough for a migration and for its rollback, where the providers that are stopped must
not be hidden either. -/
theorem session_preserved (hf : f.WellFormed) {ready : PyStr → Bool} {consumers : List PyStr}
    (hready : ∀ key ∈ consumers, ready key = true) :
    (∀ app provider suspended, consumers ⊆ suspended → provider ∉ consumers →
      (SessionPreserved f (f.recoverOutage app ready provider suspended consumers) consumers ↔
        ∀ key ∈ consumers, key ∉ f.backgrounded)) ∧
    (∀ app provider suspended retired running, (∀ key ∈ retired, key ∉ consumers) →
      (∀ key ∈ consumers ++ suspended ++ provider.key :: retired, key ∉ f.backgrounded) →
      SessionPreserved f (f.migrate app ready provider suspended retired running consumers)
        consumers) ∧
    (∀ app attempted replaced kept stale providers,
      (∀ key ∈ consumers ++ (attempted ++ providers).map Restart.key, key ∉ f.backgrounded) →
      SessionPreserved f (f.rollback app ready attempted replaced kept stale providers)
        consumers) := by
  refine ⟨fun app provider suspended hsuspended hprovider => ?_,
    fun app provider suspended retired running hretired hvisible => ?_,
    fun app attempted replaced kept stale providers hvisible => ?_⟩
  · have hback : ∀ key ∈ consumers,
        key ∉ (f.recoverOutage app ready provider suspended consumers).backgrounded := by
      intro key hkey
      apply recoverOutage_visible hf (hsuspended hkey)
      rintro rfl
      exact hprovider hkey
    constructor
    · intro hpreserved key hkey hflagged
      exact hback key hkey ((hpreserved.hidden key hkey).mpr hflagged)
    · intro hvisible
      refine ⟨restore_order hready, fun key hkey => ?_⟩
      exact iff_of_false (hback key hkey) (hvisible key hkey)
  · simp only [List.mem_append, List.mem_cons] at hvisible
    have hrestarts := @restartAll_backgrounded_subset app
      (migrationRestarts provider suspended running consumers) f (by
        intro r hr _
        simp only [migrationRestarts, List.mem_append, List.mem_cons, List.mem_map] at hr
        rcases hr with ⟨key, hkey, rfl⟩ | rfl | ⟨key, hkey, rfl⟩
        · exact hvisible key (.inl (.inr hkey))
        · exact hvisible _ (.inr (.inl rfl))
        · exact hvisible key (.inl (.inl hkey)))
    have hpreserved := sessionPreserved_of_subset hready hrestarts
      fun key hkey => hvisible key (.inl (.inl hkey))
    have hstops := @restartAll_backgrounded_subset app
      (retired.map fun key => ⟨key, true, false⟩)
      ((f.restartAll app (migrationRestarts provider suspended running consumers)).restoreForeground
        ready f.stack) (by
        intro r hr _ hmem
        obtain ⟨key, hkey, rfl⟩ := List.mem_map.mp hr
        exact hvisible key (.inr (.inr hkey)) (hrestarts hmem))
    constructor
    · rw [migrate, filter_restartAll_stops retired _ fun key hkey => by simp [hretired key hkey]]
      exact hpreserved.order
    · intro key hkey
      have hflag := hvisible key (.inl (.inl hkey))
      exact iff_of_false (fun hmem => hflag (hrestarts (hstops hmem))) hflag
  · simp only [List.mem_append] at hvisible
    apply sessionPreserved_of_subset hready _ fun key hkey => hvisible key (.inl hkey)
    apply restartAll_backgrounded_subset
    intro r hr _
    exact hvisible r.key (.inr (rollbackRestarts_key hr))

theorem session_preserved_one :
    SessionPreserved (empty.markForeground (lit "a"))
      ((empty.markForeground (lit "a")).recoverOutage (fun _ => true) (fun _ => true)
        (lit "display") [lit "a"] [lit "a"]) [lit "a"] := by
  have hf : (empty.markForeground (lit "a")).WellFormed := wellFormed_empty.mark _
  exact ((session_preserved hf (fun _ _ => rfl)).1 (fun _ => true) (lit "display") [lit "a"]
    (by simp) (by decide)).mpr (by decide)

/-- The only task, sent to the background with Home. -/
def hiddenTask : Foreground := empty.apply (.mark (lit "a")) |>.apply (.background (lit "a"))

/-- A restart of the display shows the hidden task, in an outage and in a migration. -/
theorem hiddenTask_shown : hiddenTask.WellFormed ∧
    ¬ SessionPreserved hiddenTask
      (hiddenTask.recoverOutage (· = lit "a") (fun _ => true) (lit "display") [lit "a"] [lit "a"])
      [lit "a"] ∧
    ¬ SessionPreserved hiddenTask
      (hiddenTask.migrate (· = lit "a") (fun _ => true) ⟨lit "other", false, true⟩ []
        [lit "display"] (fun _ => true) [lit "a"]) [lit "a"] := by
  refine ⟨(wellFormed_empty.apply _).apply _, fun h => ?_, fun h => ?_⟩
  · have hflag := (h.hidden (lit "a") (by decide)).mpr (by decide)
    revert hflag
    decide
  · have hflag := (h.hidden (lit "a") (by decide)).mpr (by decide)
    revert hflag
    decide

end MsysCore.Core.Foreground
