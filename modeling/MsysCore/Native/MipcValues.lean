import MsysCore.Lib.FieldReading
import MsysCore.Native.MipcTokens

/-!
# The values that the decoder skips

The field loops of the decoder are one loop with different entries. What the loop and
`skip_value` read are the words of the grammar within the limits of the decoder, and with
a turn for each byte they read all of them.
-/

namespace MsysCore.Native

open JsonGrammar FieldReading

def jsonLimits : Limits := ⟨maxJsonDepth, maxJsonContainerEntries⟩

variable {σ : Type} {tooMany duplicate : String}
  {entry : ℕ → Bytes → σ → Bytes → Except Bytes (σ × Bytes)}

/-! ## The field loop -/

/-- The end of a turn: the closing brace, or a comma and the next turn. -/
def closeOrNext (next : Bytes → Except Bytes (σ × Bytes)) (s : σ) (r : Bytes) :
    Except Bytes (σ × Bytes) :=
  match consume '}'.toUInt8 (skipSpace r) with
  | some r => pure (s, r)
  | none => do
    let r ← expect ',' (skipSpace r)
    next (skipSpace r)

-- Named: the equations of the loop would share an unnamed proof with `skipFields`.
local instance lawfulBEqBytes : LawfulBEq Bytes := inferInstance

/-- The field loop of an object, from its next key; `entry` reads the value of a field. -/
def objectLoop (tooMany duplicate : String)
    (entry : ℕ → Bytes → σ → Bytes → Except Bytes (σ × Bytes)) :
    ℕ → List Bytes → σ → Bytes → Except Bytes (σ × Bytes)
  | 0, _, _, _ => fail "truncated JSON value"
  | fuel + 1, seen, s, r =>
    if maxJsonContainerEntries ≤ seen.length then fail tooMany
    else do
      let (key, r) ← parseString r
      if key ∈ seen then .error (ascii duplicate ++ key)
      else do
        let r ← expect ':' (skipSpace r)
        let (s, r) ← entry fuel key s (skipSpace r)
        closeOrNext (fun r => objectLoop tooMany duplicate entry fuel (key :: seen) s r) s r

theorem closeOrNext_eq_ok {next : Bytes → Except Bytes (σ × Bytes)} {s s' : σ} {r r' : Bytes}
    (h : closeOrNext next s r = .ok (s', r')) :
    (∃ c, Spaces c ∧ s = s' ∧ r = c ++ 0x7d :: r') ∨
      ∃ c d r₁, Spaces c ∧ Spaces d ∧ r = c ++ 0x2c :: (d ++ r₁) ∧ next r₁ = .ok (s', r') := by
  unfold closeOrNext at h
  split at h
  · rename_i r₁ hclose
    cases h
    obtain ⟨c, hc, rfl⟩ := skipSpace_append (u := [0x7d]) (consume_eq_some.mp hclose)
    exact .inl ⟨c, hc, rfl, rfl⟩
  · obtain ⟨r₁, hcomma, hnext⟩ := bind_eq_ok.mp h
    obtain ⟨c, hc, rfl⟩ := skipSpace_append (u := [0x2c]) (expect_eq_ok.mp hcomma)
    obtain ⟨d, hd, hr⟩ := skipSpace_spec r₁
    exact .inr ⟨c, d, _, hc, hd, by rw [← hr]; rfl, hnext⟩

theorem closeOrNext_close {next : Bytes → Except Bytes (σ × Bytes)} {c : Bytes} (hc : Spaces c)
    (s : σ) (r : Bytes) : closeOrNext next s (c ++ 0x7d :: r) = .ok (s, r) := by
  have hclose : consume '}'.toUInt8 (skipSpace (c ++ 0x7d :: r)) = some r := by
    rw [skipSpace_spaces hc (by unfold IsSpace; decide)]
    exact consume_self _ _
  unfold closeOrNext
  simp only [hclose]
  rfl

theorem closeOrNext_comma {next : Bytes → Except Bytes (σ × Bytes)} {c d : Bytes} (hc : Spaces c)
    (hd : Spaces d) {b : UInt8} (hb : ¬ IsSpace b) (s : σ) (r : Bytes) :
    closeOrNext next s (c ++ 0x2c :: (d ++ b :: r)) = next (b :: r) := by
  have hskip : skipSpace (c ++ 0x2c :: (d ++ b :: r)) = 0x2c :: (d ++ b :: r) :=
    skipSpace_spaces hc (by unfold IsSpace; decide)
  have hclose : consume '}'.toUInt8 (0x2c :: (d ++ b :: r)) = none := rfl
  have hcomma : expect ',' (0x2c :: (d ++ b :: r)) = .ok (d ++ b :: r) := expect_eq_ok.mpr rfl
  unfold closeOrNext
  rw [hskip]
  simp only [hclose, hcomma]
  change next (skipSpace (d ++ b :: r)) = _
  rw [skipSpace_spaces hd hb]

/-- The keys of the fields are new and distinct, and there is room for them. -/
structure Fresh (seen : List Bytes) (fields : List (Bytes × Bytes)) : Prop where
  distinct : (fields.map Prod.fst).Nodup
  unseen : ∀ key ∈ fields.map Prod.fst, key ∉ seen
  room : seen.length + fields.length ≤ maxJsonContainerEntries

theorem fresh_cons {seen : List Bytes} {key v : Bytes} {fields : List (Bytes × Bytes)} :
    Fresh seen ((key, v) :: fields) ↔ key ∉ seen ∧ Fresh (key :: seen) fields := by
  constructor
  · rintro ⟨hdistinct, hunseen, hroom⟩
    obtain ⟨hkey, hrest⟩ := List.forall_mem_cons.mp hunseen
    obtain ⟨hfirst, hnodup⟩ := List.nodup_cons.mp hdistinct
    refine ⟨hkey, hnodup, fun other hother => ?_, ?_⟩
    · rw [List.mem_cons, not_or]
      exact ⟨fun heq => hfirst (heq ▸ hother), hrest other hother⟩
    · simp only [List.length_cons] at hroom ⊢
      omega
  · rintro ⟨hkey, hdistinct, hunseen, hroom⟩
    refine ⟨List.nodup_cons.mpr ⟨fun hmem => hunseen key hmem List.mem_cons_self, hdistinct⟩,
      List.forall_mem_cons.mpr ⟨hkey, fun other hother => ?_⟩, ?_⟩
    · exact fun hmem => hunseen other hother (List.mem_cons_of_mem key hmem)
    · simp only [List.length_cons] at hroom ⊢
      omega

theorem Fresh.lt {seen : List Bytes} {key : Bytes} {fields : List (Bytes × Bytes)}
    (h : Fresh (key :: seen) fields) : seen.length < maxJsonContainerEntries := by
  have hroom := h.room
  simp only [List.length_cons] at hroom
  omega

theorem fresh_nil {seen : List Bytes} (h : seen.length ≤ maxJsonContainerEntries) :
    Fresh seen [] :=
  ⟨List.nodup_nil, fun _ hkey => absurd hkey List.not_mem_nil, h⟩

theorem Fresh.length {fields : List (Bytes × Bytes)} (h : Fresh [] fields) :
    fields.length ≤ maxJsonContainerEntries := by
  simpa using h.room

theorem Fresh.of_object {fields : List (Bytes × Bytes)} (hdistinct : (fields.map Prod.fst).Nodup)
    (hlength : fields.length ≤ maxJsonContainerEntries) : Fresh [] fields :=
  ⟨hdistinct, fun _ _ => List.not_mem_nil, by simpa using hlength⟩

variable {Step : Bytes → Bytes → σ → σ → Prop}

/-- What the loop has read are fields, and each has taken its step. -/
theorem objectLoop_sound (fuel : ℕ) : (∀ fuel' < fuel, ∀ {key s r s' r'},
    entry fuel' key s r = .ok (s', r') → ∃ v, Step key v s s' ∧ r = v ++ r') →
    ∀ {seen s r s' r'}, objectLoop tooMany duplicate entry fuel seen s r = .ok (s', r') →
      ∃ m fields, Fields m fields ∧ Chain Step fields s s' ∧ Fresh seen fields ∧ r = m ++ r' := by
  induction fuel with
  | zero =>
    intro _ seen s r s' r' h
    exact absurd h fail_ne_ok
  | succ fuel ih =>
    intro hentry seen s r s' r' h
    rw [objectLoop] at h
    split_ifs at h with hroom
    · exact absurd h fail_ne_ok
    obtain ⟨⟨key, r₁⟩, hkey, h₁⟩ := bind_eq_ok.mp h
    obtain ⟨k, hk, rfl⟩ := parseString_eq_ok.mp hkey
    simp only at h₁
    split_ifs at h₁ with hseen
    obtain ⟨r₂, hcolon, h₂⟩ := bind_eq_ok.mp h₁
    obtain ⟨a, ha, rfl⟩ := skipSpace_append (u := [0x3a]) (expect_eq_ok.mp hcolon)
    obtain ⟨⟨s₁, r₃⟩, hvalue, h₃⟩ := bind_eq_ok.mp h₂
    obtain ⟨v, hv, hr⟩ := hentry fuel (Nat.lt_succ_self fuel) hvalue
    obtain ⟨b, hb, rfl⟩ := skipSpace_append hr
    simp only at h₃
    have hlength : seen.length < maxJsonContainerEntries := Nat.not_le.mp hroom
    rcases closeOrNext_eq_ok h₃ with ⟨c, hc, heq, rfl⟩ | ⟨c, d, r₄, hc, hd, rfl, h₄⟩
    · cases heq
      refine ⟨_, [(key, v)], .last hk ha hb hc, .cons hv .nil, ?_, by simp⟩
      exact fresh_cons.mpr ⟨hseen, fresh_nil hlength⟩
    · have hentry' : ∀ fuel' < fuel, ∀ {key s r s' r'},
          entry fuel' key s r = .ok (s', r') → ∃ v, Step key v s s' ∧ r = v ++ r' :=
        fun fuel' hfuel' => hentry fuel' (Nat.lt_succ_of_lt hfuel')
      obtain ⟨m, fields, hm, hchain, hfresh, rfl⟩ := ih hentry' h₄
      exact ⟨_, (key, v) :: fields, .cons hk ha hb hc hd hm, .cons hv hchain,
        fresh_cons.mpr ⟨hseen, hfresh⟩, by simp⟩

/-- One turn of the loop, up to the end of the value. -/
theorem objectLoop_turn {k key a b v r : Bytes} {seen : List Bytes} {fuel : ℕ} {s s₁ : σ}
    (hk : Quoted k key) (ha : Spaces a) (hb : Spaces b) (hv : ∃ c w, v = c :: w ∧ Opens c)
    (hseen : key ∉ seen) (hroom : seen.length < maxJsonContainerEntries)
    (hentry : entry fuel key s (v ++ r) = .ok (s₁, r)) :
    objectLoop tooMany duplicate entry (fuel + 1) seen s
      (k ++ (a ++ 0x3a :: (b ++ (v ++ r)))) =
      closeOrNext (fun r => objectLoop tooMany duplicate entry fuel (key :: seen) s₁ r) s₁ r := by
  obtain ⟨c, w, rfl, hc⟩ := hv
  have hkey : parseString (k ++ (a ++ 0x3a :: (b ++ (c :: w ++ r)))) =
      .ok (key, a ++ 0x3a :: (b ++ (c :: w ++ r))) := parseString_eq_ok.mpr ⟨k, hk, rfl⟩
  have hcolon : expect ':' (skipSpace (a ++ 0x3a :: (b ++ (c :: w ++ r)))) =
      .ok (b ++ (c :: w ++ r)) := by
    rw [skipSpace_spaces ha (by unfold IsSpace; decide)]
    exact expect_eq_ok.mpr rfl
  have hvalue : skipSpace (b ++ (c :: w ++ r)) = c :: w ++ r := skipSpace_spaces hb hc.1
  rw [objectLoop]
  rw [if_neg (Nat.not_le.mpr hroom)]
  simp only [hkey, bind, Except.bind, if_neg hseen, hcolon, hvalue, hentry]

/-- With a turn for each byte the loop reads all fields. -/
theorem objectLoop_complete {m : Bytes} {fields : List (Bytes × Bytes)} (hm : Fields m fields)
    (hopens : ∀ {key v s s'}, Step key v s s' → ∃ c w, v = c :: w ∧ Opens c) :
    (∀ field ∈ fields, ∀ {fuel s s' r}, Step field.1 field.2 s s' → field.2.length ≤ fuel →
      Delimits r → entry fuel field.1 s (field.2 ++ r) = .ok (s', r)) →
    ∀ {fuel seen s s'} r, Chain Step fields s s' → Fresh seen fields → m.length ≤ fuel →
      objectLoop tooMany duplicate entry fuel seen s (m ++ r) = .ok (s', r) := by
  induction hm with
  | @last k key a b v c hk ha hb hc =>
    intro hentry fuel seen s s' r hchain hfresh hfuel
    cases hchain with
    | cons hstep hrest =>
      cases hrest
      obtain ⟨hseen, hroom⟩ := fresh_cons.mp hfresh
      simp only [List.length_append, List.length_cons] at hfuel
      obtain ⟨fuel, rfl⟩ := Nat.exists_eq_succ_of_ne_zero (show fuel ≠ 0 by omega)
      have hvalue : entry fuel key s (v ++ (c ++ 0x7d :: r)) = .ok (s', c ++ 0x7d :: r) :=
        hentry _ List.mem_cons_self hstep (by simp only; omega) (delimits_spaces hc (by simp))
      have hword : k ++ (a ++ 0x3a :: (b ++ (v ++ (c ++ [0x7d])))) ++ r =
          k ++ (a ++ 0x3a :: (b ++ (v ++ (c ++ 0x7d :: r)))) := by simp
      rw [hword, objectLoop_turn hk ha hb (hopens hstep) hseen hroom.lt hvalue,
        closeOrNext_close hc]
  | @cons k key a b v c d m fields hk ha hb hc hd hm ih =>
    intro hentry fuel seen s s' r hchain hfresh hfuel
    cases hchain with
    | cons hstep hrest =>
      obtain ⟨hseen, hfresh'⟩ := fresh_cons.mp hfresh
      obtain ⟨w, rfl⟩ := hm.head
      simp only [List.length_append, List.length_cons] at hfuel
      obtain ⟨fuel, rfl⟩ := Nat.exists_eq_succ_of_ne_zero (show fuel ≠ 0 by omega)
      have hvalue := hentry _ List.mem_cons_self (r := c ++ 0x2c :: (d ++ 0x22 :: w ++ r)) hstep
        (show v.length ≤ fuel by omega) (delimits_spaces hc (by simp))
      have hword : k ++ (a ++ 0x3a :: (b ++ (v ++ (c ++ 0x2c :: (d ++ 0x22 :: w))))) ++ r =
          k ++ (a ++ 0x3a :: (b ++ (v ++ (c ++ 0x2c :: (d ++ 0x22 :: w ++ r))))) := by simp
      rw [hword, objectLoop_turn hk ha hb (hopens hstep) hseen hfresh'.lt hvalue, List.append_assoc,
        List.cons_append, closeOrNext_comma hc hd (by unfold IsSpace; decide)]
      refine ih (fun field hfield => hentry field (List.mem_cons_of_mem _ hfield)) r hrest hfresh' ?_
      simp only [List.length_cons]
      omega

/-! ## Entries of an array -/

theorem skipEntries_sound {level : ℕ} (fuel : ℕ) : (∀ fuel' < fuel, ∀ {r r'},
    skipValue fuel' (level + 1) r = .ok r' → ∃ v, Within jsonLimits (level + 1) v ∧ r = v ++ r') →
    ∀ {count r r'}, skipEntries fuel level count r = .ok r' →
      ∃ m entries, Entries m entries ∧ (∀ v ∈ entries, Within jsonLimits (level + 1) v) ∧
        count + entries.length ≤ maxJsonContainerEntries ∧ r = m ++ r' := by
  induction fuel with
  | zero =>
    intro _ count r r' h
    unfold skipEntries at h
    exact absurd h fail_ne_ok
  | succ fuel ih =>
    intro hvalues count r r' h
    unfold skipEntries at h
    split_ifs at h with hroom
    · exact absurd h fail_ne_ok
    obtain ⟨r₁, hvalue, h₁⟩ := bind_eq_ok.mp h
    obtain ⟨v, hv, rfl⟩ := hvalues fuel (Nat.lt_succ_self fuel) hvalue
    split at h₁
    · rename_i r₂ hclose
      cases h₁
      obtain ⟨c, hc, rfl⟩ := skipSpace_append (u := [0x5d]) (consume_eq_some.mp hclose)
      refine ⟨_, [v], .last hc, by simpa using hv, ?_, by simp⟩
      simp only [List.length_singleton]
      omega
    · obtain ⟨r₂, hcomma, h₂⟩ := bind_eq_ok.mp h₁
      obtain ⟨c, hc, rfl⟩ := skipSpace_append (u := [0x2c]) (expect_eq_ok.mp hcomma)
      have hvalues' : ∀ fuel' < fuel, ∀ {r r'}, skipValue fuel' (level + 1) r = .ok r' →
          ∃ v, Within jsonLimits (level + 1) v ∧ r = v ++ r' :=
        fun fuel' hfuel' => hvalues fuel' (Nat.lt_succ_of_lt hfuel')
      obtain ⟨m, entries, hm, hentries, hlength, hr⟩ := ih hvalues' h₂
      obtain ⟨d, hd, rfl⟩ := skipSpace_append hr
      refine ⟨_, v :: entries, .cons hc hd hm, List.forall_mem_cons.mpr ⟨hv, hentries⟩, ?_, by simp⟩
      simp only [List.length_cons]
      omega

theorem skipEntries_complete {level : ℕ} {m : Bytes} {entries : List Bytes} (hm : Entries m entries)
    (hopens : ∀ v ∈ entries, ∃ b w, v = b :: w ∧ Opens b) :
    (∀ v ∈ entries, ∀ {fuel r}, v.length ≤ fuel → Delimits r →
      skipValue fuel (level + 1) (v ++ r) = .ok r) →
    ∀ {fuel count} r, count + entries.length ≤ maxJsonContainerEntries → m.length ≤ fuel →
      skipEntries fuel level count (m ++ r) = .ok r := by
  induction hm with
  | @last v c hc =>
    intro hvalues fuel count r hroom hfuel
    simp only [List.length_append, List.length_cons, List.length_nil] at hfuel hroom
    obtain ⟨fuel, rfl⟩ := Nat.exists_eq_succ_of_ne_zero (show fuel ≠ 0 by omega)
    have hvalue := hvalues v List.mem_cons_self (r := c ++ 0x5d :: r) (show v.length ≤ fuel by omega)
      (delimits_spaces hc (by simp))
    have hword : v ++ (c ++ [0x5d]) ++ r = v ++ (c ++ 0x5d :: r) := by simp
    have hclose : consume ']'.toUInt8 (skipSpace (c ++ 0x5d :: r)) = some r := by
      rw [skipSpace_spaces hc (by unfold IsSpace; decide)]
      exact consume_self _ _
    unfold skipEntries
    rw [if_neg (by omega), hword, hvalue]
    simp only [bind, Except.bind, hclose]
    rfl
  | @cons v c d m entries hc hd hm ih =>
    intro hvalues fuel count r hroom hfuel
    obtain ⟨hv, hopens'⟩ := List.forall_mem_cons.mp hopens
    obtain ⟨b, w, rfl, hb⟩ := hm.head hopens'
    simp only [List.length_append, List.length_cons] at hfuel hroom
    obtain ⟨fuel, rfl⟩ := Nat.exists_eq_succ_of_ne_zero (show fuel ≠ 0 by omega)
    have hvalue := hvalues v List.mem_cons_self (r := c ++ 0x2c :: (d ++ b :: w ++ r))
      (show v.length ≤ fuel by omega) (delimits_spaces hc (by simp))
    have hword : v ++ (c ++ 0x2c :: (d ++ b :: w)) ++ r =
        v ++ (c ++ 0x2c :: (d ++ b :: w ++ r)) := by simp
    have hskip : skipSpace (c ++ 0x2c :: (d ++ b :: w ++ r)) = 0x2c :: (d ++ b :: w ++ r) :=
      skipSpace_spaces hc (by unfold IsSpace; decide)
    have hclose : consume ']'.toUInt8 (0x2c :: (d ++ b :: w ++ r)) = none := rfl
    have hcomma : expect ',' (0x2c :: (d ++ b :: w ++ r)) = .ok (d ++ b :: w ++ r) :=
      expect_eq_ok.mpr rfl
    have hnext : skipSpace (d ++ b :: w ++ r) = b :: w ++ r := by
      rw [List.append_assoc]
      exact skipSpace_spaces hd hb.1
    conv_lhs => unfold skipEntries
    rw [if_neg (by omega), hword, hvalue]
    simp only [bind, Except.bind, hskip, hclose, hcomma, hnext]
    refine ih hopens' (fun v hv => hvalues v (List.mem_cons_of_mem _ hv)) r (by omega) ?_
    simp only [List.length_cons]
    omega

/-! ## Values -/

/-- The entry of the loop over a nested object: the value is skipped. -/
def skipEntry (level fuel : ℕ) (_ : Bytes) (u : Unit) (r : Bytes) : Except Bytes (Unit × Bytes) :=
  (skipValue fuel (level + 1) r).map fun r => (u, r)

theorem skipFields_eq (level fuel : ℕ) : ∀ (seen : List Bytes) (r : Bytes),
    skipFields fuel level seen r = (objectLoop "JSON object has too many fields"
      "duplicate nested JSON field: " (skipEntry level) fuel seen () r).map Prod.snd := by
  induction fuel with
  | zero =>
    intro seen r
    unfold skipFields
    rfl
  | succ fuel ih =>
    intro seen r
    unfold skipFields
    rw [objectLoop]
    split_ifs with hroom
    · rfl
    cases parseString r with
    | error e => rfl
    | ok result =>
      obtain ⟨key, r₁⟩ := result
      simp only [bind, Except.bind]
      split_ifs with hseen
      · rfl
      cases expect ':' (skipSpace r₁) with
      | error e => rfl
      | ok r₂ =>
        simp only [skipEntry]
        cases skipValue fuel (level + 1) (skipSpace r₂) with
        | error e => rfl
        | ok r₃ =>
          simp only [Except.map, closeOrNext]
          cases consume '}'.toUInt8 (skipSpace r₃) with
          | some r₄ => rfl
          | none =>
            simp only [bind, Except.bind]
            cases expect ',' (skipSpace r₃) with
            | error e => rfl
            | ok r₄ => exact ih (key :: seen) (skipSpace r₄)

/-- What skipping a value takes, as a step of the loop. -/
def Skipped (level : ℕ) (_ v : Bytes) (_ _ : Unit) : Prop := Within jsonLimits (level + 1) v

theorem skipEntry_sound {level fuel : ℕ} (h : ∀ {r r'}, skipValue fuel (level + 1) r = .ok r' →
    ∃ v, Within jsonLimits (level + 1) v ∧ r = v ++ r') {key : Bytes} {s s' : Unit} {r r' : Bytes}
    (hentry : skipEntry level fuel key s r = .ok (s', r')) :
    ∃ v, Skipped level key v s s' ∧ r = v ++ r' := by
  obtain ⟨r₁, hvalue, heq⟩ := map_eq_ok.mp hentry
  cases heq
  exact h hvalue

/-- What `skip_value` has read is a value within the limits. -/
theorem skipValue_sound (fuel : ℕ) : ∀ {level r r'}, skipValue fuel level r = .ok r' →
    ∃ v, Within jsonLimits level v ∧ r = v ++ r' := by
  induction fuel using Nat.strong_induction_on with
  | _ fuel ih =>
    intro level r r' h
    cases fuel with
    | zero =>
      unfold skipValue at h
      exact absurd h fail_ne_ok
    | succ fuel =>
      have ih' : ∀ fuel' < fuel, ∀ {r r'}, skipValue fuel' (level + 1) r = .ok r' →
          ∃ v, Within jsonLimits (level + 1) v ∧ r = v ++ r' :=
        fun fuel' hfuel' => ih fuel' (Nat.lt_succ_of_lt hfuel')
      unfold skipValue at h
      split_ifs at h with hdepth
      · exact absurd h fail_ne_ok
      have hlevel : level ≤ jsonLimits.levels := Nat.not_lt.mp hdepth
      cases r with
      | nil => exact absurd h fail_ne_ok
      | cons value rest =>
        simp only at h
        split_ifs at h with hquote hbrace hbracket ht hf hn
        · obtain ⟨⟨s, r₁⟩, hs, rfl⟩ := map_eq_ok.mp h
          obtain ⟨t, htext, hr⟩ := parseString_eq_ok.mp hs
          exact ⟨t, .text hlevel htext, hr⟩
        · subst hbrace
          split at h
          · rename_i r₁ hclose
            cases h
            obtain ⟨a, ha, rfl⟩ := skipSpace_append (u := [0x7d]) (consume_eq_some.mp hclose)
            refine ⟨_, .object hlevel (.empty ha) List.nodup_nil (Nat.zero_le _) ?_, by simp; rfl⟩
            exact fun _ hfield => absurd hfield List.not_mem_nil
          · rw [skipFields_eq] at h
            obtain ⟨⟨u, r₁⟩, hloop, rfl⟩ := map_eq_ok.mp h
            have hentry : ∀ fuel' < fuel, ∀ {key s r s' r'},
                skipEntry level fuel' key s r = .ok (s', r') →
                  ∃ v, Skipped level key v s s' ∧ r = v ++ r' :=
              fun fuel' hfuel' => skipEntry_sound (ih' fuel' hfuel')
            obtain ⟨m, fields, hm, hchain, hfresh, hr⟩ := objectLoop_sound fuel hentry hloop
            obtain ⟨a, ha, rfl⟩ := skipSpace_append hr
            have hvalues : ∀ field ∈ fields, Within jsonLimits (level + 1) field.2 :=
              hchain.values fun _ _ _ _ hstep => hstep
            exact ⟨_, .object hlevel (.fields ha hm) hfresh.distinct hfresh.length hvalues,
              by simp; rfl⟩
        · subst hbracket
          split at h
          · rename_i r₁ hclose
            cases h
            obtain ⟨a, ha, rfl⟩ := skipSpace_append (u := [0x5d]) (consume_eq_some.mp hclose)
            refine ⟨_, .array hlevel (.empty ha) (Nat.zero_le _) ?_, by simp; rfl⟩
            exact fun _ hentry => absurd hentry List.not_mem_nil
          · obtain ⟨m, entries, hm, hentries, hlength, hr⟩ := skipEntries_sound fuel ih' h
            obtain ⟨a, ha, rfl⟩ := skipSpace_append hr
            rw [Nat.zero_add] at hlength
            exact ⟨_, .array hlevel (.entries ha hm) hlength hentries, by simp; rfl⟩
        · exact ⟨_, .literal hlevel (.inl rfl), (expectLiteral_eq_ok rfl).mp h⟩
        · exact ⟨_, .literal hlevel (.inr (.inl rfl)), (expectLiteral_eq_ok rfl).mp h⟩
        · exact ⟨_, .literal hlevel (.inr (.inr rfl)), (expectLiteral_eq_ok rfl).mp h⟩
        · obtain ⟨t, ht, hr⟩ := parseNumberToken_sound h
          exact ⟨t, .number hlevel ht, hr⟩

theorem skipEntry_complete {level fuel : ℕ} {v r : Bytes}
    (h : skipValue fuel (level + 1) (v ++ r) = .ok r) (key : Bytes) (s s' : Unit) :
    skipEntry level fuel key s (v ++ r) = .ok (s', r) :=
  map_eq_ok.mpr ⟨r, h, rfl⟩

theorem skipValue_text {level fuel : ℕ} (hlevel : level ≤ maxJsonDepth) {t s r : Bytes}
    (ht : Quoted t s) : skipValue (fuel + 1) level (t ++ r) = .ok r := by
  have hstring : parseString (t ++ r) = .ok (s, r) := parseString_eq_ok.mpr ⟨t, ht, rfl⟩
  obtain ⟨w, -, rfl⟩ := ht
  rw [List.cons_append] at hstring ⊢
  have hquote : (0x22 : UInt8) = '"'.toUInt8 := rfl
  unfold skipValue
  rw [if_neg (Nat.not_lt.mpr hlevel)]
  simp only [if_pos hquote, hstring]
  rfl

theorem skipValue_number {level fuel : ℕ} (hlevel : level ≤ maxJsonDepth) {t r : Bytes}
    (ht : Number t) (hr : Delimits r) : skipValue (fuel + 1) level (t ++ r) = .ok r := by
  have hnumber := parseNumberToken_complete ht hr
  obtain ⟨b, w, rfl, hb⟩ := ht.head
  have hplain : b ≠ '"'.toUInt8 ∧ b ≠ '{'.toUInt8 ∧ b ≠ '['.toUInt8 ∧ b ≠ 't'.toUInt8 ∧
      b ≠ 'f'.toUInt8 ∧ b ≠ 'n'.toUInt8 := by
    rcases hb with ⟨hlow, hhigh⟩ | rfl
    · refine ⟨?_, ?_, ?_, ?_, ?_, ?_⟩
      · rintro rfl
        exact absurd hlow (by decide)
      all_goals
        rintro rfl
        exact absurd hhigh (by decide)
    · decide
  obtain ⟨h1, h2, h3, h4, h5, h6⟩ := hplain
  rw [List.cons_append] at hnumber ⊢
  unfold skipValue
  rw [if_neg (Nat.not_lt.mpr hlevel)]
  simp only [if_neg h1, if_neg h2, if_neg h3, if_neg h4, if_neg h5, if_neg h6, hnumber]

theorem skipValue_literal {level fuel : ℕ} (hlevel : level ≤ maxJsonDepth) {t r : Bytes}
    (ht : Literal t) : skipValue (fuel + 1) level (t ++ r) = .ok r := by
  unfold skipValue
  rw [if_neg (Nat.not_lt.mpr hlevel)]
  rcases ht with rfl | rfl | rfl
  · exact (expectLiteral_eq_ok (l := "true") rfl).mpr rfl
  · exact (expectLiteral_eq_ok (l := "false") rfl).mpr rfl
  · exact (expectLiteral_eq_ok (l := "null") rfl).mpr rfl

theorem skipValue_emptyObject {level fuel : ℕ} (hlevel : level ≤ maxJsonDepth) {a : Bytes}
    (ha : Spaces a) (r : Bytes) :
    skipValue (fuel + 1) level (0x7b :: (a ++ 0x7d :: r)) = .ok r := by
  have hskip : consume '}'.toUInt8 (skipSpace (a ++ 0x7d :: r)) = some r := by
    rw [skipSpace_spaces ha (by unfold IsSpace; decide)]
    exact consume_self _ _
  have hquote : ¬ (0x7b : UInt8) = '"'.toUInt8 := by decide
  have hbrace : (0x7b : UInt8) = '{'.toUInt8 := rfl
  unfold skipValue
  rw [if_neg (Nat.not_lt.mpr hlevel)]
  simp only [if_neg hquote, if_pos hbrace, hskip]

theorem skipValue_object {level fuel : ℕ} (hlevel : level ≤ maxJsonDepth) {a m : Bytes}
    (ha : Spaces a) {b : UInt8} (hb : ¬ IsSpace b ∧ b ≠ 0x7d) :
    skipValue (fuel + 1) level (0x7b :: (a ++ b :: m)) = skipFields fuel level [] (b :: m) := by
  have hskip : skipSpace (a ++ b :: m) = b :: m := skipSpace_spaces ha hb.1
  have hclose : consume '}'.toUInt8 (b :: m) = none := if_neg hb.2
  have hquote : ¬ (0x7b : UInt8) = '"'.toUInt8 := by decide
  have hbrace : (0x7b : UInt8) = '{'.toUInt8 := rfl
  conv_lhs => unfold skipValue
  rw [if_neg (Nat.not_lt.mpr hlevel)]
  simp only [if_neg hquote, if_pos hbrace, hskip, hclose]

theorem skipValue_emptyArray {level fuel : ℕ} (hlevel : level ≤ maxJsonDepth) {a : Bytes}
    (ha : Spaces a) (r : Bytes) :
    skipValue (fuel + 1) level (0x5b :: (a ++ 0x5d :: r)) = .ok r := by
  have hskip : consume ']'.toUInt8 (skipSpace (a ++ 0x5d :: r)) = some r := by
    rw [skipSpace_spaces ha (by unfold IsSpace; decide)]
    exact consume_self _ _
  have hquote : ¬ (0x5b : UInt8) = '"'.toUInt8 := by decide
  have hbrace : ¬ (0x5b : UInt8) = '{'.toUInt8 := by decide
  have hbracket : (0x5b : UInt8) = '['.toUInt8 := rfl
  unfold skipValue
  rw [if_neg (Nat.not_lt.mpr hlevel)]
  simp only [if_neg hquote, if_neg hbrace, if_pos hbracket, hskip]

theorem skipValue_array {level fuel : ℕ} (hlevel : level ≤ maxJsonDepth) {a m : Bytes}
    (ha : Spaces a) {b : UInt8} (hb : ¬ IsSpace b ∧ b ≠ 0x5d) :
    skipValue (fuel + 1) level (0x5b :: (a ++ b :: m)) = skipEntries fuel level 0 (b :: m) := by
  have hskip : skipSpace (a ++ b :: m) = b :: m := skipSpace_spaces ha hb.1
  have hclose : consume ']'.toUInt8 (b :: m) = none := if_neg hb.2
  have hquote : ¬ (0x5b : UInt8) = '"'.toUInt8 := by decide
  have hbrace : ¬ (0x5b : UInt8) = '{'.toUInt8 := by decide
  have hbracket : (0x5b : UInt8) = '['.toUInt8 := rfl
  conv_lhs => unfold skipValue
  rw [if_neg (Nat.not_lt.mpr hlevel)]
  simp only [if_neg hquote, if_neg hbrace, if_pos hbracket, hskip, hclose]

/-- With a turn for each byte `skip_value` reads every value within the limits. -/
theorem skipValue_complete {level : ℕ} {v : Bytes} (h : Within jsonLimits level v) :
    ∀ {fuel r}, v.length ≤ fuel → Delimits r → skipValue fuel level (v ++ r) = .ok r := by
  have hturn : ∀ {v : Bytes} {fuel : ℕ}, (∃ b w, v = b :: w ∧ Opens b) → v.length ≤ fuel →
      ∃ fuel', fuel = fuel' + 1 ∧ v.length ≤ fuel' + 1 := by
    rintro v fuel ⟨b, w, rfl, -⟩ hfuel
    cases fuel with
    | zero => cases hfuel
    | succ fuel => exact ⟨fuel, rfl, hfuel⟩
  induction h with
  | text hlevel ht =>
    intro fuel r hfuel _
    obtain ⟨fuel, rfl, -⟩ := hturn (Within.text hlevel ht).head hfuel
    exact skipValue_text hlevel ht
  | number hlevel ht =>
    intro fuel r hfuel hr
    obtain ⟨fuel, rfl, -⟩ := hturn (Within.number hlevel ht).head hfuel
    exact skipValue_number hlevel ht hr
  | literal hlevel ht =>
    intro fuel r hfuel _
    obtain ⟨fuel, rfl, -⟩ := hturn (Within.literal hlevel ht).head hfuel
    exact skipValue_literal hlevel ht
  | @object level t fields hlevel ht hdistinct hlength hvalues ih =>
    intro fuel r hfuel _
    obtain ⟨fuel, rfl, hfuel⟩ :=
      hturn (Within.object hlevel ht hdistinct hlength hvalues).head hfuel
    cases ht with
    | @empty a ha =>
      have hword : 0x7b :: (a ++ [0x7d]) ++ r = 0x7b :: (a ++ 0x7d :: r) := by simp
      rw [hword]
      exact skipValue_emptyObject hlevel ha r
    | @fields a m _ ha hm =>
      obtain ⟨w, rfl⟩ := hm.head
      have hword : 0x7b :: (a ++ 0x22 :: w) ++ r = 0x7b :: (a ++ 0x22 :: (w ++ r)) := by simp
      rw [hword, skipValue_object hlevel ha ⟨by unfold IsSpace; decide, by decide⟩, skipFields_eq]
      have hchain : Chain (Skipped level) fields () () := Chain.of_values hvalues
      have hopens : ∀ {key v s s'}, Skipped level key v s s' → ∃ c w, v = c :: w ∧ Opens c :=
        fun h => Within.head h
      have hloop : objectLoop "JSON object has too many fields" "duplicate nested JSON field: "
          (skipEntry level) fuel [] () (0x22 :: w ++ r) = .ok ((), r) := by
        refine objectLoop_complete hm hopens ?_ r hchain (Fresh.of_object hdistinct hlength) ?_
        · intro field hfield fuel s s' r _ hfuel hr
          exact skipEntry_complete (ih field hfield hfuel hr) field.1 s s'
        · simp only [List.length_cons, List.length_append] at hfuel ⊢
          omega
      rw [List.cons_append] at hloop
      rw [hloop]
      rfl
  | @array level t entries hlevel ht hlength hvalues ih =>
    intro fuel r hfuel _
    obtain ⟨fuel, rfl, hfuel⟩ := hturn (Within.array hlevel ht hlength hvalues).head hfuel
    cases ht with
    | @empty a ha =>
      have hword : 0x5b :: (a ++ [0x5d]) ++ r = 0x5b :: (a ++ 0x5d :: r) := by simp
      rw [hword]
      exact skipValue_emptyArray hlevel ha r
    | @entries a m _ ha hm =>
      have hopens : ∀ v ∈ entries, ∃ b w, v = b :: w ∧ Opens b := fun v hv => (hvalues v hv).head
      obtain ⟨b, w, rfl, hb⟩ := hm.head hopens
      have hword : 0x5b :: (a ++ b :: w) ++ r = 0x5b :: (a ++ b :: (w ++ r)) := by simp
      rw [hword, skipValue_array hlevel ha ⟨hb.1, hb.2.1⟩, ← List.cons_append]
      refine skipEntries_complete hm hopens (fun v hv => ih v hv) r ?_ ?_
      · rw [Nat.zero_add]
        exact hlength
      · simp only [List.length_cons, List.length_append] at hfuel ⊢
        omega

/-! ## Turns

A loop that has two turns for each byte ends by itself. -/

theorem length_parseString {r s r' : Bytes} (h : parseString r = .ok (s, r')) :
    r'.length + 2 ≤ r.length := by
  obtain ⟨t, ⟨w, -, rfl⟩, rfl⟩ := parseString_eq_ok.mp h
  simp only [List.length_append, List.length_cons]
  omega

theorem length_expect_skipSpace {c : Char} {r r' : Bytes}
    (h : expect c (skipSpace r) = .ok r') : r'.length < r.length := by
  have hskip := length_skipSpace_le r
  rw [expect_eq_ok.mp h, List.length_cons] at hskip
  exact hskip

theorem length_skipValue {fuel level : ℕ} {r r' : Bytes} (h : skipValue fuel level r = .ok r') :
    r'.length ≤ r.length := by
  obtain ⟨v, -, rfl⟩ := skipValue_sound fuel h
  simp

theorem closeOrNext_congr {next next' : Bytes → Except Bytes (σ × Bytes)} {s : σ} {r : Bytes}
    (h : ∀ r₁, r₁.length < r.length → next r₁ = next' r₁) :
    closeOrNext next s r = closeOrNext next' s r := by
  unfold closeOrNext
  cases consume '}'.toUInt8 (skipSpace r) with
  | some r₁ => rfl
  | none =>
    cases hcomma : expect ',' (skipSpace r) with
    | error e => rfl
    | ok r₁ =>
      have hlength := length_expect_skipSpace hcomma
      have hskip := length_skipSpace_le r₁
      exact h (skipSpace r₁) (by omega)

theorem objectLoop_fuel (fuel : ℕ) : (∀ f < fuel, ∀ {f' key s r}, 2 * r.length < f →
      2 * r.length < f' → entry f key s r = entry f' key s r) →
    (∀ {f key s r s' r'}, entry f key s r = .ok (s', r') → r'.length ≤ r.length) →
    ∀ {fuel' seen s r}, 2 * r.length < fuel → 2 * r.length < fuel' →
      objectLoop tooMany duplicate entry fuel seen s r =
        objectLoop tooMany duplicate entry fuel' seen s r := by
  induction fuel with
  | zero =>
    intro _ _ fuel' seen s r hfuel
    cases hfuel
  | succ fuel ih =>
    intro hentry hshrink fuel' seen s r hfuel hfuel'
    obtain ⟨fuel', rfl⟩ := Nat.exists_eq_succ_of_ne_zero (Nat.ne_zero_of_lt hfuel')
    rw [objectLoop, objectLoop]
    split_ifs with hroom
    · rfl
    cases hkey : parseString r with
    | error e => rfl
    | ok result =>
      obtain ⟨key, r₁⟩ := result
      have hlength := length_parseString hkey
      simp only [bind, Except.bind]
      split_ifs with hseen
      · rfl
      cases hcolon : expect ':' (skipSpace r₁) with
      | error e => rfl
      | ok r₂ =>
        have hlength' := length_expect_skipSpace hcolon
        have hskip := length_skipSpace_le r₂
        have hsame : entry fuel key s (skipSpace r₂) = entry fuel' key s (skipSpace r₂) :=
          hentry fuel (Nat.lt_succ_self fuel) (by omega) (by omega)
        simp only [hsame]
        cases hvalue : entry fuel' key s (skipSpace r₂) with
        | error e => rfl
        | ok result =>
          obtain ⟨s₁, r₃⟩ := result
          have hlength'' := hshrink hvalue
          refine closeOrNext_congr fun r₄ (hr₄ : r₄.length < r₃.length) => ?_
          exact ih (fun f hf => hentry f (Nat.lt_succ_of_lt hf)) hshrink (by omega) (by omega)

theorem skipEntries_fuel {level : ℕ} (fuel : ℕ) : (∀ f < fuel, ∀ {f' r}, 2 * r.length < f →
      2 * r.length < f' → skipValue f (level + 1) r = skipValue f' (level + 1) r) →
    ∀ {fuel' count r}, 2 * r.length + 1 < fuel → 2 * r.length + 1 < fuel' →
      skipEntries fuel level count r = skipEntries fuel' level count r := by
  induction fuel with
  | zero =>
    intro _ fuel' count r hfuel
    cases hfuel
  | succ fuel ih =>
    intro hvalues fuel' count r hfuel hfuel'
    obtain ⟨fuel', rfl⟩ := Nat.exists_eq_succ_of_ne_zero (Nat.ne_zero_of_lt hfuel')
    unfold skipEntries
    split_ifs with hroom
    · rfl
    have hsame : skipValue fuel (level + 1) r = skipValue fuel' (level + 1) r :=
      hvalues fuel (Nat.lt_succ_self fuel) (by omega) (by omega)
    rw [hsame]
    cases hvalue : skipValue fuel' (level + 1) r with
    | error e => rfl
    | ok r₁ =>
      have hlength := length_skipValue hvalue
      simp only [bind, Except.bind]
      cases consume ']'.toUInt8 (skipSpace r₁) with
      | some r₂ => rfl
      | none =>
        cases hcomma : expect ',' (skipSpace r₁) with
        | error e => rfl
        | ok r₂ =>
          have hlength' := length_expect_skipSpace hcomma
          have hskip := length_skipSpace_le r₂
          have hnext : skipEntries fuel level (count + 1) (skipSpace r₂) =
              skipEntries fuel' level (count + 1) (skipSpace r₂) :=
            ih (fun f hf => hvalues f (Nat.lt_succ_of_lt hf)) (by omega) (by omega)
          exact hnext

theorem skipEntry_fuel {level f f' : ℕ} {r : Bytes}
    (h : skipValue f (level + 1) r = skipValue f' (level + 1) r) (key : Bytes) (s : Unit) :
    skipEntry level f key s r = skipEntry level f' key s r := by
  unfold skipEntry
  rw [h]

theorem skipValue_fuel (fuel : ℕ) : ∀ {fuel' level r}, 2 * r.length < fuel →
    2 * r.length < fuel' → skipValue fuel level r = skipValue fuel' level r := by
  induction fuel using Nat.strong_induction_on with
  | _ fuel ih =>
    intro fuel' level r hfuel hfuel'
    obtain ⟨fuel, rfl⟩ := Nat.exists_eq_succ_of_ne_zero (Nat.ne_zero_of_lt hfuel)
    obtain ⟨fuel', rfl⟩ := Nat.exists_eq_succ_of_ne_zero (Nat.ne_zero_of_lt hfuel')
    have hvalues : ∀ f < fuel, ∀ {f' r}, 2 * r.length < f → 2 * r.length < f' →
        skipValue f (level + 1) r = skipValue f' (level + 1) r :=
      fun f hf => ih f (Nat.lt_succ_of_lt hf)
    unfold skipValue
    split_ifs with hdepth
    · rfl
    cases r with
    | nil => rfl
    | cons value rest =>
      have hskip := length_skipSpace_le rest
      simp only [List.length_cons] at hfuel hfuel'
      simp only
      split_ifs
      · rfl
      · cases consume '}'.toUInt8 (skipSpace rest) with
        | some r₁ => rfl
        | none =>
          simp only [skipFields_eq]
          refine congrArg (Except.map Prod.snd) (objectLoop_fuel fuel ?_ ?_ ?_ ?_)
          · intro f hf f' key s r hr hr'
            exact skipEntry_fuel (hvalues f hf hr hr') key s
          · intro f key s r s' r' h
            obtain ⟨v, -, rfl⟩ := skipEntry_sound (skipValue_sound f) h
            simp
          · omega
          · omega
      · cases consume ']'.toUInt8 (skipSpace rest) with
        | some r₁ => rfl
        | none => exact skipEntries_fuel fuel hvalues (by omega) (by omega)
      all_goals rfl

end MsysCore.Native
