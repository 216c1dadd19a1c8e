/-!
# Computations that can fail

A computation of several steps has succeeded if each step did, and it fails in no way that no step
fails in.

## Main definitions

- `FailsOnly` — a computation fails in certain ways only

## Main statements

- `bind_eq_ok`, `mapM_eq_ok` — computations one after another that give a result
- `mapM_eq_error` — where computations one after another fail
- `FailsOnly.bind` — one computation after another that fails
-/

namespace UnitText

variable {ε α β : Type}

/-- One computation after another gives a result if both do. -/
theorem bind_eq_ok {x : Except ε α} {f : α → Except ε β} {b : β} :
    x >>= f = .ok b ↔ ∃ a, x = .ok a ∧ f a = .ok b := by
  cases x with
  | error e => exact ⟨nofun, fun ⟨_, h, _⟩ => nomatch h⟩
  | ok a => exact ⟨fun h => ⟨a, rfl, h⟩, fun ⟨_, h, hf⟩ => Except.ok.inj h ▸ hf⟩

theorem pure_eq_ok {a b : α} : (pure a : Except ε α) = .ok b ↔ a = b :=
  ⟨Except.ok.inj, congrArg Except.ok⟩

/-- A function of a result is applied to one. -/
theorem map_eq_ok {f : α → β} {x : Except ε α} {b : β} :
    x.map f = .ok b ↔ ∃ a, x = .ok a ∧ f a = b := by
  cases x with
  | error e => exact ⟨nofun, fun ⟨_, h, _⟩ => nomatch h⟩
  | ok a => exact ⟨fun h => ⟨a, rfl, Except.ok.inj h⟩, fun ⟨_, h, hf⟩ => Except.ok.inj h ▸ hf ▸ rfl⟩

theorem mem_toOption {x : Except ε α} {a : α} : a ∈ x.toOption ↔ x = .ok a := by
  cases x with
  | error e => exact ⟨nofun, nofun⟩
  | ok b => exact ⟨fun h => congrArg Except.ok (Option.some.inj h),
      fun h => congrArg some (Except.ok.inj h)⟩

/-- A function of a result fails in no way of its own. -/
theorem bind_pure_eq_error {x : Except ε α} {f : α → β} {e : ε} :
    (x >>= fun a => pure (f a)) = .error e ↔ x = .error e := by
  cases x with
  | error e' => exact ⟨fun h => congrArg Except.error (Except.error.inj h),
      fun h => congrArg Except.error (Except.error.inj h)⟩
  | ok a => exact ⟨nofun, nofun⟩

theorem throw_ne_ok {e : ε} {a : α} : (throw e : Except ε α) ≠ .ok a := nofun

/-- A computation for each member gives all results if each of them does. -/
theorem mapM_eq_ok {f : α → Except ε β} {g : α → β} {as : List α}
    (h : ∀ a ∈ as, f a = .ok (g a)) : as.mapM f = .ok (as.map g) := by
  induction as with
  | nil => rfl
  | cons a as ih =>
    rw [List.forall_mem_cons] at h
    rw [List.mapM_cons, h.1, ih h.2]
    rfl

/-- A computation for each member gives the results of another one, if it does so member by
member. -/
theorem mapM_eq_ok_of_imp {f g : α → Except ε β} {as : List α} {bs : List β}
    (h : as.mapM f = .ok bs) (hfg : ∀ a, ∀ b ∈ bs, f a = .ok b → g a = .ok b) :
    as.mapM g = .ok bs := by
  induction as generalizing bs with
  | nil => exact h
  | cons a as ih =>
    rw [List.mapM_cons] at h ⊢
    obtain ⟨b, hb, hrest⟩ := bind_eq_ok.1 h
    obtain ⟨bs, hbs, hcons⟩ := bind_eq_ok.1 hrest
    obtain rfl := pure_eq_ok.1 hcons
    have hrest : as.mapM g = .ok bs :=
      ih hbs fun a b hmem => hfg a b (List.mem_cons_of_mem _ hmem)
    rw [hfg a b List.mem_cons_self hb, hrest]
    rfl

/-- All results are those of members. -/
theorem exists_of_mem_mapM {f : α → Except ε β} {as : List α} {bs : List β} {b : β}
    (h : as.mapM f = .ok bs) (hb : b ∈ bs) : ∃ a ∈ as, f a = .ok b := by
  induction as generalizing bs with
  | nil =>
    obtain rfl := pure_eq_ok.1 h
    cases hb
  | cons a as ih =>
    rw [List.mapM_cons] at h
    obtain ⟨c, hc, hrest⟩ := bind_eq_ok.1 h
    obtain ⟨cs, hcs, hcons⟩ := bind_eq_ok.1 hrest
    obtain rfl := pure_eq_ok.1 hcons
    rcases List.mem_cons.1 hb with rfl | hb
    · exact ⟨a, List.mem_cons_self, hc⟩
    · obtain ⟨a', ha', hb⟩ := ih hcs hb
      exact ⟨a', List.mem_cons_of_mem _ ha', hb⟩

/-- A computation for each member fails at the first member for which it does. -/
theorem mapM_eq_error {f : α → Except ε β} {as : List α} {e : ε} :
    as.mapM f = .error e ↔ ∃ front a behind, as = front ++ a :: behind ∧
      (∀ a ∈ front, ∃ b, f a = .ok b) ∧ f a = .error e := by
  constructor
  · intro h
    induction as with
    | nil => cases h
    | cons a as ih =>
      cases ha : f a with
      | error e' =>
        rw [List.mapM_cons, ha] at h
        cases h
        exact ⟨[], a, as, rfl, nofun, ha⟩
      | ok b =>
        have hrest : as.mapM f = .error e := by
          rw [List.mapM_cons, ha] at h
          cases hbs : as.mapM f with
          | error e' =>
            rw [hbs] at h
            exact h
          | ok bs =>
            rw [hbs] at h
            cases h
        obtain ⟨front, a', behind, rfl, hfront, ha'⟩ := ih hrest
        exact ⟨a :: front, a', behind, rfl, List.forall_mem_cons.2 ⟨⟨b, ha⟩, hfront⟩, ha'⟩
  · rintro ⟨front, a, behind, rfl, hfront, ha⟩
    induction front with
    | nil =>
      rw [List.nil_append, List.mapM_cons, ha]
      rfl
    | cons c front ih =>
      rw [List.forall_mem_cons] at hfront
      obtain ⟨⟨b, hb⟩, hfront⟩ := hfront
      rw [List.cons_append, List.mapM_cons, hb]
      change (do let bs ← (front ++ a :: behind).mapM f; pure (b :: bs)) = _
      rw [ih hfront]
      rfl

/-! ## Ways to fail -/

/-- A computation fails in these ways only. -/
def FailsOnly (P : ε → Prop) (x : Except ε α) : Prop := ∀ e, x = .error e → P e

variable {P : ε → Prop}

theorem failsOnly_ok {a : α} : FailsOnly P (.ok a) := by
  intro e h
  cases h

theorem failsOnly_pure {a : α} : FailsOnly P (pure a) := failsOnly_ok

theorem failsOnly_error {e : ε} (h : P e) : FailsOnly P (.error e : Except ε α) := by
  rintro _ ⟨⟩
  exact h

theorem FailsOnly.mono {Q : ε → Prop} {x : Except ε α} (h : FailsOnly P x)
    (hPQ : ∀ e, P e → Q e) : FailsOnly Q x :=
  fun e he => hPQ e (h e he)

theorem FailsOnly.bind {x : Except ε α} {g : α → Except ε β} (hx : FailsOnly P x)
    (hg : ∀ a, x = .ok a → FailsOnly P (g a)) : FailsOnly P (x >>= g) := by
  cases x with
  | ok a => exact hg a rfl
  | error e =>
    rintro _ ⟨⟩
    exact hx e rfl

end UnitText
