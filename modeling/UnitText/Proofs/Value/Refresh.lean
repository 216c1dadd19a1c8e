import UnitText.Format.Text
import UnitText.Proofs.Format.Place
import UnitText.Proofs.Value.Machine

/-!
# Values in which counts are stored

A value shows what was stored last under the names that are in it. A slot and an object take any
count as it is, and a variable what it has room for. What is stored changes the contents of a value
only: it stays the same kind of argument, which the same conversions accept.

## Main definitions

- `Value.Keeps` — what a value holds after a count was stored in it
- `Argument.Resembles` — an argument that differs at most in its contents

## Main statements

- `Value.refresh_append` — stores, one after the other
- `Value.store_eq_ok` — a count that is stored is what the value shows from then on
- `Value.keeps_of_store` — what it shows
- `Value.adapt_refresh` — the argument for a value after counts were stored
-/

namespace UnitText

/-! ## Stores, one after the other -/

theorem Slots.get?_append (slots slots' : Slots) (name : String) :
    (slots ++ slots').get? name = (slots.get? name).or (slots'.get? name) :=
  List.lookup_append

theorem Part.refresh_nil (p : Part) : p.refresh [] = p := by cases p <;> rfl

theorem Object.refresh_nil (o : Object) : o.refresh [] = o := by
  have hparts : Part.refresh [] = id := funext Part.refresh_nil
  simp only [refresh, hparts, List.map_id]

theorem Variable.refresh_append (name : String) (slots slots' : Slots) (x : Variable) :
    x.refresh name (slots ++ slots') = (x.refresh name slots').refresh name slots := by
  induction slots with
  | nil => rfl
  | cons e slots ih =>
    obtain ⟨place, count⟩ := e
    simp only [List.cons_append, refresh, ih]

theorem Part.refresh_append (slots slots' : Slots) (p : Part) :
    p.refresh (slots ++ slots') = (p.refresh slots').refresh slots := by
  cases p with
  | own cs => rfl
  | slot | chosen => simp only [refresh, Slots.get?_append, Option.or_assoc]
  | cell name x => simp only [refresh, Variable.refresh_append]

theorem Object.refresh_append (slots slots' : Slots) (o : Object) :
    o.refresh (slots ++ slots') = (o.refresh slots').refresh slots := by
  have hparts : Part.refresh (slots ++ slots') = Part.refresh slots ∘ Part.refresh slots' :=
    funext (Part.refresh_append slots slots')
  simp only [refresh, hparts, List.map_map]

namespace Value

@[simp] theorem refresh_nil (v : Value) : v.refresh [] = v := by
  induction v with
  | object o => simp only [refresh, Object.refresh_nil]
  | argument family v bits signed domain ih => simp only [refresh, ih]
  | _ => rfl

theorem refresh_append (slots slots' : Slots) (v : Value) :
    v.refresh (slots ++ slots') = (v.refresh slots').refresh slots := by
  induction v with
  | slot name holds => simp only [refresh, Slots.get?_append, Option.or_assoc]
  | cell name x => simp only [refresh, Variable.refresh_append]
  | object o => simp only [refresh, Object.refresh_append]
  | argument family v bits signed domain ih => simp only [refresh, ih]
  | _ => rfl

@[simp] theorem place?_refresh (slots : Slots) (v : Value) :
    (v.refresh slots).place? = v.place? := by
  cases v <;> rfl

variable {v u : Value} {n : Nat}

/-- A count that is stored in a value is stored under its name, and the value is from then on what
it shows after the store. -/
theorem store_eq_ok (h : v.store n = .ok u) :
    ∃ name, v.place? = some name ∧ u = v.refresh [(name, n)] := by
  cases v with
  | slot name holds =>
    obtain rfl := Except.ok.inj h
    refine ⟨name, rfl, ?_⟩
    simp [refresh, Slots.get?]
  | cell name x =>
    obtain ⟨y, hy, h⟩ := bind_eq_ok.1 h
    obtain rfl := pure_eq_ok.1 h
    refine ⟨name, rfl, ?_⟩
    simp [refresh, Variable.refresh, hy, Except.toOption]
  | object o =>
    simp only [store] at h
    split at h
    · next name hname =>
      obtain rfl := Except.ok.inj h
      exact ⟨name, hname, rfl⟩
    · cases h
  | _ => cases h

/-! ## What is kept -/

/-- What a value holds after a count was stored in it: a slot and an object the count itself, an
integer and a pointer its lowest bits, and a floating-point number the number nearest to it that the
type holds. Characters of one byte take no count that they cannot hold, and others take none. -/
def Keeps (n : Nat) : Value → Prop
  | slot _ holds => holds = some n
  | cell _ (.integer x) => Integer.IsStored x.type.bits x.type.signed n x.value
  | cell _ (.float x) => ∃ y, Double.ofInteger n = .ok y ∧ x.value = x.type.hold y
  | cell _ (.byte b) => b.val = n
  | cell _ (.pointer p) => p.val = n % 2 ^ 64
  | object o => o.name.isSome
  | _ => False

theorem keeps_of_store (h : v.store n = .ok u) : u.Keeps n := by
  cases v with
  | slot name holds =>
    obtain rfl := Except.ok.inj h
    rfl
  | cell name x =>
    obtain ⟨y, hy, h⟩ := bind_eq_ok.1 h
    obtain rfl := pure_eq_ok.1 h
    cases x with
    | integer x =>
      obtain rfl := Except.ok.inj hy
      exact MachineInteger.isStored_store x.type n
    | float x =>
      obtain ⟨z, hz, hy⟩ := bind_eq_ok.1 hy
      obtain rfl := pure_eq_ok.1 hy
      exact ⟨z, hz, rfl⟩
    | byte b =>
      simp only [Variable.stored] at hy
      split at hy
      · obtain rfl := Except.ok.inj hy
        rfl
      · cases hy
    | character c => cases hy
    | pointer p =>
      obtain rfl := Except.ok.inj hy
      rfl
  | object o =>
    simp only [store] at h
    split at h
    · next name hname =>
      obtain rfl := Except.ok.inj h
      exact Option.isSome_iff_exists.2 ⟨name, hname⟩
    · cases h
  | _ => cases h

end Value

/-! ## The same kind of argument -/

theorem Double.of_ofInteger_eq_error {n : Int} {e : Failure} (h : ofInteger n = .error e) :
    e = .range .float := by
  unfold ofInteger at h
  split at h
  · cases h
  · exact (Except.error.inj h).symm

/-- A variable that differs at most in what it holds. -/
inductive Variable.Resembles : Variable → Variable → Prop where
  | integer (t : IntegerType) {x y : MachineInteger} (hx : x.type = t) (hy : y.type = t) :
    Resembles (.integer x) (.integer y)
  | float (t : FloatType) {x y : MachineFloat} (hx : x.type = t) (hy : y.type = t) :
    Resembles (.float x) (.float y)
  | byte (b c : Fin 256) : Resembles (.byte b) (.byte c)
  | character (c d : CodePoint) : Resembles (.character c) (.character d)
  | pointer (m n : Fin (2 ^ 64)) : Resembles (.pointer m) (.pointer n)

namespace Variable

variable {x y z : Variable}

theorem Resembles.refl (x : Variable) : x.Resembles x := by
  cases x with
  | integer x => exact .integer _ rfl rfl
  | float x => exact .float _ rfl rfl
  | byte b => exact .byte b b
  | character c => exact .character c c
  | pointer n => exact .pointer n n

theorem Resembles.trans (h : x.Resembles y) (h' : y.Resembles z) : x.Resembles z := by
  cases h with
  | integer t hx hy =>
    cases h' with
    | integer t' hy' hz => exact .integer _ hx (hz.trans (hy'.symm.trans hy))
  | float t hx hy =>
    cases h' with
    | float t' hy' hz => exact .float _ hx (hz.trans (hy'.symm.trans hy))
  | byte b c =>
    cases h' with
    | byte _ d => exact .byte b d
  | character b c =>
    cases h' with
    | character _ d => exact .character b d
  | pointer m n =>
    cases h' with
    | pointer _ k => exact .pointer m k

theorem resembles_of_stored {n : Nat} (h : x.stored n = .ok y) : x.Resembles y := by
  cases x with
  | integer x =>
    obtain rfl := Except.ok.inj h
    exact .integer _ rfl rfl
  | float x =>
    obtain ⟨z, -, h⟩ := bind_eq_ok.1 h
    obtain rfl := pure_eq_ok.1 h
    exact .float _ rfl rfl
  | byte b =>
    simp only [stored] at h
    split at h
    · obtain rfl := Except.ok.inj h
      exact .byte _ _
    · cases h
  | character c => cases h
  | pointer n =>
    obtain rfl := Except.ok.inj h
    exact .pointer _ _

theorem resembles_refresh (name : String) (slots : Slots) (x : Variable) :
    x.Resembles (x.refresh name slots) := by
  induction slots with
  | nil => exact .refl x
  | cons e slots ih =>
    obtain ⟨place, n⟩ := e
    simp only [refresh]
    split
    · cases h : (x.refresh name slots).stored n with
      | error e => exact ih
      | ok y => exact ih.trans (resembles_of_stored h)
    · exact ih

theorem Resembles.typeName_eq (h : x.Resembles y) : y.typeName = x.typeName := by
  cases h with
  | integer t hx hy => simp only [typeName, hx, hy]
  | float t hx hy => simp only [typeName, hx, hy]
  | byte | character | pointer => rfl

/-- Whether a variable takes a count does not depend on what it holds. -/
theorem Resembles.stored_iff (h : x.Resembles y) (n : Nat) :
    (∃ x', x.stored n = .ok x') ↔ ∃ y', y.stored n = .ok y' := by
  cases h with
  | integer t hx hy => exact ⟨fun _ => ⟨_, rfl⟩, fun _ => ⟨_, rfl⟩⟩
  | float t hx hy => simp only [stored, bind_eq_ok, pure_eq_ok, exists_comm, exists_and_left,
      exists_eq', and_true]
  | byte b c => exact .rfl
  | character c d => exact .rfl
  | pointer m n => exact .rfl

/-- Where variables refuse counts, they do so for one reason. -/
theorem Resembles.refused (h : x.Resembles y) {m n : Nat} {e e' : Failure}
    (hx : x.stored m = .error e) (hy : y.stored n = .error e') : e' = e := by
  cases h with
  | integer | pointer => cases hx
  | float t hx' hy' =>
    rw [Double.of_ofInteger_eq_error (bind_pure_eq_error.1 hx),
      Double.of_ofInteger_eq_error (bind_pure_eq_error.1 hy)]
  | byte b c =>
    simp only [stored] at hx hy
    split at hx
    · cases hx
    split at hy
    · cases hy
    exact Except.error.inj (hy.symm.trans hx)
  | character c d => exact Except.error.inj (hy.symm.trans hx)

end Variable

/-- An argument that differs at most in its contents from another one, as a value does after other
counts were stored in it. -/
structure Argument.Resembles (a b : Argument) : Prop where
  family : b.family = a.family
  domain : b.domain = a.domain
  size : b.value.size = a.value.size
  place : b.value.place? = a.value.place?
  room : ∀ n, b.value.HasRoomFor n ↔ a.value.HasRoomFor n
  /-- Where both refuse counts, they do so for one reason. -/
  refused : ∀ {m n e e'}, a.value.store m = .error e → b.value.store n = .error e' → e' = e
  /-- Messages can show both, or none for the same reason. -/
  quoted : ∀ e, b.quoted = .error e ↔ a.quoted = .error e

namespace Argument

variable {a b c : Argument}

theorem Resembles.symm (h : a.Resembles b) : b.Resembles a :=
  ⟨h.family.symm, h.domain.symm, h.size.symm, h.place.symm, fun n => (h.room n).symm,
    fun hb ha => (h.refused ha hb).symm, fun e => (h.quoted e).symm⟩

theorem Resembles.trans (h : a.Resembles b) (h' : b.Resembles c) : a.Resembles c := by
  refine ⟨h'.family.trans h.family, h'.domain.trans h.domain, h'.size.trans h.size,
    h'.place.trans h.place, fun n => (h'.room n).trans (h.room n), ?_,
    fun e => (h'.quoted e).trans (h.quoted e)⟩
  intro m n e e'' ha hc
  cases hb : b.value.store m with
  | ok u =>
    obtain ⟨u', hu'⟩ := (h.room m).1 ⟨u, hb⟩
    cases hu'.symm.trans ha
  | error e' => rw [h'.refused hb hc, h.refused ha hb]

/-- Conversions accept both arguments or none. -/
theorem Resembles.suits_eq (h : a.Resembles b) (k : Kind) : b.suits k = a.suits k := by
  simp only [suits, h.family, h.domain, h.size]

end Argument

/-- A variable is the same kind of argument whatever it holds. -/
theorem Variable.Resembles.adapt {x y : Variable} (h : x.Resembles y) :
    x.adapt.Resembles y.adapt := by
  have hroom : ∀ {u v : Value}, (∀ n u', u.store n ≠ .ok u') → (∀ n v', v.store n ≠ .ok v') →
      ∀ n, u.HasRoomFor n ↔ v.HasRoomFor n := fun hu hv n =>
    ⟨fun ⟨u', h⟩ => absurd h (hu n u'), fun ⟨v', h⟩ => absurd h (hv n v')⟩
  have hquoted : ∀ {u v : Value} {q q' : String}, u.quoted = .ok q → v.quoted = .ok q' →
      ∀ e, u.quoted = .error e ↔ v.quoted = .error e := by
    intro u v q q' hu hv e
    rw [hu, hv]
    exact ⟨nofun, nofun⟩
  cases h with
  | @integer t x y hx hy =>
    exact ⟨rfl, rfl, rfl, rfl, hroom nofun nofun, fun h h' => Except.error.inj (h'.symm.trans h),
      hquoted (Value.integerText_of_natAbs_le y.natAbs_le)
        (Value.integerText_of_natAbs_le x.natAbs_le)⟩
  | pointer m n =>
    have htext : ∀ k : Fin (2 ^ 64), (Value.integer k.val).quoted = .ok (Integer.text k.val) :=
      fun k => Value.integerText_of_natAbs_le (by omega)
    exact ⟨rfl, rfl, rfl, rfl, hroom nofun nofun, fun h h' => Except.error.inj (h'.symm.trans h),
      hquoted (htext n) (htext m)⟩
  | float | byte | character =>
    exact ⟨rfl, rfl, rfl, rfl, hroom nofun nofun, fun h h' => Except.error.inj (h'.symm.trans h),
      hquoted rfl rfl⟩

namespace Value

variable (v : Value) (slots : Slots)

@[simp] theorem chars?_refresh : (v.refresh slots).chars? = v.chars? := by cases v <;> rfl

theorem size_refresh : (v.refresh slots).size = v.size := by
  cases v with
  | cell name x =>
    have htype := (x.resembles_refresh name slots).typeName_eq
    simp only [refresh, size, qualifiedTypeName, typeName, htype]
  | _ => rfl

theorem hasRoomFor_refresh (n : Nat) : (v.refresh slots).HasRoomFor n ↔ v.HasRoomFor n := by
  cases v with
  | slot name holds => exact ⟨fun _ => ⟨_, rfl⟩, fun _ => ⟨_, rfl⟩⟩
  | cell name x =>
    have hcell : ∀ y : Variable, (cell name y).HasRoomFor n ↔ ∃ z, y.stored n = .ok z := by
      intro y
      constructor
      · rintro ⟨u, hu⟩
        obtain ⟨z, hz, -⟩ := bind_eq_ok.1 hu
        exact ⟨z, hz⟩
      · rintro ⟨z, hz⟩
        exact ⟨_, bind_eq_ok.2 ⟨z, hz, rfl⟩⟩
    exact (hcell _).trans (((x.resembles_refresh name slots).stored_iff n).symm.trans
      (hcell x).symm)
  | object o =>
    have hobject : ∀ p : Object, (object p).HasRoomFor n ↔ p.name.isSome := by
      intro p
      simp only [HasRoomFor, store]
      cases p.name <;> simp
    exact (hobject _).trans (hobject o).symm
  | _ => exact .rfl

theorem refused_refresh {m n : Nat} {e e' : Failure} (h : v.store m = .error e)
    (h' : (v.refresh slots).store n = .error e') : e' = e := by
  cases v with
  | slot name holds => cases h
  | cell name x =>
    exact (x.resembles_refresh name slots).refused (bind_pure_eq_error.1 h)
      (bind_pure_eq_error.1 h')
  | object o =>
    cases hname : o.name with
    | some name =>
      simp only [store, hname] at h
      cases h
    | none =>
      simp only [store, refresh, Object.refresh, hname] at h h'
      exact Except.error.inj (h'.symm.trans h)
  | _ => exact Except.error.inj (h'.symm.trans h)

theorem quoted_refresh (e : Failure) :
    (v.refresh slots).quoted = .error e ↔ v.quoted = .error e := by
  induction v with
  | slot | cell | object => exact ⟨nofun, nofun⟩
  | argument family v bits signed domain ih =>
    simp only [refresh, quoted, bind_pure_eq_error, ih]
  | _ => exact .rfl

end Value

theorem Argument.resembles_refresh (a : Argument) (slots : Slots) :
    a.Resembles { a with value := a.value.refresh slots } :=
  ⟨rfl, rfl, a.value.size_refresh slots, a.value.place?_refresh slots,
    a.value.hasRoomFor_refresh slots, a.value.refused_refresh slots, a.value.quoted_refresh slots⟩

theorem Argument.Resembles.refl (a : Argument) : a.Resembles a := by
  simpa using a.resembles_refresh []

namespace Value

variable {v : Value} (slots slots' : Slots)

/-- A value is the same kind of argument whatever was stored. -/
theorem adapt_refresh {a : Argument} (ha : v.adapt = .ok a) :
    ∃ b, (v.refresh slots).adapt = .ok b ∧ a.Resembles b := by
  cases v with
  | cell name x =>
    obtain rfl := Except.ok.inj ha
    exact ⟨_, rfl, (x.resembles_refresh name slots).adapt⟩
  | slot | object | argument =>
    obtain rfl := Except.ok.inj ha
    exact ⟨_, rfl, Argument.resembles_refresh _ slots⟩
  | _ => exact ⟨a, ha, .refl a⟩

theorem adapt_refresh_eq_error {e : Failure} :
    (v.refresh slots).adapt = .error e ↔ v.adapt = .error e := by
  cases v with
  | slot | cell | object | argument => exact ⟨nofun, nofun⟩
  | _ => exact .rfl

/-- A value is the same kind of argument after one sequence of stores and after another. -/
theorem exists_adapt_refresh {a : Argument} (ha : (v.refresh slots).adapt = .ok a) :
    ∃ b, (v.refresh slots').adapt = .ok b ∧ a.Resembles b := by
  cases hv : v.adapt with
  | error e => cases ((adapt_refresh_eq_error slots).2 hv).symm.trans ha
  | ok c =>
    obtain ⟨a', ha', hca⟩ := adapt_refresh slots hv
    obtain ⟨b, hb, hcb⟩ := adapt_refresh slots' hv
    obtain rfl := Except.ok.inj (ha'.symm.trans ha)
    exact ⟨b, hb, hca.symm.trans hcb⟩

/-- A value that is a count slot to a conversion shows what was stored in it. -/
theorem adapt_refresh_slot {a : Argument} (ha : v.adapt = .ok a) (hfamily : a.family = .slot) :
    (v.refresh slots).adapt = .ok { a with value := a.value.refresh slots } := by
  cases v with
  | slot | argument =>
    obtain rfl := Except.ok.inj ha
    rfl
  | text t =>
    obtain ⟨cs, -, ha⟩ := bind_eq_ok.1 ha
    obtain rfl := pure_eq_ok.1 ha
    cases hfamily
  | cell name x =>
    obtain rfl := Except.ok.inj ha
    cases x <;> cases hfamily
  | member m =>
    simp only [adapt] at ha
    split at ha
    all_goals
      obtain rfl := Except.ok.inj ha
      cases hfamily
  | _ =>
    obtain rfl := Except.ok.inj ha
    cases hfamily

end Value

end UnitText
