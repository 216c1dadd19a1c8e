import UnitText.Proofs.Format.Failures
import UnitText.Proofs.Run.Frame
import UnitText.Proofs.Template.Grammar
import UnitText.Proofs.Value.Refresh

/-!
# Output that cannot be joined

Output can be joined unless there is a value in it that is no string. Only an argument that was
handed in ready made can bring such a value into the output: one that calls it a text or a
character. What cannot be joined cannot be joined with more output behind it either, and for the
same reason.

## Main definitions

- `Value.isFalseText` — an argument around a value that is no string, though it should be one

## Main statements

- `Run.isFalseText_of_forM` — where the values in output come from
- `Run.join_eq_error_of_forM` — what becomes of output that cannot be joined
-/

namespace UnitText

/-! ## Pieces -/

namespace Piece

variable {n : Nat} {ps : List Piece} {e : Failure}

theorem joinFrom_append_eq_error (h : joinFrom n ps = .error e) (qs : List Piece) :
    joinFrom n (ps ++ qs) = .error e := by
  induction ps generalizing n with
  | nil => cases h
  | cons p ps ih =>
    cases p with
    | value v => exact h
    | chars cs =>
      rw [List.cons_append, joinFrom]
      cases hjoin : joinFrom (n + 1) ps with
      | ok ds =>
        rw [joinFrom, hjoin] at h
        cases h
      | error e' =>
        rw [joinFrom, hjoin] at h
        cases h
        rw [ih hjoin]
        rfl

/-- Only a value that is no string cannot be joined. -/
theorem exists_value_of_joinFrom (h : joinFrom n ps = .error e) : ∃ v, value v ∈ ps := by
  induction ps generalizing n e with
  | nil => cases h
  | cons p ps ih =>
    cases p with
    | value v => exact ⟨v, List.mem_cons_self⟩
    | chars cs =>
      cases hjoin : joinFrom (n + 1) ps with
      | ok ds =>
        rw [joinFrom, hjoin] at h
        cases h
      | error e' =>
        obtain ⟨v, hv⟩ := ih hjoin
        exact ⟨v, List.mem_cons_of_mem _ hv⟩

end Piece

/-! ## Arguments whose value is no string -/

/-- An argument that was handed in as a text or as a character, around a value that is no string. -/
def Value.isFalseText : Value → Bool
  | .argument .text v _ _ _ => v.chars?.isNone
  | .argument .character v _ _ _ => v.chars?.isNone
  | _ => false

/-- Only a ready-made argument can be a text or a character and have a value that is no string. -/
theorem Value.isFalseText_of_adapt {v : Value} {slots : Slots} {a : Argument}
    (ha : (v.refresh slots).adapt = .ok a) (hfamily : a.family = .text ∨ a.family = .character)
    (hvalue : a.value.chars? = Option.none) : v.isFalseText := by
  cases v with
  | argument family u bits signed domain =>
    obtain rfl := Except.ok.inj ha
    rw [chars?_refresh] at hvalue
    rcases hfamily with hfamily | hfamily
    · obtain rfl : family = .text := hfamily
      rw [isFalseText, hvalue]
      rfl
    · obtain rfl : family = .character := hfamily
      rw [isFalseText, hvalue]
      rfl
  | text t =>
    obtain ⟨cs, _, ha⟩ := bind_eq_ok.1 ha
    obtain rfl := pure_eq_ok.1 ha
    simp at hvalue
  | cell name x =>
    obtain rfl := Except.ok.inj ha
    generalize x.refresh name slots = y at hfamily hvalue
    cases y with
    | byte | character => simp [Variable.adapt] at hvalue
    | _ => rcases hfamily with hfamily | hfamily <;> cases hfamily
  | member m =>
    simp only [refresh, adapt] at ha
    split at ha
    all_goals
      obtain rfl := Except.ok.inj ha
      rcases hfamily with hfamily | hfamily <;> cases hfamily
  | _ =>
    obtain rfl := Except.ok.inj ha
    rcases hfamily with hfamily | hfamily <;> cases hfamily

namespace Field

variable {f : Field} {a : Argument} {u : Value}

theorem exists_value_of_padPiece {p : Piece} (h : f.padPiece p = .ok (.value u)) :
    ∃ v, p = .value v := by
  cases p with
  | value v => exact ⟨v, rfl⟩
  | chars cs =>
    obtain ⟨_, _, h⟩ := bind_eq_ok.1 h
    cases pure_eq_ok.1 h

theorem exists_value_of_truncated {p : Piece} (h : f.truncated p = .ok (.value u)) :
    ∃ v, p = .value v := by
  cases p with
  | value v => exact ⟨v, rfl⟩
  | chars cs =>
    unfold truncated at h
    split at h
    · cases h
    · obtain ⟨_, _, h⟩ := bind_eq_ok.1 h
      cases pure_eq_ok.1 h
    · next hp => cases hp

theorem chars?_of_ofValue {v : Value} (h : Piece.ofValue v = .value u) : v.chars? = none := by
  unfold Piece.ofValue at h
  split at h
  · cases h
  · next hv => exact hv

/-- A conversion that writes a value, and not characters, was given a text or a character whose
value is no string. -/
theorem of_render_eq_value (h : f.render a = .ok (.value u)) :
    (a.family = .text ∨ a.family = .character) ∧ a.value.chars? = none := by
  rw [render] at h
  split at h
  case h_3 hkind =>
    obtain ⟨_, hcheck, h⟩ := bind_eq_ok.1 h
    obtain ⟨p, hp, h⟩ := bind_eq_ok.1 h
    obtain ⟨q, hq, hpad⟩ := bind_eq_ok.1 h
    obtain rfl := f.writable_eq_ok hq
    obtain ⟨v, rfl⟩ := exists_value_of_padPiece hpad
    rw [Argument.check_eq_ok, hkind] at hcheck
    rw [charPiece] at hp
    split at hp
    · obtain ⟨_, _, hp⟩ := bind_eq_ok.1 hp
      obtain ⟨_, _, hp⟩ := bind_eq_ok.1 hp
      cases pure_eq_ok.1 hp
    · next hinteger =>
      refine ⟨?_, chars?_of_ofValue (pure_eq_ok.1 hp)⟩
      cases hfamily : a.family with
      | text => exact .inl rfl
      | character => exact .inr rfl
      | integer => exact absurd hfamily hinteger
      | _ =>
        simp [Argument.suits, hfamily] at hcheck
  case h_4 =>
    obtain ⟨_, _, h⟩ := bind_eq_ok.1 h
    obtain ⟨p, hp, h⟩ := bind_eq_ok.1 h
    obtain ⟨q, hq, h⟩ := bind_eq_ok.1 h
    obtain ⟨t, ht, hpad⟩ := bind_eq_ok.1 h
    obtain rfl := f.writable_eq_ok hq
    obtain ⟨v, rfl⟩ := exists_value_of_padPiece hpad
    obtain ⟨v', rfl⟩ := exists_value_of_truncated ht
    rw [stringPiece] at hp
    split at hp
    · next hfamily => exact ⟨hfamily, chars?_of_ofValue (pure_eq_ok.1 hp)⟩
    · obtain ⟨_, _, hp⟩ := bind_eq_ok.1 hp
      cases pure_eq_ok.1 hp
  case h_6 =>
    obtain ⟨_, _, h⟩ := bind_eq_ok.1 h
    obtain ⟨_, _, h⟩ := bind_eq_ok.1 h
    cases pure_eq_ok.1 h
  all_goals
    obtain ⟨_, _, h⟩ := bind_eq_ok.1 h
    cases pure_eq_ok.1 h

end Field

/-! ## Runs -/

namespace Run

variable {w : Width} {t : Token} {ts : List Token} {r r' : Run} {u : Value} {e : Failure}

theorem isFalseText_of_gives (h : t.Gives w r (.value u)) : ∃ v ∈ r.pending, v.isFalseText := by
  cases h with
  | value _ _ hv ha h =>
    obtain ⟨hfamily, hvalue⟩ := Field.of_render_eq_value h
    exact ⟨_, hv, Value.isFalseText_of_adapt ha hfamily hvalue⟩

/-- A value in the output that tokens added comes from an argument that is no text, though it should
be one. -/
theorem isFalseText_of_forM (h : ts.forM (step w) r = .ok () r') (hu : .value u ∈ r'.pieces) :
    .value u ∈ r.pieces ∨ ∃ v ∈ r.pending, v.isFalseText := by
  induction ts generalizing r with
  | nil =>
    obtain ⟨-, rfl⟩ := Run.pure_eq_ok.1 h
    exact .inl hu
  | cons t ts ih =>
    obtain ⟨_, r₁, hstep, hrest⟩ := bind_eq_ok.1 h
    rcases ih hrest with hu | ⟨v, hv, hfalse⟩
    · obtain ⟨p, hgives, hpieces | hpieces⟩ := exists_pieces_of_step hstep
      · rw [hpieces] at hu
        exact .inl hu
      · rw [hpieces] at hu
        rcases List.mem_cons.1 hu with rfl | hu
        · exact .inr (isFalseText_of_gives hgives)
        · exact .inl hu
    · exact .inr ⟨v, (advances_of_step hstep).pending_suffix.subset hv, hfalse⟩

theorem output_prefix_of_forM (h : ts.forM (step w) r = .ok () r') : r.output <+: r'.output := by
  induction ts generalizing r with
  | nil =>
    obtain ⟨-, rfl⟩ := Run.pure_eq_ok.1 h
    exact List.prefix_refl _
  | cons t ts ih =>
    obtain ⟨_, r₁, hstep, hrest⟩ := bind_eq_ok.1 h
    refine List.IsPrefix.trans ?_ (ih hrest)
    obtain ⟨p, -, hpieces | hpieces⟩ := exists_pieces_of_step hstep
    · simp only [output, hpieces, List.prefix_refl]
    · rw [output, output, hpieces, List.reverse_cons]
      exact List.prefix_append _ _

/-- Output that cannot be joined stays so, for the same reason. -/
theorem join_eq_error_of_forM (h : ts.forM (step w) r = .ok () r')
    (hjoin : Piece.join r.output = .error e) : Piece.join r'.output = .error e := by
  obtain ⟨qs, hqs⟩ := output_prefix_of_forM h
  rw [← hqs]
  exact Piece.joinFrom_append_eq_error hjoin qs

/-- Literal text is always added, and counted. -/
theorem exists_forM_of_isLiteral {text : Chars} (hts : ∀ t ∈ ts, t.IsLiteral)
    (hjoin : Piece.join r.output = .ok text) :
    ∃ r' cs, ts.forM (step w) r = .ok () r' ∧ Piece.join r'.output = .ok (text ++ cs) ∧
      r'.written = r.written + w.length cs := by
  induction ts generalizing r text with
  | nil => exact ⟨r, [], rfl, by rwa [List.append_nil], by cases w <;> rfl⟩
  | cons t ts ih =>
    obtain ⟨ht, hliterals⟩ := List.forall_mem_cons.1 hts
    cases t with
    | specifier s => cases ht
    | literal cs offset =>
      obtain ⟨pieces, hemit, hpieces⟩ := exists_emit (w := w) (.chars cs) hjoin
      obtain ⟨r', ds, hrest, hjoin', hwritten⟩ :=
        ih (r := { r with pieces, written := r.written + w.length cs }) hliterals hpieces
      refine ⟨r', cs ++ ds, bind_eq_ok.2 ⟨(), _, hemit, hrest⟩, ?_, ?_⟩
      · rw [hjoin', List.append_assoc]
      · rw [hwritten, Width.length_append, Nat.add_assoc]

/-- Output that cannot be joined behind literal text could not be joined before it. -/
theorem join_eq_error_of_isLiteral (hts : ∀ t ∈ ts, t.IsLiteral)
    (h : ts.forM (step w) r = .ok () r') (hjoin : Piece.join r'.output = .error e) :
    Piece.join r.output = .error e := by
  cases hr : Piece.join r.output with
  | error e' =>
    rw [join_eq_error_of_forM h hr] at hjoin
    exact hjoin
  | ok text =>
    obtain ⟨r₁, cs, hr₁, hjoin₁, -⟩ := exists_forM_of_isLiteral (w := w) hts hr
    cases h.symm.trans hr₁
    cases hjoin.symm.trans hjoin₁

end Run

/-- The output of a run cannot be joined only if an argument is no text, though it should be one. -/
theorem Formatter.isFalseText_of_run {f : Formatter} {slots : Slots} {values : List Value} {r : Run}
    {e : Failure} (h : f.run { pending := values, slots } = .ok () r)
    (hjoin : Piece.join r.output = .error e) : ∃ v ∈ values, v.isFalseText := by
  obtain ⟨u, hu⟩ := Piece.exists_value_of_joinFrom hjoin
  rcases Run.isFalseText_of_forM (run_eq_ok.1 h).1 (List.mem_reverse.1 hu) with hu | hv
  · cases hu
  · exact hv

end UnitText
