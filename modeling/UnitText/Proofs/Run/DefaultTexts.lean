import UnitText.Proofs.Format.Fill
import UnitText.Proofs.Run.ReadBack
import UnitText.Proofs.Template.Canonical
import UnitText.Proofs.Value.DefaultText
import UnitText.Proofs.Value.Refresh

/-!
# Default texts that are formatted

A value has a default text, and a conversion without flags, width and precision writes the same
text of it: a text conversion that accepts the value, and the conversions for truth values, integers
and addresses. But a pointer conversion stores an address in 64 bits and the default text does not,
so the two agree just on the addresses that are stored as they are.

## Main definitions

- `Specifier.plain`, `Field.plain` — a conversion without flags, width and precision
- `Value.WritesDefault` — a template writes the default text of a value

## Main statements

- `addressText_injective` — different addresses have different texts
- `Value.writesDefault_iff` — templates that are a single conversion
- `Value.conversions_write_default` — which conversions write the default text
-/

namespace UnitText

/-! ## Texts of addresses -/

/-- Different numbers have different digits. -/
theorem radixDigits_inj {base m n : ℕ} (hbase : 1 < base) (hbase' : base ≤ 16)
    (h : radixDigits base m = radixDigits base n) : m = n := by
  have hvalue : ∀ n, radixValue? base ((radixDigits base n).map CodePoint.ofChar) = some n := by
    intro n
    obtain ⟨ds, hds, hdigits⟩ := exists_radixDigits hbase n
    rw [hdigits]
    exact hds.radixValue?_eq hbase' fun _ => .inl rfl
  exact Option.some.inj ((hvalue m).symm.trans (h ▸ hvalue n))

theorem hexText_zero (n : ℕ) : hexText 0 n = String.ofList (radixDigits 16 n) := by
  rw [hexText, zeroPadded, List.leftpad, Nat.zero_sub]
  rfl

/-- An address that is not null is written in hexadecimal, with its sign behind the mark. -/
theorem toList_addressText {n : ℤ} (hn : n ≠ 0) : (addressText n).toList =
    '0' :: 'x' :: ((if n < 0 then ['-'] else []) ++ radixDigits 16 n.natAbs) := by
  have hmark : "0x".toList = ['0', 'x'] := rfl
  have hsign : (if n < 0 then "-" else "").toList = if n < 0 then ['-'] else [] := by
    split <;> rfl
  rw [addressText, if_neg hn, hexText_zero, String.toList_append, String.toList_append, hmark,
    hsign, String.toList_ofList]
  rfl

/-- Different numbers have different digits, or only one of them has a minus. -/
theorem signedDigits_injective :
    Function.Injective fun n : ℤ => (if n < 0 then ['-'] else []) ++ radixDigits 16 n.natAbs := by
  have hdigits : ∀ k l : ℕ, '-' :: radixDigits 16 k ≠ radixDigits 16 l := by
    intro k l hkl
    obtain ⟨ds, hds, hl⟩ := exists_radixDigits (by decide : 1 < 16) l
    obtain ⟨d, ds, rfl⟩ := List.exists_cons_of_ne_nil hds.ne_nil
    have hminus : ∀ d < 16, '-' ≠ d.digitChar := by decide
    exact hminus d (hds.lt d List.mem_cons_self) (List.cons.inj (hkl.trans hl)).1
  intro m n h
  simp only at h
  by_cases hm : m < 0
  · rw [if_pos hm] at h
    by_cases hn : n < 0
    · rw [if_pos hn] at h
      have habs := radixDigits_inj (by decide) (by decide) (List.append_cancel_left h)
      omega
    · rw [if_neg hn] at h
      exact absurd h (hdigits _ _)
  · rw [if_neg hm] at h
    by_cases hn : n < 0
    · rw [if_pos hn] at h
      exact absurd h.symm (hdigits _ _)
    · rw [if_neg hn] at h
      have habs := radixDigits_inj (by decide) (by decide) (List.append_cancel_left h)
      omega

/-- Different addresses have different texts. -/
theorem addressText_injective : Function.Injective addressText := by
  have hnil : ∀ {n : ℤ}, n ≠ 0 → addressText n ≠ addressText 0 := by
    intro n hn heq
    have htext := toList_addressText hn
    rw [heq] at htext
    cases htext
  intro m n h
  by_cases hm : m = 0
  · by_contra hne
    have hn : n ≠ 0 := fun hn => hne (hm.trans hn.symm)
    exact hnil hn (hm ▸ h.symm)
  · have hn : n ≠ 0 := by
      rintro rfl
      exact hnil hm h
    have htext := congrArg String.toList h
    rw [toList_addressText hm, toList_addressText hn] at htext
    exact signedDigits_injective (List.cons.inj (List.cons.inj htext).2).2

/-- Addresses and integers in hexadecimal are laid out alike. -/
theorem Value.addressText_integer (n : ℤ) :
    Value.addressText (.integer n) = .ok (UnitText.addressText n) := by
  by_cases hn : n = 0
  · subst hn
    rfl
  · have hzero : (Value.integer n).isZero = .ok false := congrArg Except.ok (beq_false_of_ne hn)
    have hlayout : (Value.integer n).layout 'x' =
        .ok (String.ofList (if n < 0 then '-' :: radixDigits 16 n.natAbs
          else radixDigits 16 n.natAbs)) := rfl
    refine bind_eq_ok.2 ⟨_, hzero, bind_eq_ok.2 ⟨_, hlayout, congrArg Except.ok ?_⟩⟩
    have hmark : "0x".toList = ['0', 'x'] := rfl
    refine String.toList_injective ?_
    rw [toList_addressText hn, String.toList_append, hmark, String.toList_ofList]
    split <;> rfl

/-! ## Conversions without flags -/

/-- A conversion at the beginning of a template, without flags, width and precision. -/
def Specifier.plain (k : Kind) (m : Length) : Specifier where
  kind := k
  length := m
  offset := some 0

/-- Nothing else is scanned from the template that is its spelling. -/
theorem Scan.ofChars_plain {k : Kind} (hk : k ≠ .percent) (m : Length) :
    ofChars (Chars.ofString (Specifier.plain k m).text) =
      { tokens := [.specifier (.plain k m)], failure := none } := by
  let s : SpecifierSource := ⟨{}, none, none, m, k⟩
  let body := Chars.ofString m.text ++ [CodePoint.ofChar k.letter]
  have hwritten : s.IsWritten body := ⟨[], [], [], rfl, nofun, rfl, .none, nofun, .none⟩
  have hpercent : body ≠ [CodePoint.ofChar '%'] := by
    intro heq
    have hlast : body.getLast? = some (CodePoint.ofChar '%') := congrArg List.getLast? heq
    rw [List.getLast?_concat] at hlast
    have hkind := Kind.ofLetter?_eq_some_iff.2 (Option.some.inj hlast).symm
    exact hk (Option.some.inj hkind).symm
  have htext : Chars.ofString (Specifier.plain k m).text = CodePoint.ofChar '%' :: body :=
    Specifier.chars_text _
  rw [htext, ← List.append_nil body]
  exact (ScansTo.specifier hwritten hpercent rfl .nil).unique

namespace Field

variable {a : Argument}

/-- The field of such a conversion, in a template that is a string. -/
def plain (k : Kind) (m : Length) : Field := create (.plain k m) none none .wide32 0

theorem padText_plain (k : Kind) (m : Length) (cs : Chars) : (plain k m).padText cs = .ok cs :=
  (plain k m).padText_bare cs

/-- A text is written as it is. -/
theorem render_string_plain {cs : Chars} (hsuits : a.suits .string = .ok true)
    (hp : stringPiece a = .ok (.chars cs)) :
    (plain .string .none).render a = .ok (.chars cs) := by
  have hcheck : a.check (plain .string .none).spec = .ok () := Argument.check_eq_ok.2 hsuits
  show (plain .string .none).string a = _
  rw [string, hcheck, hp]
  exact bind_eq_ok.2 ⟨(), rfl, bind_eq_ok.2 ⟨_, rfl, bind_eq_ok.2 ⟨_, rfl, bind_eq_ok.2 ⟨_, rfl,
    bind_eq_ok.2 ⟨cs, padText_plain .string .none cs, rfl⟩⟩⟩⟩⟩

/-- A truth value is written as a word. -/
theorem render_boolean_plain (b : Bool) :
    (plain (.integer .signedD) .none).render { family := .boolean, value := .boolean b false } =
      .ok (.chars (Chars.ofString (booleanText b))) := by
  exact bind_eq_ok.2 ⟨_, padText_plain _ _ _, rfl⟩

/-- An integer that fits in 64 bits is written in decimal. -/
theorem render_integer_plain {n : ℤ} (hlower : -2 ^ 63 ≤ n) (hupper : n < 2 ^ 63)
    (bits : Option ℕ) (signed : Bool) :
    (plain (.integer .signedD) .ll).render
        { family := .integer, value := .integer n, bits, signed } =
      .ok (.chars (Chars.ofString (Integer.text n))) := by
  have hstored : stored (plain (.integer .signedD) .ll).spec n = n := by
    have hfits : Integer.IsStored 64 true n n := ⟨rfl, hlower, hupper⟩
    exact hfits.unique (by decide) (Integer.isStored_wrap (by decide))
  have hsigned : (plain (.integer .signedD) .ll).storedInteger n =
      .ok ((if n < 0 then [CodePoint.ofChar '-'] else []) ++
        (decimalDigits n.natAbs).map CodePoint.ofChar) := by
    have hsign : (plain (.integer .signedD) .ll).signChars (n < 0) true =
        if n < 0 then [CodePoint.ofChar '-'] else [] := by
      simp only [signChars, decide_eq_true_eq]
      rfl
    refine bind_eq_ok.2 ⟨decimalDigits n.natAbs, ?_, ?_⟩
    · rw [decimalDigits_eq]
      rfl
    · have hpad := (plain (.integer .signedD) .ll).padNumber_bare
        ((plain (.integer .signedD) .ll).signChars (n < 0) true ++ [])
        (points (decimalDigits n.natAbs)) false
      refine hpad.trans ?_
      rw [List.append_nil, hsign]
      rfl
  have hinteger : (plain (.integer .signedD) .ll).integer .signedD
      { family := .integer, value := .integer n, bits, signed } =
        .ok (Chars.ofString (Integer.text n)) := by
    refine bind_eq_ok.2 ⟨(), rfl, bind_eq_ok.2 ⟨n, rfl, ?_⟩⟩
    rw [hstored, hsigned, Integer.ofString_text]
  exact bind_eq_ok.2 ⟨_, hinteger, rfl⟩

/-- An address is written as it is stored in 64 bits. -/
theorem render_pointer_plain (n : ℤ) (bits : Option ℕ) (signed : Bool) :
    (plain .pointer .none).render { family := .address, value := .integer n, bits, signed } =
      .ok (.chars (Chars.ofString (addressText (Integer.wrap 64 false n)))) := by
  exact bind_eq_ok.2 ⟨_, padText_plain _ _ _, rfl⟩

end Field

/-- Different strings have different characters. -/
theorem Chars.ofString_injective : Function.Injective Chars.ofString := by
  intro s t h
  have hchar : Function.Injective CodePoint.ofChar := fun _ _ => CodePoint.ofChar_inj.1
  exact String.toList_injective (List.map_injective_iff.2 hchar h)

namespace Value

variable {template : String} {k : Kind} {m : Length} {v : Value} {a : Argument} {cs : Chars}

/-- The template writes the default text that the value has after counts were stored. -/
def WritesDefault (template : String) (slots : Slots) (v : Value) : Prop :=
  ∃ cs r, (v.refresh slots).defaultText = .ok (.chars cs) ∧
    ({ container := .chars, template := Chars.ofString template } : Formatter).format slots [v] =
      (.ok (.ofChars cs), r)

/-- A template that is a single conversion writes the default text of a value if the conversion
writes it. -/
theorem writesDefault_iff {slots : Slots} (htemplate : (Specifier.plain k m).text = template)
    (hk : k ≠ .percent) (hm : k.takes m) (ha : (v.refresh slots).adapt = .ok a)
    (htext : a.text = .ok (.chars cs)) {ds : Chars}
    (hrender : (Field.plain k m).render a = .ok (.chars ds)) :
    WritesDefault template slots v ↔ cs = ds := by
  have hdefault : (v.refresh slots).defaultText = .ok (.chars cs) := bind_eq_ok.2 ⟨a, ha, htext⟩
  have hout : (Specifier.plain k m).Outputs .wide32 slots 0 ([] ++ ([] ++ [v])) _ _ :=
    .value hk hm .none .none ha hrender
  let f : Formatter := { container := .chars, template := Chars.ofString template }
  have hscan : Scan.ofChars f.template =
      { tokens := [.specifier (.plain k m)], failure := .none } := by
    rw [← Scan.ofChars_plain hk m, htemplate]
  obtain ⟨r, hformat⟩ := f.exists_format_specifier hscan hout (.chars ds) rfl []
  constructor
  · rintro ⟨cs', r', hcs', hformat'⟩
    obtain rfl := Piece.chars.inj (Except.ok.inj (hdefault.symm.trans hcs'))
    have hsame := congrArg Prod.fst (hformat'.symm.trans hformat)
    exact Text.ofChars_inj.1 (Except.ok.inj hsame)
  · rintro rfl
    exact ⟨cs, r, hdefault, hformat⟩

/-! ## Kinds of values -/

/-- What a text conversion accepts, if it was not handed in as an argument: texts and characters, or
values in the notation of a domain. -/
theorem suits_string_of_adapt (ha : v.adapt = .ok a)
    (hv : ∀ family u bits signed domain, v ≠ argument family u bits signed domain)
    (hsuits : a.suits .string = .ok true) :
    (∃ cs, a.value = ofChars cs ∧ a.domain = Option.none ∧
        (a.family = .text ∨ a.family = .character)) ∨
      ∃ d, a.domain = some d ∧ (a.family = .other ∨ a.family = .integer) := by
  cases v with
  | argument => exact absurd rfl (hv _ _ _ _ _)
  | text t =>
    obtain ⟨cs, -, ha⟩ := bind_eq_ok.1 ha
    obtain rfl := pure_eq_ok.1 ha
    exact .inl ⟨cs, rfl, rfl, .inl rfl⟩
  | cell name x =>
    cases x with
    | byte | character =>
      cases ha
      exact .inl ⟨_, rfl, rfl, .inr rfl⟩
    | integer | float | pointer =>
      cases ha
      cases hsuits
  | member e =>
    refine .inr ⟨.enumeration, ?_⟩
    rw [adapt] at ha
    split at ha <;> cases ha
    · exact ⟨rfl, .inr rfl⟩
    · exact ⟨rfl, .inl rfl⟩
  | boolean | integer | machineInteger | float | machineFloat | none | address | slot =>
    cases ha
    cases hsuits
  | _ =>
    cases ha
    exact .inr ⟨_, rfl, .inl rfl⟩

/-- A text conversion writes the default text. -/
theorem stringPiece_eq_text (ha : v.adapt = .ok a)
    (hv : ∀ family u bits signed domain, v ≠ argument family u bits signed domain)
    (hsuits : a.suits .string = .ok true) {p : Piece} (hp : a.text = .ok p) :
    ∃ cs, p = .chars cs ∧ Field.stringPiece a = .ok (.chars cs) := by
  have hkind := suits_string_of_adapt ha hv hsuits
  obtain ⟨family, value, bits, signed, domain⟩ := a
  rcases hkind with ⟨cs, rfl, rfl, hfamily⟩ | ⟨d, rfl, hfamily⟩
  · have htext : Argument.text { family, value := ofChars cs, bits, signed } =
        .ok (.ofValue (ofChars cs)) := by
      rcases hfamily with rfl | rfl <;> rfl
    have hpiece : Field.stringPiece { family, value := ofChars cs, bits, signed } =
        .ok (.ofValue (ofChars cs)) := if_pos hfamily
    rw [Piece.ofValue_ofChars] at htext hpiece
    exact ⟨cs, Except.ok.inj (hp.symm.trans htext), hpiece⟩
  · have hrender : (value.render (some d) >>= fun cs => pure (.chars cs)) = .ok p := by
      rcases hfamily with rfl | rfl <;> exact hp
    have hnone : ¬(family = .text ∨ family = .character) := by
      rcases hfamily with rfl | rfl <;> simp
    obtain ⟨cs, hcs, hp⟩ := bind_eq_ok.1 hrender
    refine ⟨cs, (pure_eq_ok.1 hp).symm, ?_⟩
    rw [Field.stringPiece, if_neg hnone, hcs]
    rfl

theorem writesDefault_string {slots : Slots} (ha : (v.refresh slots).adapt = .ok a)
    (hv : ∀ family u bits signed domain, v ≠ argument family u bits signed domain)
    (hsuits : a.suits .string = .ok true) {p : Piece}
    (hp : (v.refresh slots).defaultText = .ok p) : WritesDefault "%s" slots v := by
  have hrefresh : ∀ family u bits signed domain,
      v.refresh slots ≠ argument family u bits signed domain := by
    intro family u bits signed domain
    cases v with
    | argument => exact absurd rfl (hv _ _ _ _ _)
    | _ => nofun
  obtain ⟨a', ha', htext⟩ := bind_eq_ok.1 hp
  obtain rfl := Except.ok.inj (ha.symm.trans ha')
  obtain ⟨cs, rfl, hpiece⟩ := stringPiece_eq_text ha hrefresh hsuits htext
  exact (writesDefault_iff rfl (by decide) rfl ha htext
    (Field.render_string_plain hsuits hpiece)).2 rfl

theorem writesDefault_boolean (b isElement : Bool) (slots : Slots) :
    WritesDefault "%d" slots (boolean b isElement) := by
  have htext : Argument.text { family := .boolean, value := boolean b false } =
      .ok (.chars (Chars.ofString (booleanText b))) := by
    cases b <;> rfl
  exact (writesDefault_iff rfl (by decide) rfl rfl htext (Field.render_boolean_plain b)).2 rfl

/-- An integer of any type, by the argument that it is. -/
theorem writesDefault_integer {n : ℤ} (hlower : -2 ^ 63 ≤ n) (hupper : n < 2 ^ 63)
    {bits : Option ℕ} {signed : Bool} {slots : Slots}
    (ha : (v.refresh slots).adapt = .ok { family := .integer, value := integer n, bits, signed }) :
    WritesDefault "%lld" slots v := by
  have hdigits : digitCount n.natAbs ≤ Integer.digitLimit := by
    have hcount : digitCount n.natAbs ≤ 20 := digitCount_le (by decide) (by omega)
    exact hcount.trans (by decide)
  have htext : Argument.text { family := .integer, value := integer n, bits, signed } =
      .ok (.chars (Chars.ofString (Integer.text n))) :=
    bind_eq_ok.2 ⟨n, rfl, bind_eq_ok.2 ⟨_, integerText_eq hdigits, rfl⟩⟩
  exact (writesDefault_iff rfl (by decide) rfl ha htext
    (Field.render_integer_plain hlower hupper bits signed)).2 rfl

/-- An address of any type: what is stored of it has to be the address itself. -/
theorem writesDefault_address_iff {n : ℤ} {bits : Option ℕ} {signed : Bool} {slots : Slots}
    (ha : (v.refresh slots).adapt = .ok { family := .address, value := integer n, bits, signed }) :
    WritesDefault "%p" slots v ↔ 0 ≤ n ∧ n < 2 ^ 64 := by
  have htext : Argument.text { family := .address, value := integer n, bits, signed } =
      .ok (.chars (Chars.ofString (UnitText.addressText n))) :=
    bind_eq_ok.2 ⟨_, addressText_integer n, rfl⟩
  have hwrap : n = Integer.wrap 64 false n ↔ 0 ≤ n ∧ n < 2 ^ 64 := by
    simp only [Integer.wrap, Bool.false_eq_true, ↓reduceIte]
    omega
  have htemplate : (Specifier.plain .pointer .none).text = "%p" := rfl
  rw [writesDefault_iff htemplate (by decide) rfl ha htext
    (Field.render_pointer_plain n bits signed), Chars.ofString_injective.eq_iff,
    addressText_injective.eq_iff, hwrap]

/-- A pointer in a variable has 64 bits, whatever is stored in it. -/
theorem writesDefault_pointer (name : String) (n : Fin (2 ^ 64)) (slots : Slots) :
    WritesDefault "%p" slots (cell name (.pointer n)) := by
  have hpointer := Variable.resembles_refresh name slots (.pointer n)
  generalize hx : Variable.refresh name slots (.pointer n) = x at hpointer
  cases hpointer with
  | pointer _ m =>
    have ha : ((cell name (.pointer n)).refresh slots).adapt =
        .ok (Variable.adapt (.pointer m)) := by
      rw [refresh, hx]
      rfl
    exact (writesDefault_address_iff ha).2 (by omega)

/-- **Conversions write default texts.** A text conversion writes the default text of each value
that it accepts and that has one, a decimal conversion that of truth values, and of the integers
that fit in the 64 bits of its length modifier, those of machine types and in variables too. A
pointer conversion writes that of an address if and only if it fits in 64 bits without a sign: the
null address and the pointers in variables do. -/
theorem conversions_write_default (slots : Slots) :
    (∀ v a p, (∀ family u bits signed domain, v ≠ argument family u bits signed domain) →
      (v.refresh slots).adapt = .ok a → a.suits .string = .ok true →
      (v.refresh slots).defaultText = .ok p → WritesDefault "%s" slots v) ∧
    (∀ b isElement, WritesDefault "%d" slots (boolean b isElement)) ∧
    (∀ n : ℤ, -2 ^ 63 ≤ n → n < 2 ^ 63 → WritesDefault "%lld" slots (integer n)) ∧
    (∀ x : MachineInteger, -2 ^ 63 ≤ x.value → x.value < 2 ^ 63 →
      WritesDefault "%lld" slots (machineInteger x)) ∧
    (∀ name x (y : MachineInteger), Variable.refresh name slots x = .integer y →
      -2 ^ 63 ≤ y.value → y.value < 2 ^ 63 → WritesDefault "%lld" slots (cell name x)) ∧
    WritesDefault "%p" slots none ∧
    (∀ n : ℤ, WritesDefault "%p" slots (address n) ↔ 0 ≤ n ∧ n < 2 ^ 64) ∧
    ∀ name n, WritesDefault "%p" slots (cell name (.pointer n)) := by
  refine ⟨?_, ?_, ?_, ?_, ?_, ?_, ?_, ?_⟩
  · intro v a p hv ha hsuits hp
    exact writesDefault_string ha hv hsuits hp
  · intro b isElement
    exact writesDefault_boolean b isElement slots
  · intro n hlower hupper
    exact writesDefault_integer hlower hupper rfl
  · intro x hlower hupper
    exact writesDefault_integer hlower hupper rfl
  · intro name x y hy hlower hupper
    have ha : ((cell name x).refresh slots).adapt = .ok (Variable.adapt (.integer y)) := by
      rw [refresh, hy]
      rfl
    exact writesDefault_integer hlower hupper ha
  · exact (writesDefault_address_iff rfl).2 (by decide)
  · intro n
    exact writesDefault_address_iff rfl
  · intro name n
    exact writesDefault_pointer name n slots

/-- A duration, the least integer of 64 bits, the greatest address of 64 bits and one that is
negative. -/
theorem conversions_write_default_bounds :
    (duration ⟨-1⟩).defaultText = .ok (.chars (Chars.ofString "-00:00:00.0000010")) ∧
    WritesDefault "%s" [] (duration ⟨-1⟩) ∧
    WritesDefault "%lld" [] (integer (-9223372036854775808)) ∧
    WritesDefault "%p" [] (address 18446744073709551615) ∧
    ¬WritesDefault "%p" [] (address (-1)) := by
  have htext : (duration ⟨-1⟩).defaultText = .ok (.chars (Chars.ofString "-00:00:00.0000010")) := by
    decide +kernel
  obtain ⟨hstring, -, hinteger, -, -, -, haddress, -⟩ := conversions_write_default []
  refine ⟨htext, hstring _ _ _ nofun rfl rfl htext, ?_, ?_, ?_⟩
  · exact hinteger (-9223372036854775808) (by decide) (by decide)
  · exact (haddress 18446744073709551615).2 (by decide)
  · exact fun h => absurd ((haddress (-1)).1 h).1 (by decide)

/-- A negative address has a minus in its default text, and none where it is formatted. -/
theorem not_conversions_write_default : ¬∀ n : ℤ, WritesDefault "%p" [] (address n) := by
  intro h
  obtain ⟨cs, r, hdefault, hformat⟩ := h (-1)
  have htext : (address (-1)).defaultText = .ok (.chars (Chars.ofString "0x-1")) := by
    decide +kernel
  have hwritten : (({ container := .chars, template := Chars.ofString "%p" } : Formatter).format []
      [address (-1)]).1 = .ok (.ofString "0xffffffffffffffff") := by
    decide +kernel
  obtain rfl := Piece.chars.inj (Except.ok.inj (hdefault.symm.trans htext))
  rw [hformat] at hwritten
  have hsame := Text.ofChars_inj.1 (Except.ok.inj hwritten)
  exact absurd (Chars.ofString_injective hsame) (by decide)

end Value

end UnitText
