import UnitText.Command.Run
import UnitText.Proofs.Numeral.MostSpecific
import UnitText.Proofs.Run.Refusals
import UnitText.Proofs.Text.Decoded
import UnitText.Proofs.Text.Search

/-!
# How command lines end

A command line that is a request ends in a status: with the result of the request, or with a problem
of it and no output. There are exceptions, failures that are no problems and leave the program: for
formatting, numbers that are too large to be converted, shown, read or met; for splitting and
comparing, words that were taken away from the request; and for all requests, lines with surrogates,
which cannot be printed.

## Main definitions

- `IsPrintable` — a line that can be printed
- `Formats` — what arguments are formatted to
- `Request.Gives`, `Request.Reports`, `Request.Escapes` — the lines, the problems and the failures
  of a request
- `EndsInStatus` — a command line that ends in a status

## Main statements

- `print_eq`, `print_of_surrogates` — what is printed of lines
- `Request.gives_or_reports_or_escapes` — there is always one of them
- `run_ends` — how command lines end
-/

namespace UnitText

namespace Command

/-- A line that can be printed has no surrogates. -/
def IsPrintable (line : Chars) : Prop := ∀ c ∈ line, ¬c.IsSurrogate

instance : DecidablePred IsPrintable :=
  fun line => inferInstanceAs (Decidable (∀ c ∈ line, ¬c.IsSurrogate))

/-- What arguments are formatted to with a template, each as the most specific value that it
writes. -/
def Formats (template : Chars) (arguments : List Chars) (result : Except Failure Text) : Prop :=
  ∃ values, arguments.mapM (fun cs => autoValue (.ofChars cs)) = .ok values ∧
    ((Formatter.ofChars template).format [] values).1 = result

namespace Request

/-- The lines of the result of a request. -/
inductive Gives : Request → List Chars → Prop where
  | format {template cs : Chars} {arguments : List Chars}
    (h : Formats template arguments (.ok (.ofChars cs))) : Gives (.format template arguments) [cs]
  | split {text : Chars} {separators : List (Option CodePoint)} {limit : ItemLimit}
    {count : Option Int} {removeEmpty : Bool} {items : List Chars}
    (hcount : itemCount limit = .ok count)
    (h : (Value.ofChars text).split (.list (separators.map optionValue)) count removeEmpty =
      .ok (items.map .ofChars)) :
    Gives (.split text separators limit removeEmpty) items
  | compare {a b : Chars} {ignoreCase : Bool} {order : Ordering}
    (h : Text.compare ignoreCase (.ofChars a) (.ofChars b) = .ok order) :
    Gives (.compare a (some b) ignoreCase) [Chars.ofString (orderText order)]
  | lower {text cs : Chars} (h : (Text.ofChars text).toLower = .ofChars cs) :
    Gives (.lower text) [cs]
  | upper {text cs : Chars} (h : (Text.ofChars text).toUpper = .ofChars cs) :
    Gives (.upper text) [cs]

/-- The problem that a request is refused for. -/
inductive Reports : Request → Problem → Prop where
  | format {template : Chars} {arguments : List Chars} {p : Problem}
    (h : Formats template arguments (.error (.problem p)))
    (hcategory : p.category = .malformedTemplate ∨ p.category = .missingArgument ∨
      p.category = .kindMismatch) (hoffset : p.offset.isSome) :
    Reports (.format template arguments) p
  | split {text : Chars} {separators : List (Option CodePoint)} {n : Int} {removeEmpty : Bool}
    (hn : n < 0) : Reports (.split text separators (.atMost n) removeEmpty) (.negativeCount n)

/-- The failure that leaves the program, with neither all lines of a result nor a problem, and what
was printed by then. -/
inductive Escapes : Request → Failure → Chars → Prop where
  /-- An argument, behind others that are values, writes a number that integers have no room for. -/
  | conversion {template : Chars} {front behind : List Chars} {cs : Chars} {n : Numeral}
    {e : Failure} (hfront : ∀ ds ∈ front, ∃ v, autoValue (.ofChars ds) = .ok v)
    (hn : n.IsWritten .any cs) (he : n.Exceeds .integer e) :
    Escapes (.format template (front ++ cs :: behind)) e []
  /-- An integer is refused, but has too many digits to be shown. -/
  | oversized {template cs : Chars} {arguments : List Chars} {n : Int}
    (h : Formats template arguments (.error (.value .tooLongToWrite))) (hcs : cs ∈ arguments)
    (hvalue : autoValue (.ofChars cs) = .ok (.integer n)) (hn : Integer.IsTooLong n) :
    Escapes (.format template arguments) (.value .tooLongToWrite) []
  /-- A width or a precision is written with too many digits to be read. -/
  | unreadable {template : Chars} {arguments : List Chars} {n : Nat}
    (h : Formats template arguments (.error (.value (.tooLongToRead n))))
    (hn : Integer.digitLimit < n)
    (hscan : (Scan.ofChars template).failure = some (.value (.tooLongToRead n))) :
    Escapes (.format template arguments) (.value (.tooLongToRead n)) []
  /-- A width or a precision is written that is too large. -/
  | exceeded {template : Chars} {arguments : List Chars} {s : Specifier} {e : Failure}
    (h : Formats template arguments (.error e))
    (hs : .specifier s ∈ (Scan.ofChars template).tokens) (he : s.Exceeds e) :
    Escapes (.format template arguments) e []
  /-- The number of items was taken away. -/
  | count {text : Chars} {separators : List (Option CodePoint)} {removeEmpty : Bool} :
    Escapes (.split text separators .takenAway removeEmpty) (.type (.notOrdered "list" "int")) []
  /-- A separator was taken away, and there is something to split. -/
  | separator {text : Chars} {separators : List (Option CodePoint)} {limit : ItemLimit}
    {count : Option Int} {removeEmpty : Bool} (hcount : itemCount limit = .ok count)
    (hlimit : ∀ n ∈ count, 2 ≤ n) (hseparators : none ∈ separators) :
    Escapes (.split text separators limit removeEmpty) (.value (.notUnit "[]")) []
  /-- The second text was taken away. -/
  | operand {a : Chars} {ignoreCase : Bool} :
    Escapes (.compare a none ignoreCase) (.type (.notText "list")) []
  /-- A line of the result, behind others that are printed, has surrogates. -/
  | printing {r : Request} {front behind : List Chars} {line : Chars} {fault : EncodingFault}
    (h : r.Gives (front ++ line :: behind)) (hfront : ∀ ds ∈ front, IsPrintable ds)
    (hline : Utf8.surrogates? line = some fault) :
    Escapes r (.encoding fault) (unlines front)

end Request

/-! ## Printing -/

section

variable {lines front behind : List Chars} {line : Chars} {fault : EncodingFault}

theorem print_eq (h : ∀ line ∈ lines, IsPrintable line) : print lines = (unlines lines, none) := by
  induction lines with
  | nil => rfl
  | cons line lines ih =>
    obtain ⟨hline, hlines⟩ := List.forall_mem_cons.1 h
    rw [print, Utf8.surrogates?_eq_none_iff.2 hline, ih hlines]
    rfl

/-- Printing fails at the first line with surrogates, behind the lines before it. -/
theorem print_of_surrogates (hfront : ∀ line ∈ front, IsPrintable line)
    (hline : Utf8.surrogates? line = some fault) :
    print (front ++ line :: behind) = (unlines front, some (.encoding fault)) := by
  induction front with
  | nil => rw [List.nil_append, print, hline]; rfl
  | cons first front ih =>
    obtain ⟨hfirst, hfront⟩ := List.forall_mem_cons.1 hfront
    rw [List.cons_append, print, Utf8.surrogates?_eq_none_iff.2 hfirst, ih hfront]
    rfl

/-- Lines can all be printed, or there is a first one with surrogates. -/
theorem printable_or_exists (lines : List Chars) :
    (∀ line ∈ lines, IsPrintable line) ∨ ∃ front line behind fault,
      lines = front ++ line :: behind ∧ (∀ ds ∈ front, IsPrintable ds) ∧
        Utf8.surrogates? line = some fault := by
  induction lines with
  | nil => exact .inl (List.forall_mem_nil _)
  | cons line lines ih =>
    cases hline : Utf8.surrogates? line with
    | some fault => exact .inr ⟨[], line, lines, fault, rfl, List.forall_mem_nil _, hline⟩
    | none =>
      have hprintable : IsPrintable line := Utf8.surrogates?_eq_none_iff.1 hline
      refine ih.imp (fun h => List.forall_mem_cons.2 ⟨hprintable, h⟩) ?_
      rintro ⟨front, first, behind, fault, rfl, hfront, hfirst⟩
      exact ⟨line :: front, first, behind, fault, rfl, List.forall_mem_cons.2 ⟨hprintable, hfront⟩,
        hfirst⟩

end

/-! ## Formatting -/

section

variable {template cs : Chars} {arguments : List Chars} {e : Failure} {result : Except Failure Text}

theorem result_format_of_formats (h : Formats template arguments result) (verbosity : Nat) :
    (format verbosity template arguments).result = result.map fun t => [t.unitChars] := by
  obtain ⟨values, hvalues, rfl⟩ := h
  rw [format, hvalues, Formatter.fst_format_ofChars]
  show ((Formatter.ofChars template).execute { pending := values }).1.map ([·]) = _
  cases ((Formatter.ofChars template).execute { pending := values }).1 with
  | error e => rfl
  | ok cs => exact congrArg (fun cs : Chars => Except.ok [cs]) (Text.unitChars_ofChars cs).symm

/-- Arguments are recognised as basic values. -/
theorem isBasic_of_autoValue {t : Text} {v : Value} (h : autoValue t = .ok v) : v.isBasic := by
  rcases autoValue_cases h with ⟨n, rfl⟩ | ⟨x, rfl⟩ | ⟨b, rfl⟩ | rfl <;> rfl

/-- Arguments are adapted, and only integers to integers. -/
theorem adapt_of_autoValue {v : Value} (h : autoValue (.ofChars cs) = .ok v) :
    ∃ a, v.adapt = .ok a ∧ ∀ n, a.value = .integer n → v = .integer n := by
  rcases autoValue_cases h with ⟨n, rfl⟩ | ⟨x, rfl⟩ | ⟨b, rfl⟩ | rfl
  · exact ⟨_, rfl, fun _ h => h⟩
  · exact ⟨_, rfl, nofun⟩
  · exact ⟨_, rfl, nofun⟩
  · refine ⟨{ family := .text, value := .ofChars cs }, ?_, nofun⟩
    show (do let cs ← (Text.ofChars cs).decode; pure _) = _
    rw [Text.decode_ofChars]
    rfl

/-- Formatting that fails reports a problem, or escapes. -/
theorem reports_or_escapes_of_formats (h : Formats template arguments (.error e)) :
    (∃ p, e = .problem p ∧ (Request.format template arguments).Reports p) ∨
      (Request.format template arguments).Escapes e [] := by
  obtain ⟨values, hvalues, hformat⟩ := h
  have hbasic : ∀ v ∈ values, v.isBasic := by
    intro v hv
    obtain ⟨cs, -, hcs⟩ := exists_of_mem_mapM hvalues hv
    exact isBasic_of_autoValue hcs
  rcases Formatter.failure_of_format hbasic hformat with hfailure | ⟨s, hs, he⟩
  · cases hfailure with
    | problem hcategory hoffset =>
      exact .inl ⟨_, rfl, .format ⟨values, hvalues, hformat⟩ hcategory hoffset⟩
    | oversized hv ha hvalue hn =>
      obtain ⟨cs, hmem, hcs⟩ := exists_of_mem_mapM hvalues hv
      obtain ⟨a, ha', hinteger⟩ := adapt_of_autoValue hcs
      obtain rfl := Except.ok.inj (ha.symm.trans ha')
      obtain rfl := hinteger _ hvalue
      exact .inr (.oversized ⟨values, hvalues, hformat⟩ hmem hcs hn)
    | undecodable hv hadapt =>
      obtain ⟨cs, -, hcs⟩ := exists_of_mem_mapM hvalues hv
      obtain ⟨a, ha, -⟩ := adapt_of_autoValue hcs
      cases ha.symm.trans hadapt
    | unreadable hn hscan => exact .inr (.unreadable ⟨values, hvalues, hformat⟩ hn hscan)
  · exact .inr (.exceeded ⟨values, hvalues, hformat⟩ hs he)

end

/-! ## Splitting -/

section

variable {text : Chars} {separators : List (Option CodePoint)} {count : Option Int}

theorem codeUnit_separator (c : CodePoint) :
    Value.codeUnit .wide32 (optionValue (some c)) = .ok c.val := by
  have hcharacter : Value.characterUnit .wide32 c = .ok c.val :=
    bind_eq_ok.2 ⟨[c.val], rfl, Value.fittingUnit_of_lt (c.val_lt.trans (by decide))⟩
  show Value.characterUnit .wide32 (.ofNat c.val) = _
  rw [CodePoint.ofNat_val, hcharacter]

/-- A separator is its number, and one that was taken away is refused. -/
theorem units_separators (separators : List (Option CodePoint)) :
    (Separators.list (separators.map optionValue)).units .wide32 =
      if none ∈ separators then .error (.value (.notUnit "[]"))
      else .ok (separators.reduceOption.map CodePoint.val) := by
  show (separators.map optionValue).mapM (Value.codeUnit .wide32) = _
  induction separators with
  | nil => rfl
  | cons s separators ih =>
    rw [List.map_cons, List.mapM_cons, ih]
    cases s with
    | none => rfl
    | some c =>
      rw [codeUnit_separator]
      by_cases hnone : none ∈ separators
      · simp only [List.mem_cons, reduceCtorEq, hnone, or_true, if_true]
        rfl
      · simp only [List.mem_cons, reduceCtorEq, hnone, or_false, if_false]
        rfl

/-- A separator that was taken away is noticed if there is something to split. -/
theorem split_of_none_mem (hcount : ∀ n ∈ count, 2 ≤ n) (hseparators : none ∈ separators)
    (removeEmpty : Bool) :
    (Value.ofChars text).split (.list (separators.map optionValue)) count removeEmpty =
      .error (.value (.notUnit "[]")) := by
  have hunits : (Separators.list (separators.map optionValue)).units (Text.ofChars text).width =
      .error (.value (.notUnit "[]")) :=
    (units_separators separators).trans (if_pos hseparators)
  rw [Value.ofChars, Value.split_of_two_le hcount, hunits]
  rfl

theorem map_text_eq {ts : List Text} (h : ∀ t ∈ ts, t.container = .chars) :
    ts.map Value.text = (ts.map Text.unitChars).map .ofChars := by
  rw [List.map_map]
  exact List.map_congr_left fun t ht => congrArg Value.text (Text.ofChars_unitChars (h t ht)).symm

/-- A string is split into strings. -/
theorem exists_split_of_none_not_mem (hcount : ∀ n ∈ count, 2 ≤ n) (hseparators : none ∉ separators)
    (removeEmpty : Bool) :
    ∃ items : List Chars,
      (Value.ofChars text).split (.list (separators.map optionValue)) count removeEmpty =
        .ok (items.map .ofChars) := by
  have hunits : (Separators.list (separators.map optionValue)).units (Text.ofChars text).width =
      .ok (separators.reduceOption.map CodePoint.val) :=
    (units_separators separators).trans (if_neg hseparators)
  have hseps : ∀ u ∈ separators.reduceOption.map CodePoint.val, u < 0x110000 := by
    intro u hu
    obtain ⟨c, -, rfl⟩ := List.mem_map.1 hu
    exact c.val_lt
  have hsplit := Text.split_eq_ok hseps (Text.ofChars text).units_lt (two_le_toNat_of_mem hcount)
    removeEmpty
  rw [Value.ofChars, Value.split_eq hunits hcount, hsplit]
  refine ⟨_, congrArg Except.ok (map_text_eq fun t ht => ?_)⟩
  obtain ⟨us, -, rfl⟩ := List.mem_map.1 ht
  rfl

theorem split_eq_error {limit : ItemLimit} {removeEmpty : Bool} {e : Failure}
    (hcount : itemCount limit = .ok count)
    (h : (Value.ofChars text).split (.list (separators.map optionValue)) count removeEmpty =
      .error e) :
    split text separators limit removeEmpty = .error e := by
  rw [split, hcount]
  show (_ >>= fun items => List.mapM Value.asChars items) = _
  rw [h]
  rfl

end

/-! ## Requests -/

namespace Request

variable {r : Request} {lines : List Chars} {p : Problem} {e : Failure}

theorem Gives.result_eq (h : r.Gives lines) (verbosity : Nat) :
    (respond { verbosity, request := r }).result = .ok lines := by
  cases h with
  | @format template cs arguments h =>
    rw [respond, result_format_of_formats h]
    exact congrArg (fun cs : Chars => Except.ok [cs]) (Text.unitChars_ofChars cs)
  | split hcount h =>
    refine bind_eq_ok.2 ⟨_, hcount, bind_eq_ok.2 ⟨_, h, ?_⟩⟩
    rw [List.mapM_map]
    have hchars : lines.mapM (fun cs => (Value.ofChars cs).asChars) = .ok (lines.map id) := by
      refine mapM_eq_ok fun cs _ => ?_
      rw [Value.asChars, Value.chars?_ofChars]
      rfl
    rwa [List.map_id] at hchars
  | compare h => exact bind_eq_ok.2 ⟨_, h, rfl⟩
  | @lower text cs h =>
    show Except.ok [(Text.ofChars text).toLower.unitChars] = _
    rw [h, Text.unitChars_ofChars]
  | @upper text cs h =>
    show Except.ok [(Text.ofChars text).toUpper.unitChars] = _
    rw [h, Text.unitChars_ofChars]

theorem Reports.result_eq (h : r.Reports p) (verbosity : Nat) :
    (respond { verbosity, request := r }).result = .error (.problem p) := by
  cases h with
  | format h => exact result_format_of_formats h verbosity
  | split hn => exact split_eq_error rfl (Value.split_of_neg hn _ _)

/-- A failure of the request that is no problem leaves the program, and nothing is printed. -/
theorem run_eq_failed {argv : List Chars} {i : Invocation}
    (hrequest : Invocation.ofArguments argv = .ok i) (hresult : (respond i).result = .error e)
    (he : ∀ p, e ≠ .problem p) : run argv = .failed e [] := by
  cases e with
  | problem p => exact absurd rfl (he p)
  | _ => simp only [run, hrequest, hresult]

/-- A failure that escapes is that of the request, or that of printing its result. -/
theorem Escapes.run_eq {argv : List Chars} {output : Chars} {verbosity : Nat}
    (h : r.Escapes e output)
    (hrequest : Invocation.ofArguments argv = .ok { verbosity, request := r }) :
    run argv = .failed e output := by
  have hvalue : ∀ f p, Failure.value f ≠ .problem p := fun _ _ h => Failure.noConfusion h
  have htype : ∀ f p, Failure.type f ≠ .problem p := fun _ _ h => Failure.noConfusion h
  cases h with
  | @conversion template front behind cs n e hfront hn he =>
    have hcs := autoValue_eq_error.2 ⟨n, hn, he⟩
    have hvalues := mapM_eq_error.2 ⟨front, cs, behind, rfl, hfront, hcs⟩
    refine run_eq_failed hrequest ?_ fun p => ?_
    · simp only [respond, Command.format, hvalues]
    · cases he
      nofun
  | oversized h =>
    exact run_eq_failed hrequest (result_format_of_formats h verbosity) (hvalue _)
  | unreadable h =>
    exact run_eq_failed hrequest (result_format_of_formats h verbosity) (hvalue _)
  | exceeded h _ he =>
    refine run_eq_failed hrequest (result_format_of_formats h verbosity) fun p => ?_
    cases he <;> nofun
  | count => exact run_eq_failed hrequest rfl (htype _)
  | separator hcount hlimit hseparators =>
    exact run_eq_failed hrequest (split_eq_error hcount (split_of_none_mem hlimit hseparators _))
      (hvalue _)
  | operand => exact run_eq_failed hrequest rfl (htype _)
  | printing h hfront hline =>
    simp only [run, hrequest, h.result_eq verbosity, print_of_surrogates hfront hline]

/-- The lines of a result can be printed, or a failure escapes when they are. -/
theorem Gives.printable_or_escapes (h : r.Gives lines) :
    (∃ lines, r.Gives lines ∧ ∀ line ∈ lines, IsPrintable line) ∨
      ∃ e output, r.Escapes e output := by
  rcases printable_or_exists lines with
    hprintable | ⟨front, line, behind, fault, rfl, hfront, hline⟩
  · exact .inl ⟨lines, h, hprintable⟩
  · exact .inr ⟨_, _, .printing h hfront hline⟩

/-- A text is split into items, unless a separator was taken away. -/
theorem gives_or_escapes_of_two_le {text : Chars} {separators : List (Option CodePoint)}
    {limit : ItemLimit} {count : Option Int} (removeEmpty : Bool)
    (hcount : itemCount limit = .ok count) (hlimit : ∀ n ∈ count, 2 ≤ n) :
    (∃ lines, (split text separators limit removeEmpty).Gives lines) ∨
      ∃ e output, (split text separators limit removeEmpty).Escapes e output := by
  by_cases hseparators : none ∈ separators
  · exact .inr ⟨_, _, .separator hcount hlimit hseparators⟩
  · obtain ⟨items, hitems⟩ := exists_split_of_none_not_mem hlimit hseparators removeEmpty
    exact .inl ⟨items, .split hcount hitems⟩

/-- A request gives a result that can be printed, or it is refused with a problem, or a failure
escapes. -/
theorem gives_or_reports_or_escapes (r : Request) :
    (∃ lines, r.Gives lines ∧ ∀ line ∈ lines, IsPrintable line) ∨ (∃ p, r.Reports p) ∨
      ∃ e output, r.Escapes e output := by
  -- that lines can be printed is settled once, for whatever the request gives
  suffices hends : (∃ lines, r.Gives lines) ∨ (∃ p, r.Reports p) ∨ ∃ e output, r.Escapes e output by
    rcases hends with ⟨lines, h⟩ | hfails
    · exact h.printable_or_escapes.imp_right .inr
    · exact .inr hfails
  cases r with
  | format template arguments =>
    cases hvalues : arguments.mapM fun cs => autoValue (.ofChars cs) with
    | error e =>
      obtain ⟨front, cs, behind, rfl, hfront, hcs⟩ := mapM_eq_error.1 hvalues
      obtain ⟨n, hn, he⟩ := autoValue_eq_error.1 hcs
      exact .inr (.inr ⟨e, _, .conversion hfront hn he⟩)
    | ok values =>
      cases hformat : ((Formatter.ofChars template).format [] values).1 with
      | error e =>
        rcases reports_or_escapes_of_formats ⟨values, hvalues, hformat⟩ with
          ⟨p, -, hreports⟩ | hescapes
        · exact .inr (.inl ⟨p, hreports⟩)
        · exact .inr (.inr ⟨e, _, hescapes⟩)
      | ok t =>
        obtain ⟨cs, rfl⟩ := Formatter.exists_eq_ofChars_of_format hformat
        exact .inl ⟨[cs], .format ⟨values, hvalues, hformat⟩⟩
  | split text separators limit removeEmpty =>
    cases limit with
    | takenAway => exact .inr (.inr ⟨_, _, .count⟩)
    | unlimited =>
      have hcount : itemCount .unlimited = .ok none := rfl
      exact (gives_or_escapes_of_two_le removeEmpty hcount nofun).imp_right .inr
    | atMost n =>
      obtain hn | rfl | rfl | hn : n < 0 ∨ n = 0 ∨ n = 1 ∨ 2 ≤ n := by omega
      · exact .inr (.inl ⟨_, .split hn⟩)
      · exact .inl ⟨[], .split rfl rfl⟩
      · exact .inl ⟨[text], .split rfl rfl⟩
      · refine (gives_or_escapes_of_two_le removeEmpty rfl ?_).imp_right .inr
        rintro _ ⟨⟩
        exact hn
  | compare a b? ignoreCase =>
    cases b? with
    | none => exact .inr (.inr ⟨_, _, .operand⟩)
    | some b =>
      have horder := Text.compare_eq_ok ignoreCase (s := .ofChars a) (p := .ofChars b) rfl
        (Text.ofChars a).units_lt (Text.ofChars b).units_lt
      exact .inl ⟨_, .compare horder⟩
  | lower text =>
    have htext := Text.ofChars_unitChars (Text.container_toLower (.ofChars text))
    exact .inl ⟨_, .lower htext.symm⟩
  | upper text =>
    have htext := Text.ofChars_unitChars (Text.container_toUpper (.ofChars text))
    exact .inl ⟨_, .upper htext.symm⟩

end Request

/-- No reports are given that were not asked for. -/
theorem reports_eq_nil (r : Request) : (respond { verbosity := 0, request := r }).reports = [] := by
  cases r with
  | format template arguments =>
    simp only [respond, format]
    split <;> rfl
  | compare a b? ignoreCase => cases b? <;> rfl
  | _ => rfl

/-- A command line that is a request prints its result and ends in the status zero, or it prints
nothing, shows an error and ends in the status one. -/
def EndsInStatus (argv : List Chars) : Prop :=
  ∀ i, Invocation.ofArguments argv = .ok i →
    (∃ lines errors, i.request.Gives lines ∧ run argv = .ended 0 (unlines lines) errors) ∨
      ∃ errors, errors ≠ [] ∧ run argv = .ended 1 [] errors

theorem not_endsInStatus_of_run {argv : List Chars} {i : Invocation} {e : Failure} {output : Chars}
    (h : Invocation.ofArguments argv = .ok i) (hrun : run argv = .failed e output) :
    ¬EndsInStatus argv := by
  intro hends
  rcases hends i h with ⟨_, _, -, hended⟩ | ⟨_, -, hended⟩
  · cases hrun.symm.trans hended
  · cases hrun.symm.trans hended

end Command

end UnitText
