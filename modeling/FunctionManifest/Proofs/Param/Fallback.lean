import FunctionManifest.Proofs.Decimal.Prefix
import FunctionManifest.Proofs.Param.Default

/-!
# Falling back

A text that no number can be read from stands for zero, and a warning is logged. Reading fails for
one kind of text only: where the integer at its start has too many digits for the reader.
-/

namespace FunctionManifest

open Decimal Eval

/-- A text or a number as it is printed, however long it is. -/
def Value.spelling? : Value → Option Text
  | .text t => some t
  | .bool b => some (if b then "True" else "False")
  | .int n => some (Text.ofInt n)
  | .float x => some x.text
  | _ => none

/-- The text of the variable, or else of the default. -/
def Param.givenText? (p : Param) (environment : Environment) (name : Text) : Option Text :=
  (environment.text? name).or p.default.spelling?

/-- The kinds whose values are no documents. -/
def ParamKind.IsScalar (kind : ParamKind) : Prop :=
  kind ∈ [ParamKind.string, .int, .float, .boolean, .list]

/-! ## Reading numbers -/

theorem readInt_of_captures {name text captured : Text}
    (h : Captures (Signed MatchesDigits) text captured) {n : Int} (hreads : ReadsInt captured n) :
    readInt name text = .ok (.int n) := by
  obtain ⟨sign, negative, digits, rfl, hsign, hdigits, hleading⟩ := leadingInt?_of_captures h
  obtain ⟨hlimit, rfl⟩ := (readsInt_iff hsign hdigits).mp hreads
  rw [← length_digitValues hdigits.1] at hlimit
  simp only [readInt, hleading, if_neg (Nat.not_lt.mpr hlimit)]

theorem readInt_of_not_reads (name : Text) {text captured : Text}
    (h : Captures (Signed MatchesDigits) text captured) (hreads : ¬∃ n, ReadsInt captured n) :
    ∃ failure, readInt name text = .failed failure := by
  obtain ⟨sign, negative, digits, rfl, hsign, hdigits, hleading⟩ := leadingInt?_of_captures h
  have hlimit : digitLimit < (digitValues digits).length := by
    rw [length_digitValues hdigits.1]
    by_contra hle
    exact hreads ⟨_, (readsInt_iff hsign hdigits).mpr ⟨Nat.not_lt.mp hle, rfl⟩⟩
  refine ⟨.tooLongToRead (digitValues digits).length, ?_⟩
  simp only [readInt, hleading, if_pos hlimit]

theorem readInt_of_not_captures {name text : Text}
    (h : ¬∃ captured, Captures (Signed MatchesDigits) text captured) :
    readInt name text = ⟨.ok (.int 0), [complaint name text "an integer"]⟩ := by
  rw [readInt, leadingInt?_eq_none_iff.mpr h]

theorem readFloat_of_captures (name : Text) {text captured : Text}
    (h : Captures (Signed MatchesUnsigned) text captured) :
    ∃ x, ReadsFloat captured x ∧ readFloat name text = .ok (.float x) := by
  obtain ⟨x, hleading, hreads⟩ := leadingFloat?_of_captures h
  exact ⟨x, hreads, by rw [readFloat, hleading]⟩

theorem readFloat_of_not_captures {name text : Text}
    (h : ¬∃ captured, Captures (Signed MatchesUnsigned) text captured) :
    readFloat name text = ⟨.ok (.float (.zero false)), [complaint name text "a number"]⟩ := by
  rw [readFloat, leadingFloat?_eq_none_iff.mpr h]

/-- The reader of integers accepts what is captured if it has few enough digits. -/
theorem exists_readsInt_iff {text captured : Text}
    (h : Captures (Signed MatchesDigits) text captured) :
    (∃ n, ReadsInt captured n) ↔ captured.countP Text.isDigit ≤ digitLimit := by
  obtain ⟨sign, negative, digits, rfl, hsign, hdigits, -⟩ := leadingInt?_of_captures h
  have hsignDigits : sign.countP Text.isDigit = 0 := by cases hsign <;> decide
  rw [List.countP_append, hsignDigits, Nat.zero_add, List.countP_eq_length.mpr hdigits.1]
  constructor
  · rintro ⟨n, hreads⟩
    exact ((readsInt_iff hsign hdigits).mp hreads).1
  · intro hlimit
    exact ⟨_, (readsInt_iff hsign hdigits).mpr ⟨hlimit, rfl⟩⟩

/-- A number that is printed is captured. Where the reader takes it, it has few enough digits. -/
theorem digitCount_of_captures {n : Int} {captured : Text}
    (h : Captures (Signed MatchesDigits) (Text.ofInt n) captured)
    (hlimit : captured.countP Text.isDigit ≤ digitLimit) :
    Binary64.digitCount n.natAbs ≤ digitLimit := by
  obtain ⟨m, hreads⟩ := (exists_readsInt_iff h).mpr hlimit
  obtain ⟨sign, negative, digits, rfl, hsign, hdigits, hleading⟩ := leadingInt?_of_captures h
  have hshort := ((readsInt_iff hsign hdigits).mp hreads).1
  rw [leadingInt?_ofInt, Option.some.injEq, Prod.mk.injEq] at hleading
  rw [← length_digitValues hdigits.1, ← hleading.2, values, List.length_map] at hshort
  exact (digitCount_le_digitLimit_iff n.natAbs).mpr hshort

/-! ## The text that is given -/

section

variable {call : Caller} {s : Session} {v zero : Value} {p : Param} {label name text : Text}
  {environment : Environment} {read : Text → Text → Reading}

theorem textIn_of_not_given (h : p.givenText? environment name = none)
    (hatom : p.default.IsAtom) : p.textIn environment name = .ok none := by
  obtain ⟨hunset, hspelling⟩ := Option.or_eq_none_iff.mp h
  cases hvalue : p.default with
  | list | tuple | mapping | ref =>
    rw [hvalue] at hatom
    exact hatom.elim
  | null => simp [Param.textIn, hunset, hvalue, Value.isNull]
  | _ => simp [hvalue, Value.spelling?] at hspelling

/-- The text that is given is the one that is read, unless it is an integer too long to print. -/
theorem textIn_of_given (h : p.givenText? environment name = some text) (hatom : p.default.IsAtom) :
    p.textIn environment name = .ok (some text) ∨
      ∃ n failure, p.default = .int n ∧ text = Text.ofInt n ∧
        digitLimit < Binary64.digitCount n.natAbs ∧
          p.textIn environment name = .error failure := by
  unfold Param.givenText? at h
  cases hset : environment.text? name with
  | some raw =>
    rw [hset, Option.some_or] at h
    obtain rfl := Option.some.inj h
    exact .inl (textIn_of_set hset)
  | none =>
    rw [hset, Option.none_or] at h
    cases hvalue : p.default with
    | null => simp [hvalue, Value.spelling?] at h
    | list | tuple | mapping | ref =>
      rw [hvalue] at hatom
      exact hatom.elim
    | text | bool | float =>
      rw [hvalue] at h
      obtain rfl := Option.some.inj h
      exact .inl (textIn_of_unset hset (by rw [hvalue]; rfl) (by rw [hvalue]; rfl))
    | int n =>
      rw [hvalue] at h
      obtain rfl := Option.some.inj h
      by_cases hlong : digitLimit < Binary64.digitCount n.natAbs
      · refine .inr ⟨n, .tooLongToWrite, rfl, rfl, hlong, ?_⟩
        simp [Param.textIn, hset, hvalue, Value.isNull, Value.atomText, intText, hlong, Except.map]
      · refine .inl (textIn_of_unset hset (by rw [hvalue]; rfl) ?_)
        rw [hvalue, Value.atomText, intText_eq (Nat.not_lt.mp hlong)]

theorem textIn_of_given_number (hatom : p.default.IsAtom) (hnumber : ∀ n, p.default ≠ .int n)
    (htext : p.givenText? environment name = some text) :
    p.textIn environment name = .ok (some text) := by
  rcases textIn_of_given htext hatom with hin | ⟨n, failure, hvalue, -⟩
  · exact hin
  · exact absurd hvalue (hnumber n)

/-- The default as a param of this kind has it, if it has one. -/
theorem default_cases {heap : Heap} (hkind : p.kind.IsScalar) (hlist : p.kind ≠ .list)
    (h : p.default = .null ∨ p.HasDefault heap) :
    p.default.IsAtom ∧ (p.kind ≠ .int → ∀ n, p.default ≠ .int n) := by
  rcases h with hnull | hdefault
  · rw [hnull]
    exact ⟨trivial, fun _ _ => nofun⟩
  · unfold Param.HasDefault at hdefault
    cases hp : p.kind with
    | base | json | builtin => simp [ParamKind.IsScalar, hp] at hkind
    | list => exact absurd hp hlist
    | string | boolean | int =>
      simp only [hp] at hdefault
      obtain ⟨x, hx⟩ := hdefault
      rw [hx]
      simp [Value.IsAtom]
    | float =>
      simp only [hp] at hdefault
      obtain ⟨x, hx, -⟩ := hdefault
      rw [hx]
      simp [Value.IsAtom]

/-! ## Through the text -/

theorem read_int (hkind : p.kind = .int) :
    p.read s.heap (printed call) s.environment =
      p.readText s.heap (printed call) s.environment (.int 0) readInt := by
  simp only [Param.read, hkind]

theorem read_float (hkind : p.kind = .float) :
    p.read s.heap (printed call) s.environment =
      p.readText s.heap (printed call) s.environment (.float (.zero false)) readFloat := by
  simp only [Param.read, hkind]

section

variable (hcell : s.heap.cell? v = some (.param p)) (hlabel : p.name = .text label)

include hcell hlabel

theorem on_value_of_unnamed {failure : Failure} (hkind : p.kind.IsScalar)
    (hname : Environment.keep label = .error failure) :
    (getAttribute call v "value").on s = (.error failure, s) := by
  have hraw : s.environment.rawText? s.heap p.name = .error failure := by
    rw [hlabel, Environment.rawText?, Environment.variableName, hname]
    rfl
  have htext (zero : Value) (read : Text → Text → Reading) :
      (p.readText s.heap (printed call) s.environment zero read).on s = (.error failure, s) := by
    simp only [Param.readText, Param.text?, on_bind, on_ofExcept, hraw, next_error]
  rw [on_value_param hcell, on_readParam]
  cases hp : p.kind with
  | base | json | builtin => simp [ParamKind.IsScalar, hp] at hkind
  | string | int | float | boolean => simp only [Param.read, hp, htext, next_error]
  | list =>
    have hlist : p.readListParam s.heap s.environment = .error failure := by
      rw [Param.readListParam, hraw]
      rfl
    simp only [Param.read, hp, hlist, on_pure, next_ok, on_bind, on_ofReading_of_none, next_error]

variable (hname : Environment.keep label = .ok name)

include hname

section

variable (hatom : p.default.IsAtom)
  (hread : p.read s.heap (printed call) s.environment =
    p.readText s.heap (printed call) s.environment zero read)

include hatom hread

theorem on_value_of_textIn :
    (getAttribute call v "value").on s = next (p.textIn s.environment name, s) fun
      | none => intern zero
      | some text => ofReading (read label text) >>= intern := by
  rw [on_value_param hcell, on_readParam, hread, on_readText hlabel hname hatom]
  obtain failure | ⟨_ | text⟩ := p.textIn s.environment name
  · rfl
  · change (ofReading (.ok zero) >>= intern).on s = (intern zero).on s
    rw [on_bind, on_ofReading_of_none rfl]
    rfl
  · rfl

theorem on_value_of_not_given (hmissing : p.givenText? s.environment name = none)
    (hzero : zero.IsKept) : (getAttribute call v "value").on s = (.ok zero, s) := by
  rw [on_value_of_textIn hcell hlabel hname hatom hread, textIn_of_not_given hmissing hatom,
    next_ok, on_intern, hzero s.heap]

theorem on_value_of_given (htext : p.textIn s.environment name = .ok (some text)) :
    (getAttribute call v "value").on s = (ofReading (read label text) >>= intern).on s := by
  rw [on_value_of_textIn hcell hlabel hname hatom hread, htext]
  rfl

theorem on_value_of_printed (htext : p.textIn s.environment name = .ok (some text)) {w : Value}
    (hvalue : read label text = .ok w) (hkept : w.IsKept) :
    (getAttribute call v "value").on s = (.ok w, s) := by
  rw [on_value_of_given hcell hlabel hname hatom hread htext, hvalue, on_bind,
    on_ofReading_of_none rfl]
  simp only [Reading.ok, next_ok, on_intern, hkept s.heap]

theorem on_value_of_complaint (htext : p.textIn s.environment name = .ok (some text)) {w : Value}
    {warning : Text} (hvalue : read label text = ⟨.ok w, [warning]⟩) (hkept : w.IsKept) :
    (getAttribute call v "value").on s = (.ok w, s.warned warning) := by
  rw [on_value_of_given hcell hlabel hname hatom hread htext, hvalue, on_bind,
    on_ofReading_of_warning rfl]
  simp only [next_ok, on_intern, hkept (s.warned warning).heap]

/-- A reader that takes every text gives a value. -/
theorem exists_value_of_total (hnumber : ∀ n, p.default ≠ .int n)
    (hzero : zero.IsKept) (htotal : ∀ text, ∃ w, read label text = .ok w ∧ w.IsKept) :
    ∃ w t, (getAttribute call v "value").on s = (.ok w, t) := by
  cases hgiven : p.givenText? s.environment name with
  | none => exact ⟨zero, s, on_value_of_not_given hcell hlabel hname hatom hread hgiven hzero⟩
  | some text =>
    obtain ⟨w, hvalue, hkept⟩ := htotal text
    exact ⟨w, s, on_value_of_printed hcell hlabel hname hatom hread
      (textIn_of_given_number hatom hnumber hgiven) hvalue hkept⟩

end

/-! ## Integers -/

section

variable {captured : Text} (hkind : p.kind = .int) (hatom : p.default.IsAtom)

include hkind hatom

theorem on_value_int_of_reads (htext : p.givenText? s.environment name = some text)
    (hcaptured : Captures (Signed MatchesDigits) text captured) {n : Int}
    (hreads : ReadsInt captured n) : (getAttribute call v "value").on s = (.ok (.int n), s) := by
  rcases textIn_of_given htext hatom with hin | ⟨m, failure, -, rfl, hlong, -⟩
  · exact on_value_of_printed hcell hlabel hname hatom (read_int hkind) hin
      (readInt_of_captures hcaptured hreads) fun _ => rfl
  · have hshort := digitCount_of_captures hcaptured ((exists_readsInt_iff hcaptured).mp ⟨n, hreads⟩)
    omega

theorem on_value_int_of_long (htext : p.givenText? s.environment name = some text)
    (hcaptured : Captures (Signed MatchesDigits) text captured)
    (hlimit : digitLimit < captured.countP Text.isDigit) :
    ∃ failure, (getAttribute call v "value").on s = (.error failure, s) := by
  rcases textIn_of_given htext hatom with hin | ⟨m, failure, -, -, -, hin⟩
  · obtain ⟨failure, hfailed⟩ := readInt_of_not_reads label hcaptured
      (mt (exists_readsInt_iff hcaptured).mp (Nat.not_le.mpr hlimit))
    refine ⟨failure, ?_⟩
    rw [on_value_of_given hcell hlabel hname hatom (read_int hkind) hin, hfailed, on_bind,
      on_ofReading_of_none rfl]
    rfl
  · refine ⟨failure, ?_⟩
    rw [on_value_of_textIn hcell hlabel hname hatom (read_int hkind), hin, next_error]

theorem on_value_int_of_not_captures (htext : p.givenText? s.environment name = some text)
    (hnone : ¬∃ captured, Captures (Signed MatchesDigits) text captured) :
    (getAttribute call v "value").on s =
      (.ok (.int 0), s.warned (complaint label text "an integer")) := by
  rcases textIn_of_given htext hatom with hin | ⟨m, failure, -, rfl, -, -⟩
  · exact on_value_of_complaint hcell hlabel hname hatom (read_int hkind) hin
      (readInt_of_not_captures hnone) fun _ => rfl
  · rw [← leadingInt?_eq_none_iff, leadingInt?_ofInt] at hnone
    cases hnone

theorem exists_value_int_iff :
    (∃ w t, (getAttribute call v "value").on s = (.ok w, t)) ↔
      ∀ text captured, p.givenText? s.environment name = some text →
        Captures (Signed MatchesDigits) text captured →
          captured.countP Text.isDigit ≤ digitLimit := by
  constructor
  · rintro ⟨w, t, hrun⟩ text captured htext hcaptured
    by_contra hlong
    obtain ⟨failure, hfailed⟩ :=
      on_value_int_of_long hcell hlabel hname hkind hatom htext hcaptured (Nat.not_le.mp hlong)
    rw [hfailed] at hrun
    cases hrun
  · intro hshort
    cases hgiven : p.givenText? s.environment name with
    | none =>
      exact ⟨_, s, on_value_of_not_given hcell hlabel hname hatom (read_int hkind) hgiven
        fun _ => rfl⟩
    | some text =>
      by_cases hcaptured : ∃ captured, Captures (Signed MatchesDigits) text captured
      · obtain ⟨captured, hcaptured⟩ := hcaptured
        obtain ⟨n, hreads⟩ :=
          (exists_readsInt_iff hcaptured).mpr (hshort text captured hgiven hcaptured)
        exact ⟨_, s, on_value_int_of_reads hcell hlabel hname hkind hatom hgiven hcaptured hreads⟩
      · exact ⟨_, _, on_value_int_of_not_captures hcell hlabel hname hkind hatom hgiven hcaptured⟩

end

/-! ## Numbers -/

section

variable {captured : Text} (hkind : p.kind = .float) (hatom : p.default.IsAtom)
  (hnumber : ∀ n, p.default ≠ .int n) (htext : p.givenText? s.environment name = some text)

include hkind hatom hnumber htext

theorem on_value_float_of_captures (hcaptured : Captures (Signed MatchesUnsigned) text captured) :
    ∃ x, ReadsFloat captured x ∧ (getAttribute call v "value").on s = (.ok (.float x), s) := by
  obtain ⟨x, hreads, hvalue⟩ := readFloat_of_captures label hcaptured
  exact ⟨x, hreads, on_value_of_printed hcell hlabel hname hatom (read_float hkind)
    (textIn_of_given_number hatom hnumber htext) hvalue fun _ => rfl⟩

theorem on_value_float_of_not_captures
    (hnone : ¬∃ captured, Captures (Signed MatchesUnsigned) text captured) :
    (getAttribute call v "value").on s =
      (.ok (.float (.zero false)), s.warned (complaint label text "a number")) :=
  on_value_of_complaint hcell hlabel hname hatom (read_float hkind)
    (textIn_of_given_number hatom hnumber htext) (readFloat_of_not_captures hnone) fun _ => rfl

end

/-! ## All kinds -/

theorem exists_value_list (hkind : p.kind = .list)
    (hdefault : p.default = .null ∨ p.HasDefault s.heap) :
    ∃ w t, (getAttribute call v "value").on s = (.ok w, t) := by
  obtain ⟨items, hread⟩ : ∃ items, p.readListParam s.heap s.environment = .ok items := by
    cases htext : s.environment.text? name with
    | some raw => exact ⟨_, readListParam_of_set hlabel hname htext⟩
    | none =>
      rcases hdefault with hnull | hdefault
      · refine ⟨.list [], ?_⟩
        simp only [Param.readListParam, rawText?_eq hlabel hname, htext, hnull]
        rfl
      · simp only [Param.HasDefault, hkind] at hdefault
        obtain ⟨texts, htexts⟩ := hdefault
        have hitems : s.heap.items? p.default = some (texts.map .text) := by
          simp [Heap.items?, htexts]
        exact ⟨_, readListParam_of_unset hlabel hname htext hitems⟩
  rw [on_value_param hcell, on_readParam]
  simp only [Param.read, hkind, hread, on_pure, next_ok, on_bind, on_ofReading_of_none, on_intern]
  exact ⟨_, _, rfl⟩

theorem exists_value_of_not_int (hkind : p.kind.IsScalar) (hint : p.kind ≠ .int)
    (hdefault : p.default = .null ∨ p.HasDefault s.heap) :
    ∃ w t, (getAttribute call v "value").on s = (.ok w, t) := by
  by_cases hlist : p.kind = .list
  · exact exists_value_list hcell hlabel hname hlist hdefault
  obtain ⟨hatom, hnumber⟩ := default_cases hkind hlist hdefault
  cases hp : p.kind with
  | base | json | builtin => simp [ParamKind.IsScalar, hp] at hkind
  | int => exact absurd hp hint
  | list => exact absurd hp hlist
  | string =>
    have hread : p.read s.heap (printed call) s.environment =
        p.readText s.heap (printed call) s.environment (.text []) fun _ text =>
          .ok (.text text) := by
      simp only [Param.read, hp]
    exact exists_value_of_total hcell hlabel hname hatom hread (hnumber hint) (fun _ => rfl)
      fun text => ⟨.text text, rfl, fun _ => rfl⟩
  | boolean =>
    have hread : p.read s.heap (printed call) s.environment =
        p.readText s.heap (printed call) s.environment (.bool false) fun _ text =>
          .ok (.bool (readBoolean text)) := by
      simp only [Param.read, hp]
    exact exists_value_of_total hcell hlabel hname hatom hread (hnumber hint) (fun _ => rfl)
      fun text => ⟨.bool (readBoolean text), rfl, fun _ => rfl⟩
  | float =>
    cases hgiven : p.givenText? s.environment name with
    | none =>
      exact ⟨_, s, on_value_of_not_given hcell hlabel hname hatom (read_float hp) hgiven
        fun _ => rfl⟩
    | some text =>
      by_cases hcaptured : ∃ captured, Captures (Signed MatchesUnsigned) text captured
      · obtain ⟨captured, hcaptured⟩ := hcaptured
        obtain ⟨x, -, hrun⟩ := on_value_float_of_captures hcell hlabel hname hp hatom
          (hnumber hint) hgiven hcaptured
        exact ⟨_, s, hrun⟩
      · exact ⟨_, _, on_value_float_of_not_captures hcell hlabel hname hp hatom (hnumber hint)
          hgiven hcaptured⟩

end

/-- A session with one param, whose variable is set. -/
def setSession (kind : ParamKind) (text : Text) : Session :=
  { unsetSession kind .null with environment := [("RATE", text)] }

theorem cell?_setSession (kind : ParamKind) (text : Text) :
    (setSession kind text).heap.cell? (.ref 2) = some (.param (rateParam kind .null)) := rfl

/-- One digit more than the reader of integers takes. -/
def tooManyDigits : Text := List.replicate (digitLimit + 1) (.char '1')

end

end FunctionManifest
