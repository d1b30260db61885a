import FunctionManifest.Json.Reader
import FunctionManifest.Proofs.Assoc
import FunctionManifest.Proofs.Decimal.Shortest
import FunctionManifest.Proofs.Steps
import Mathlib.Data.List.TakeDrop
import Mathlib.Data.List.TakeWhile

/-!
# Documents that are read

A document is a value of its own, in which all integers are short enough to be printed and which is
nested no deeper than there is room for. Reading stops where the text is at fault. It stops for its
size only where there are very many digits in a row, or more brackets are opened than fit.
-/

namespace FunctionManifest

/-- A value as documents have them, nested at most so deep. -/
inductive Value.IsDocument : Nat → Value → Prop
  | null {depth : Nat} : IsDocument depth .null
  | bool {depth : Nat} (b : Bool) : IsDocument depth (.bool b)
  | int {depth : Nat} {n : Int} (h : Binary64.digitCount n.natAbs ≤ digitLimit) :
      IsDocument depth (.int n)
  | float {depth : Nat} (x : Binary64) : IsDocument depth (.float x)
  | text {depth : Nat} (t : Text) : IsDocument depth (.text t)
  | list {depth : Nat} {items : List Value} (h : ∀ v ∈ items, IsDocument depth v) :
      IsDocument (depth + 1) (.list items)
  | mapping {depth : Nat} {fields : Fields} (h : ∀ field ∈ fields, IsDocument depth field.2) :
      IsDocument (depth + 1) (.named fields)

namespace Json

open Decimal

variable {α β : Type} {room : Nat} {start rest : Text} {P : α → Prop} {Q : β → Prop}

def isOpening (c : Letter) : Bool := c = '{' || c = '['

/-- What stops reading for its size stands in the text. -/
def Stop.IsIn (room : Nat) (start : Text) : Stop → Prop
  | .fault _ _ => True
  | .tooLong digits => digitLimit < digits ∧
      ∃ run, run <:+: start ∧ (∀ c ∈ run, c.isIn isDigit = true) ∧ run.length = digits
  | .tooDeep _ => room < start.countP isOpening

/-- What is read from a start has a property, and an end of the text is left. -/
def Reads (room : Nat) (start : Text) (P : α → Prop) : Except Stop (α × Text) → Prop
  | .ok (a, rest) => P a ∧ rest <:+ start
  | .error stop => stop.IsIn room start

/-! ## Steps -/

theorem Stop.IsIn.of_suffix {stop : Stop} (h : stop.IsIn room rest) (hsuffix : rest <:+ start) :
    stop.IsIn room start := by
  cases stop with
  | fault => trivial
  | tooLong digits =>
    obtain ⟨hlimit, run, hrun, hdigits, hlength⟩ := h
    exact ⟨hlimit, run, hrun.trans hsuffix.isInfix, hdigits, hlength⟩
  | tooDeep => exact Nat.lt_of_lt_of_le h hsuffix.sublist.countP_le

theorem Reads.of_suffix {result : Except Stop (α × Text)} (h : Reads room rest P result)
    (hsuffix : rest <:+ start) : Reads room start P result := by
  match result, h with
  | .ok _, ⟨hvalue, hrest⟩ => exact ⟨hvalue, hrest.trans hsuffix⟩
  | .error _, hstop => exact Stop.IsIn.of_suffix hstop hsuffix

theorem Reads.bind {result : Except Stop (α × Text)} {f : α × Text → Except Stop (β × Text)}
    (h : Reads room start P result)
    (hnext : ∀ a rest, P a → rest <:+ start → Reads room start Q (f (a, rest))) :
    Reads room start Q (result >>= f) := by
  match result, h with
  | .ok (a, rest), ⟨hvalue, hrest⟩ => exact hnext a rest hvalue hrest
  | .error _, hstop => exact hstop

theorem reads_fault (cause : Cause) (left : Nat) :
    Reads room start P (.error (.fault cause left)) := trivial

theorem skipBlanks_suffix (text : Text) : skipBlanks text <:+ text := List.dropWhile_suffix _

/-! ## Texts -/

theorem unitEscape_error {stop : Stop} (h : unitEscape start = .error stop) :
    ∃ cause left, stop = .fault cause left := by
  unfold unitEscape at h
  split at h
  · cases h
    exact ⟨_, _, rfl⟩
  · split at h
    · split at h
      · split at h
        · cases h
          exact ⟨_, _, rfl⟩
        · split at h <;> cases h
      · cases h
    · cases h

theorem escape_error {opened : Nat} {stop : Stop} (h : escape opened start = .error stop) :
    ∃ cause left, stop = .fault cause left := by
  unfold escape at h
  split at h
  · cases h
    exact ⟨_, _, rfl⟩
  · split at h
    · exact unitEscape_error h
    · split at h
      · cases h
      · cases h
        exact ⟨_, _, rfl⟩

/-- A text ends at its quote, or something is at fault with it. -/
theorem textFrom_reads (room opened skip : Nat) (start : Text) :
    Reads room start (fun _ => True) (textFrom opened skip start) := by
  induction start generalizing skip with
  | nil => exact reads_fault _ _
  | cons c rest ih =>
    have hrest (skip : Nat) : Reads room (c :: rest) (fun _ => True) (textFrom opened skip rest) :=
      (ih skip).of_suffix (List.suffix_cons c rest)
    cases skip with
    | succ skip => exact hrest skip
    | zero =>
      rw [textFrom]
      split
      · exact ⟨trivial, List.suffix_cons c rest⟩
      · split
        · cases hescape : escape opened rest with
          | error stop =>
            obtain ⟨cause, left, rfl⟩ := escape_error hescape
            exact reads_fault _ _
          | ok decoded => exact (hrest decoded.2).bind fun t after _ hafter => ⟨trivial, hafter⟩
        · split
          · exact reads_fault _ _
          · exact (hrest 0).bind fun t after _ hafter => ⟨trivial, hafter⟩

theorem text_reads (room : Nat) (start : Text) : Reads room start (fun _ => True) (text start) :=
  textFrom_reads room _ 0 start

/-! ## Numbers -/

theorem ofDigits_lt {digits : List Nat} (h : ∀ digit ∈ digits, digit < 10) :
    ofDigits digits < 10 ^ digits.length := by
  induction digits using List.reverseRecOn with
  | nil => decide
  | append_singleton digits digit ih =>
    have hdigits := ih fun other hother => h other (List.mem_append_left _ hother)
    have hdigit := h digit (by simp)
    rw [ofDigits, List.foldl_append, ← ofDigits, List.length_append, List.length_singleton, pow_succ]
    simp only [List.foldl_cons, List.foldl_nil]
    omega

theorem digitValue?_lt {c : Letter} {value : Nat} (h : Text.digitValue? c = some value) :
    value < 10 := by
  obtain ⟨base, hfind, rfl⟩ := Option.map_eq_some_iff.mp h
  have hin := List.find?_some hfind
  simp only [Bool.and_eq_true, decide_eq_true_eq] at hin
  omega

theorem digitCount_digitRun (text : Text) :
    Binary64.digitCount (ofDigits (digitRun text)) ≤ text.length := by
  have hdigits : ∀ digit ∈ digitRun text, digit < 10 := by
    intro digit hdigit
    obtain ⟨c, -, hc⟩ := List.mem_filterMap.mp hdigit
    exact digitValue?_lt hc
  have hlength : (digitRun text).length ≤ text.length :=
    (List.length_filterMap_le _ _).trans (List.takeWhile_sublist _).length_le
  by_cases hzero : ofDigits (digitRun text) = 0
  · rw [hzero]
    exact Nat.zero_le _
  · rw [Binary64.digitCount_le_iff hzero]
    calc
      ofDigits (digitRun text)
      _ < 10 ^ (digitRun text).length := ofDigits_lt hdigits
      _ ≤ 10 ^ text.length := Nat.pow_le_pow_right (by decide) hlength

theorem natAbs_signed (negative : Bool) (n : Nat) : (signed negative n).natAbs = n := by
  cases negative <;> simp [signed]

theorem takeDigits_split (text : Text) :
    text = (takeDigits text).1 ++ (takeDigits text).2 ∧
      ∀ c ∈ (takeDigits text).1, c.isIn isDigit = true := by
  rw [takeDigits, List.span_eq_takeWhile_dropWhile]
  exact ⟨List.takeWhile_append_dropWhile.symm,
    fun c hc => List.all_eq_true.mp List.all_takeWhile c hc⟩

theorem takeWhole_split {whole : Text} (h : takeWhole start = some (whole, rest)) :
    start = whole ++ rest ∧ ∀ c ∈ whole, c.isIn isDigit = true := by
  unfold takeWhole at h
  split at h
  · cases h
    exact ⟨rfl, by simp [Letter.isIn, isDigit]⟩
  · rename_i c tail _
    split at h
    · obtain ⟨hsplit, hdigits⟩ := takeDigits_split (c :: tail)
      rw [Option.some.inj h] at hsplit hdigits
      exact ⟨hsplit, hdigits⟩
    · cases h
  · cases h

theorem takePoint_suffix (text : Text) : (takePoint text).2 <:+ text := by
  unfold takePoint
  split
  · rename_i rest
    split
    · exact List.suffix_rfl
    · obtain ⟨hsplit, -⟩ := takeDigits_split rest
      exact (List.suffix_iff_exists_eq_append.mpr ⟨_, hsplit⟩).trans (List.suffix_cons _ _)
  · exact List.suffix_rfl

theorem takeSign_suffix (text : Text) : (takeSign text).2 <:+ text := by
  unfold takeSign
  split
  · exact List.suffix_cons _ _
  · exact List.suffix_cons _ _
  · exact List.suffix_rfl

theorem takeExponent_suffix (text : Text) : (takeExponent text).2 <:+ text := by
  unfold takeExponent
  split
  · rename_i c rest
    split
    · simp only
      split
      · exact List.suffix_rfl
      · obtain ⟨hsplit, -⟩ := takeDigits_split (takeSign rest).2
        exact ((List.suffix_iff_exists_eq_append.mpr ⟨_, hsplit⟩).trans (takeSign_suffix rest)).trans
          (List.suffix_cons _ _)
    · exact List.suffix_rfl
  · exact List.suffix_rfl

theorem number_reads (room : Nat) (start : Text) :
    Reads room start (Value.IsDocument room) (number (some digitLimit) start) := by
  unfold number
  split
  rename_i negative body hsign
  have hbody : body <:+ start := by
    split at hsign
    · cases hsign
      exact List.suffix_cons _ _
    · cases hsign
      exact List.suffix_rfl
  cases hwhole : takeWhole body with
  | none => exact reads_fault _ _
  | some parts =>
    obtain ⟨whole, rest⟩ := parts
    obtain ⟨rfl, hdigits⟩ := takeWhole_split hwhole
    simp only
    have hafter : (takeExponent (takePoint rest).2).2 <:+ start :=
      ((takeExponent_suffix _).trans (takePoint_suffix rest)).trans
        ((List.suffix_append whole rest).trans hbody)
    split
    · split
      · rename_i hlong
        have hrun : whole <:+: start := (List.prefix_append whole rest).isInfix.trans hbody.isInfix
        exact ⟨by simpa using hlong, whole, hrun, hdigits, rfl⟩
      · rename_i hshort
        have hlength : whole.length ≤ digitLimit := by simpa using hshort
        refine ⟨.int ?_, hafter⟩
        rw [natAbs_signed]
        exact (digitCount_digitRun whole).trans hlength
    · exact ⟨.float _, hafter⟩

/-! ## Values -/

theorem word?_some {v : Value} (h : word? start = some (v, rest)) :
    v.IsDocument room ∧ rest <:+ start := by
  obtain ⟨word, hfind, hword⟩ := Option.map_eq_some_iff.mp h
  cases hword
  refine ⟨?_, List.drop_suffix _ _⟩
  have hmem := List.mem_of_find?_eq_some hfind
  have hall : ∀ word ∈ words, word.2.IsDocument room := by
    simp only [words, List.forall_mem_cons]
    exact ⟨.null, .bool _, .bool _, .float _, .float _, .float _, nofun⟩
  exact hall word hmem

theorem isDocument_object {members : Fields} (h : ∀ field ∈ members, field.2.IsDocument room) :
    (object members).IsDocument (room + 1) := by
  refine .mapping fun field hfield => ?_
  have hmem := (Assoc.mem_of_mem_setAll hfield).resolve_left List.not_mem_nil
  exact h field (List.mem_reverse.mp hmem)

/-- What holds of a value, of members and of elements that are read in so many steps. -/
structure ReadsAll (fuel : Nat) : Prop where
  value (room : Nat) (start : Text) :
    Reads room start (Value.IsDocument room) (value (some digitLimit) room fuel start)
  members (room : Nat) (before : Fields) (start : Text)
    (h : ∀ field ∈ before, field.2.IsDocument room) :
    Reads room start (Value.IsDocument (room + 1))
      (members (some digitLimit) room fuel before start)
  elements (room : Nat) (before : List Value) (start : Text)
    (h : ∀ v ∈ before, v.IsDocument room) :
    Reads room start (Value.IsDocument (room + 1))
      (elements (some digitLimit) room fuel before start)

/-- An opening bracket takes some of the room. -/
theorem Reads.opened {c : Letter} {result : Except Stop (α × Text)} (hc : isOpening c = true)
    (h : Reads room rest P result) : Reads (room + 1) (c :: rest) P result := by
  match result, h with
  | .ok _, ⟨hvalue, hrest⟩ => exact ⟨hvalue, hrest.trans (List.suffix_cons c rest)⟩
  | .error (.fault _ _), _ => trivial
  | .error (.tooLong digits), hstop =>
    have hstop : Stop.IsIn room rest (.tooLong digits) := hstop
    exact hstop.of_suffix (List.suffix_cons c rest)
  | .error (.tooDeep _), hstop =>
    change room + 1 < (c :: rest).countP isOpening
    rw [List.countP_cons_of_pos hc]
    exact Nat.succ_lt_succ hstop

theorem reads_tooDeep {c : Letter} (hc : isOpening c = true) (isObject : Bool) :
    Reads 0 (c :: rest) P (.error (.tooDeep isObject)) := by
  change 0 < (c :: rest).countP isOpening
  rw [List.countP_cons_of_pos hc]
  exact Nat.succ_pos _

/-- Behind blanks and one more letter an end of the text is left. -/
theorem suffix_of_skipBlanks {c : Letter} {after : Text} (h : skipBlanks rest = c :: after)
    (hrest : rest <:+ start) : after <:+ start := by
  have hblanks := skipBlanks_suffix rest
  rw [h] at hblanks
  exact ((List.suffix_cons c after).trans hblanks).trans hrest

theorem value_reads {fuel : Nat} (h : ReadsAll fuel) (room : Nat) (start : Text) :
    Reads room start (Value.IsDocument room) (value (some digitLimit) room (fuel + 1) start) := by
  unfold value
  split
  · rename_i rest
    exact ((text_reads room rest).of_suffix (List.suffix_cons _ _)).bind fun t after _ hafter =>
      ⟨.text t, hafter⟩
  · rename_i rest
    split
    · exact reads_tooDeep (by decide) true
    · rename_i after hroom hblanks
      obtain ⟨room, rfl⟩ := Nat.exists_eq_succ_of_ne_zero hroom
      exact ⟨isDocument_object nofun, suffix_of_skipBlanks hblanks (List.suffix_cons _ _)⟩
    · rename_i room _
      exact ((h.members room [] _ nofun).of_suffix (skipBlanks_suffix rest)).opened
        (by decide)
  · rename_i rest
    split
    · exact reads_tooDeep (by decide) false
    · rename_i after hroom hblanks
      obtain ⟨room, rfl⟩ := Nat.exists_eq_succ_of_ne_zero hroom
      exact ⟨.list nofun, suffix_of_skipBlanks hblanks (List.suffix_cons _ _)⟩
    · rename_i room _
      exact ((h.elements room [] _ nofun).of_suffix (skipBlanks_suffix rest)).opened
        (by decide)
  · cases hword : word? start with
    | some found => exact word?_some hword
    | none => exact number_reads room start

theorem members_reads {fuel : Nat} (h : ReadsAll fuel) (room : Nat) (before : Fields)
    (start : Text) (hbefore : ∀ field ∈ before, field.2.IsDocument room) :
    Reads room start (Value.IsDocument (room + 1))
      (members (some digitLimit) room (fuel + 1) before start) := by
  unfold members
  split
  · rename_i rest
    refine ((text_reads room rest).of_suffix (List.suffix_cons _ _)).bind fun name after _ hafter => ?_
    dsimp only
    split
    · rename_i after' hcolon
      have hafter' := suffix_of_skipBlanks hcolon hafter
      refine ((h.value room (skipBlanks after')).of_suffix
        ((skipBlanks_suffix after').trans hafter')).bind fun v rest hv hrest => ?_
      have hmembers : ∀ field ∈ (name, v) :: before, field.2.IsDocument room :=
        List.forall_mem_cons.mpr ⟨hv, hbefore⟩
      dsimp only
      split
      · rename_i hclosing
        exact ⟨isDocument_object hmembers, suffix_of_skipBlanks hclosing hrest⟩
      · rename_i more hcomma
        exact (h.members room _ _ hmembers).of_suffix
          ((skipBlanks_suffix more).trans (suffix_of_skipBlanks hcomma hrest))
      · exact reads_fault _ _
    · exact reads_fault _ _
  · exact reads_fault _ _

theorem elements_reads {fuel : Nat} (h : ReadsAll fuel) (room : Nat) (before : List Value)
    (start : Text) (hbefore : ∀ v ∈ before, v.IsDocument room) :
    Reads room start (Value.IsDocument (room + 1))
      (elements (some digitLimit) room (fuel + 1) before start) := by
  unfold elements
  refine (h.value room start).bind fun v rest hv hrest => ?_
  have helements : ∀ w ∈ v :: before, w.IsDocument room :=
    List.forall_mem_cons.mpr ⟨hv, hbefore⟩
  dsimp only
  split
  · rename_i hclosing
    refine ⟨.list fun w hw => helements w (List.mem_reverse.mp hw), ?_⟩
    exact suffix_of_skipBlanks hclosing hrest
  · rename_i more hcomma
    exact (h.elements room _ _ helements).of_suffix
      ((skipBlanks_suffix more).trans (suffix_of_skipBlanks hcomma hrest))
  · exact reads_fault _ _

theorem readsAll (fuel : Nat) : ReadsAll fuel := by
  induction fuel with
  | zero =>
    constructor
    · intro room start
      exact reads_fault _ _
    · intro room before start _
      exact reads_fault _ _
    · intro room before start _
      exact reads_fault _ _
  | succ fuel ih => exact ⟨value_reads ih, members_reads ih, elements_reads ih⟩

/-! ## Documents -/

/-- What comes of a text that is read as a document. -/
inductive IsRead (source : Text) : Except Unreadable Value → Prop
  | document {doc : Value} (h : doc.IsDocument depthLimit) : IsRead source (.ok doc)
  | fault (fault : Fault) : IsRead source (.error (.fault fault))
  | tooLong {digits : Nat} {run : Text} (hlimit : digitLimit < digits) (hrun : run <:+: source)
      (hdigits : ∀ c ∈ run, c.isIn isDigit = true) (hlength : run.length = digits) :
      IsRead source (.error (.tooLong digits))
  | tooDeep {isObject : Bool} (h : depthLimit < source.countP isOpening) :
      IsRead source (.error (.tooDeep isObject))

theorem document_cases (source : Text) :
    (∃ doc, document (some digitLimit) source = .ok doc ∧ doc.IsDocument depthLimit) ∨
      ∃ stop, document (some digitLimit) source = .error stop ∧ stop.IsIn depthLimit source := by
  have hvalue := ((readsAll (2 * source.length + 2)).value depthLimit (skipBlanks source)).of_suffix
    (skipBlanks_suffix source)
  unfold document
  by_cases hmark : source.head? = some (.char '\ufeff')
  · rw [if_pos hmark]
    exact .inr ⟨_, rfl, trivial⟩
  · rw [if_neg hmark]
    match value (some digitLimit) depthLimit (2 * source.length + 2) (skipBlanks source), hvalue with
    | .error stop, hstop => exact .inr ⟨stop, rfl, hstop⟩
    | .ok (doc, rest), ⟨hdoc, _⟩ =>
      simp only [bind, Except.bind]
      cases skipBlanks rest with
      | nil => exact .inl ⟨doc, rfl, hdoc⟩
      | cons c rest => exact .inr ⟨_, rfl, trivial⟩

theorem read_isRead (source : Text) : IsRead source (read source) := by
  unfold read readWithin
  rcases document_cases source with ⟨doc, hread, hdoc⟩ | ⟨stop, hread, hstop⟩
  · rw [hread]
    exact .document hdoc
  · rw [hread]
    match stop, hstop with
    | .fault cause left, _ => exact .fault _
    | .tooLong digits, ⟨hlimit, run, hrun, hdigits, hlength⟩ =>
      exact .tooLong hlimit hrun hdigits hlength
    | .tooDeep isObject, hdeep => exact .tooDeep hdeep

/-- What a reader may refuse for its size: so many digits in a row, or so many brackets opened. -/
def IsLarge (source : Text) : Prop :=
  (∃ run, run <:+: source ∧ (∀ c ∈ run, c.isIn isDigit = true) ∧ digitLimit < run.length) ∨
    depthLimit < source.countP isOpening

theorem fault_or_isLarge {source : Text} {reason : Unreadable} (h : read source = .error reason) :
    (∃ fault, reason = .fault fault) ∨ IsLarge source := by
  have hread := read_isRead source
  rw [h] at hread
  cases hread with
  | fault fault => exact .inl ⟨fault, rfl⟩
  | tooLong hlimit hrun hdigits hlength =>
    exact .inr (.inl ⟨_, hrun, hdigits, hlength ▸ hlimit⟩)
  | tooDeep hdeep => exact .inr (.inr hdeep)

/-! ## Long integers -/

section

variable {d : Char} {digits : Text} (hfirst : isDigit d = true) (hzero : d ≠ '0')
  (hdigits : ∀ c ∈ digits, c.isIn isDigit = true)

include hfirst

theorem ne_of_isDigit {c : Char} (hc : isDigit c = false) : d ≠ c := by
  rintro rfl
  rw [hfirst] at hc
  cases hc

theorem word?_digits : word? (.char d :: digits) = none := by
  have h {c : Char} (hc : isDigit c = false) : (Letter.char c == .char d) = false := by
    simpa using (ne_of_isDigit hfirst hc).symm
  have hn := h (c := 'n') (by decide)
  have ht := h (c := 't') (by decide)
  have hf := h (c := 'f') (by decide)
  have hN := h (c := 'N') (by decide)
  have hI := h (c := 'I') (by decide)
  have hminus := h (c := '-') (by decide)
  simp [word?, words, Text.ofString, Text.ofChars, List.isPrefixOf, hn, ht, hf, hN, hI, hminus]

include hzero hdigits

theorem takeWhole_digits : takeWhole (.char d :: digits) = some (.char d :: digits, []) := by
  have hall : ∀ c ∈ (.char d :: digits : Text), c.isIn isDigit = true :=
    List.forall_mem_cons.mpr ⟨hfirst, hdigits⟩
  have htake : takeDigits (.char d :: digits) = (.char d :: digits, []) := by
    rw [takeDigits, List.span_eq_takeWhile_dropWhile, List.takeWhile_eq_self_iff.mpr hall,
      List.dropWhile_eq_nil_iff.mpr hall]
  unfold takeWhole
  split
  · simp_all
  · simp_all [Letter.isIn]
  · simp_all

theorem number_digits (h : digitLimit < digits.length + 1) :
    number (some digitLimit) (.char d :: digits) = .error (.tooLong (digits.length + 1)) := by
  have hwhole := takeWhole_digits hfirst hzero hdigits
  have hminus := ne_of_isDigit hfirst (c := '-') (by decide)
  unfold number
  split
  rename_i negative body hsign
  split at hsign
  · simp_all
  · cases hsign
    have hlong : (some digitLimit).any (· < (.char d :: digits : Text).length) = true :=
      decide_eq_true h
    simp only [hwhole, takePoint, takeExponent, hlong, and_self, if_true]
    rfl

/-- An integer with too many digits is refused. -/
theorem read_digits (h : digitLimit < digits.length + 1) :
    read (.char d :: digits) = .error (.tooLong (digits.length + 1)) := by
  have hstart : skipBlanks (.char d :: digits) = .char d :: digits := by
    have hblank : isBlank (.char d) = false := by
      have h {c : Char} (hc : isDigit c = false) : d ≠ c := ne_of_isDigit hfirst hc
      simp [isBlank, h (c := ' ') (by decide), h (c := '\t') (by decide), h (c := '\n') (by decide),
        h (c := '\r') (by decide)]
    exact List.dropWhile_cons_of_neg (by simp [hblank])
  have hvalue (fuel : Nat) : value (some digitLimit) depthLimit (fuel + 1) (.char d :: digits) =
      .error (.tooLong (digits.length + 1)) := by
    have hquote := ne_of_isDigit hfirst (c := '"') (by decide)
    have hbrace := ne_of_isDigit hfirst (c := '\x7b') (by decide)
    have hbracket := ne_of_isDigit hfirst (c := '[') (by decide)
    unfold value
    split
    · simp_all
    · simp_all
    · simp_all
    · rw [word?_digits hfirst]
      exact number_digits hfirst hzero hdigits h
  have hmark := ne_of_isDigit hfirst (c := '\ufeff') (by decide)
  unfold read readWithin document
  simp [hmark, hstart, hvalue, bind, Except.bind]

end

end Json

end FunctionManifest
