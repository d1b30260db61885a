import FunctionManifest.Proofs.Expression.Outline

/-!
# Ternaries in a text

Reading a text from its start, with the brackets and quotes that are open, tells which question marks
stand outside of them. Each ternary of an expression puts one there, unless it stands in a list, and
nothing else does. So the number of ternaries can be read off a text, but not which of two nested
ones is the outer one.
-/

namespace FunctionManifest

/-! ## Scanning -/

inductive Quoting where
  | outside
  | inside
  /-- Behind a backslash. -/
  | escaped
  deriving DecidableEq

/-- Where a scan is, and how many question marks it met outside brackets and quotes. -/
structure Scan where
  depth : Nat
  quoting : Quoting
  marks : Nat
  deriving DecidableEq

def Scan.step (scan : Scan) (c : Letter) : Scan :=
  match scan.quoting with
  | .escaped => { scan with quoting := .inside }
  | .inside =>
    if c = '\\' then { scan with quoting := .escaped }
    else if c = '"' then { scan with quoting := .outside }
    else scan
  | .outside =>
    if c = '"' then { scan with quoting := .inside }
    else if c = '[' then { scan with depth := scan.depth + 1 }
    else if c = ']' then { scan with depth := scan.depth - 1 }
    else if c = '?' ∧ scan.depth = 0 then { scan with marks := scan.marks + 1 }
    else scan

theorem Scan.marks_le_step (scan : Scan) (c : Letter) : scan.marks ≤ (scan.step c).marks := by
  unfold step
  repeat' split
  all_goals simp

theorem Scan.marks_le_foldl (text : Text) (scan : Scan) :
    scan.marks ≤ (text.foldl step scan).marks := by
  induction text generalizing scan with
  | nil => exact Nat.le_refl _
  | cons c rest ih => exact Nat.le_trans (scan.marks_le_step c) (ih _)

namespace Text

/-- A scan that passes the text is where it was, and has met so many more question marks, or none
inside brackets. -/
def Marks (text : Text) (n : Nat) : Prop :=
  ∀ depth marks, text.foldl Scan.step ⟨depth, .outside, marks⟩ =
    ⟨depth, .outside, if depth = 0 then marks + n else marks⟩

/-- What a text opens it closes, and no question mark stands outside. -/
def IsClosed (text : Text) : Prop := text.Marks 0

theorem Marks.append {text text' : Text} {m n : Nat} (h : text.Marks m) (h' : text'.Marks n) :
    (text ++ text').Marks (m + n) := by
  intro depth marks
  rw [List.foldl_append, h, h']
  split <;> simp [Nat.add_assoc]

theorem Marks.eq {text : Text} {m n : Nat} (h : text.Marks m) (h' : text.Marks n) : m = n := by
  have heq := (h 0 0).symm.trans (h' 0 0)
  simpa using heq

/-- In brackets no question mark counts. -/
theorem Marks.bracketed {text : Text} {n : Nat} (h : text.Marks n) :
    (("[" : Text) ++ text ++ "]").IsClosed := by
  intro depth marks
  have hopen : ("[" : Text).foldl Scan.step ⟨depth, .outside, marks⟩ =
      ⟨depth + 1, .outside, marks⟩ := rfl
  have hclose : ("]" : Text).foldl Scan.step ⟨depth + 1, .outside, marks⟩ =
      ⟨depth, .outside, marks⟩ := rfl
  rw [List.foldl_append, List.foldl_append, hopen, h, if_neg (Nat.succ_ne_zero _), hclose]
  simp

/-- A letter that neither opens nor closes anything and is no question mark. -/
def isPlainLetter (c : Letter) : Bool :=
  c ∉ ([.char '"', .char '[', .char ']', .char '?'] : List Letter)

theorem isClosed_of_plain {text : Text} (h : ∀ c ∈ text, isPlainLetter c = true) :
    text.IsClosed := by
  intro depth marks
  induction text with
  | nil => simp
  | cons c rest ih =>
    have hc : c ≠ .char '"' ∧ c ≠ .char '[' ∧ c ≠ .char ']' ∧ c ≠ .char '?' := by
      simpa [isPlainLetter] using h c List.mem_cons_self
    have hstep : Scan.step ⟨depth, .outside, marks⟩ c = ⟨depth, .outside, marks⟩ := by
      simp [Scan.step, hc]
    rw [List.foldl_cons, hstep]
    exact ih fun c hc => h c (List.mem_cons_of_mem _ hc)

theorem isClosed_of_isIdentifier {name : Text} (h : IsIdentifier name) : name.IsClosed := by
  have hnone : ∀ d ∈ ([.char '"', .char '[', .char ']', .char '?'] : List Letter),
      isNameLetter d = false := by decide
  refine isClosed_of_plain fun c hc => decide_eq_true fun hmem => ?_
  have hletter := h.2.2 c hc
  rw [hnone c hmem] at hletter
  cases hletter

/-! ## Quoted texts -/

theorem foldl_inside {text : Text} (h : ∀ c ∈ text, c ≠ .char '"' ∧ c ≠ .char '\\')
    (depth marks : Nat) :
    text.foldl Scan.step ⟨depth, .inside, marks⟩ = ⟨depth, .inside, marks⟩ := by
  induction text with
  | nil => rfl
  | cons c rest ih =>
    have hc := h c List.mem_cons_self
    have hstep : Scan.step ⟨depth, .inside, marks⟩ c = ⟨depth, .inside, marks⟩ := by
      simp [Scan.step, hc]
    rw [List.foldl_cons, hstep]
    exact ih fun c hc => h c (List.mem_cons_of_mem _ hc)

/-- Behind its backslash and what it escapes, an escape has neither quotes nor backslashes. -/
theorem foldl_escapedLetter (c : Letter) (depth marks : Nat) :
    (Json.escapedLetter .unicode c).foldl Scan.step ⟨depth, .inside, marks⟩ =
      ⟨depth, .inside, marks⟩ := by
  have hescapes : ∀ c ∈ Json.escapedLetters,
      (Json.escapedLetter .unicode c).head? = some (.char '\\') ∧
      (Json.escapedLetter .unicode c).tail ≠ [] ∧
      ∀ d ∈ (Json.escapedLetter .unicode c).tail.tail, d ≠ .char '"' ∧ d ≠ .char '\\' := by
    decide
  by_cases hc : c ∈ Json.escapedLetters
  · obtain ⟨hfirst, hsecond, hrest⟩ := hescapes c hc
    obtain ⟨tail, htail⟩ := List.head?_eq_some_iff.mp hfirst
    rw [htail, List.tail_cons] at hsecond hrest
    obtain ⟨d, rest, rfl⟩ := List.exists_cons_of_ne_nil hsecond
    rw [htail]
    exact foldl_inside hrest depth marks
  · rw [Json.escapedLetter_of_not_mem hc]
    have hne : ∀ d ∈ Json.escapedLetters, c ≠ d := fun d hd heq => hc (heq ▸ hd)
    refine foldl_inside (fun d hd => ?_) depth marks
    rw [List.mem_singleton.mp hd]
    exact ⟨hne _ (by decide), hne _ (by decide)⟩

theorem isClosed_quoted (text : Text) : (Json.quoted .unicode text).IsClosed := by
  intro depth marks
  have hletters : (text.flatMap (Json.escapedLetter .unicode)).foldl Scan.step
      ⟨depth, .inside, marks⟩ = ⟨depth, .inside, marks⟩ := by
    induction text with
    | nil => rfl
    | cons c rest ih => rw [List.flatMap_cons, List.foldl_append, foldl_escapedLetter, ih]
  rw [Json.quoted, List.cons_append, List.foldl_cons, List.foldl_append]
  have hopen : Scan.step ⟨depth, .outside, marks⟩ (.char '"') = ⟨depth, .inside, marks⟩ := rfl
  rw [hopen, hletters]
  simp [Scan.step]

end Text

/-! ## Numbers -/

namespace Binary64

/-- The letters of numbers with a fraction. -/
def isNumeralLetter (c : Char) : Bool := c.isDigit || c ∈ ['.', '-', '+', 'e']

def IsNumeral (chars : List Char) : Prop := ∀ c ∈ chars, isNumeralLetter c = true

variable {chars chars' : List Char}

theorem IsNumeral.append (h : IsNumeral chars) (h' : IsNumeral chars') :
    IsNumeral (chars ++ chars') := List.forall_mem_append.mpr ⟨h, h'⟩

theorem IsNumeral.cons {c : Char} (hc : isNumeralLetter c = true) (h : IsNumeral chars) :
    IsNumeral (c :: chars) := List.forall_mem_cons.mpr ⟨hc, h⟩

theorem IsNumeral.take (h : IsNumeral chars) (n : Nat) : IsNumeral (chars.take n) :=
  fun c hc => h c (List.mem_of_mem_take hc)

theorem IsNumeral.drop (h : IsNumeral chars) (n : Nat) : IsNumeral (chars.drop n) :=
  fun c hc => h c (List.mem_of_mem_drop hc)

theorem isNumeral_nil : IsNumeral [] := nofun

theorem isNumeral_zeros (n : Nat) : IsNumeral (zeros n) := fun c hc => by
  rw [List.eq_of_mem_replicate hc]
  decide

theorem isNumeral_toDigits (n : Nat) : IsNumeral (Nat.toDigits 10 n) := fun c hc => by
  simp [isNumeralLetter, Nat.isDigit_of_mem_toDigits (by decide) (by decide) hc]

theorem isNumeral_exponentText (exponent : Int) : IsNumeral (exponentText exponent) :=
  .cons (by split <;> decide) (.append (isNumeral_zeros _) (isNumeral_toDigits _))

theorem isNumeral_layout (h : IsNumeral chars) (point : Int) : IsNumeral (layout chars point) := by
  unfold layout
  split
  · exact .cons (by decide) (.cons (by decide) (.cons (by decide) isNumeral_nil))
  split
  · exact .cons (by decide) (.cons (by decide) (.append (isNumeral_zeros _) h))
  split
  · dsimp only
    split
    · refine .append (.append h (isNumeral_zeros _)) ?_
      exact .cons (by decide) (.cons (by decide) isNumeral_nil)
    · exact .append (h.take _) (.cons (by decide) (h.drop _))
  · refine .append (.append (h.take _) ?_) (.cons (by decide) (isNumeral_exponentText _))
    split
    · exact isNumeral_nil
    · exact .cons (by decide) (h.drop _)

theorem isClosed_ofChars (h : IsNumeral chars) : (Text.ofChars chars).IsClosed := by
  refine Text.isClosed_of_plain fun c hc => ?_
  obtain ⟨c, hmem, rfl⟩ := List.mem_map.mp hc
  have hnone : (['"', '[', ']', '?'].any isNumeralLetter) = false := by decide
  have hne : ∀ d ∈ ['"', '[', ']', '?'], c ≠ d := fun d hd heq =>
    List.any_eq_false.mp hnone d hd (heq ▸ h c hmem)
  simpa [Text.isPlainLetter] using hne

theorem isClosed_ofInt (n : Int) : (Text.ofInt n).IsClosed := by
  have hdigits := isClosed_ofChars (isNumeral_toDigits n.natAbs)
  unfold Text.ofInt
  split
  · exact (Text.isClosed_of_plain (by decide)).append hdigits
  · exact hdigits

theorem isClosed_text (x : Binary64) : x.text.IsClosed := by
  cases x with
  | nan =>
    have hnan : ("nan" : Text).IsClosed := Text.isClosed_of_plain (by decide)
    exact hnan
  | infinite negative => cases negative <;> exact Text.isClosed_of_plain (by decide)
  | finite negative significand power =>
    refine isClosed_ofChars (.append ?_ (isNumeral_layout ?_ _))
    · split
      · exact .cons (by decide) isNumeral_nil
      · exact isNumeral_nil
    · intro c hc
      have hkept := (List.dropWhile_sublist _).mem (List.mem_reverse.mp hc)
      exact isNumeral_toDigits _ c (List.mem_reverse.mp hkept)

end Binary64

/-! ## Outlines -/

namespace Outline

/-- The ternaries of an outline that do not stand in a list. -/
def choices : Outline → Nat
  | .compare _ left right => left.choices + right.choices
  | .ifElse test ifTrue ifFalse => test.choices + 1 + ifTrue.choices + ifFalse.choices
  | _ => 0

/-- Params are named by identifiers, and other literals close what they open. -/
structure IsReadable (x : Outline) : Prop where
  names : ∀ name ∈ x.names, Text.IsIdentifier name
  words : ∀ word ∈ x.words, word.IsClosed

theorem marks_question : Text.Marks " ? " 1 := fun depth marks => by
  cases depth <;> rfl

theorem isClosed_colon : Text.IsClosed " : " := Text.isClosed_of_plain (by decide)

theorem isClosed_comma : Text.IsClosed ", " := Text.isClosed_of_plain (by decide)

theorem isClosed_blank : Text.IsClosed " " := Text.isClosed_of_plain (by decide)

theorem isClosed_symbol (op : Comparator) : Text.IsClosed op.symbol := by
  cases op <;> exact Text.isClosed_of_plain (by decide)

mutual

/-- The text of an outline marks each ternary outside lists. -/
theorem marks_rendered :
    (x : Outline) → (∀ name ∈ x.names, Text.IsIdentifier name) →
      (∀ word ∈ x.words, word.IsClosed) → x.rendered.Marks x.choices
  | .null, _, _ => Text.isClosed_of_plain (by decide)
  | .bool b, _, _ => by cases b <;> exact Text.isClosed_of_plain (by decide)
  | .int n, _, _ => Binary64.isClosed_ofInt n
  | .float x, _, _ => x.isClosed_text
  | .text t, _, _ => Text.isClosed_quoted t
  | .name t, hnames, _ => Text.isClosed_of_isIdentifier (hnames t List.mem_cons_self)
  | .word t, _, hwords => hwords t List.mem_cons_self
  | .list items, hnames, hwords => by
    obtain ⟨n, hn⟩ := marks_join items hnames hwords
    exact hn.bracketed
  | .compare op left right, hnames, hwords => by
    simp only [names, words, List.forall_mem_append] at hnames hwords
    have hleft := marks_rendered left hnames.1 hwords.1
    have hright := marks_rendered right hnames.2 hwords.2
    exact ((((hleft.append isClosed_blank).append (isClosed_symbol op)).append
      isClosed_blank).append hright)
  | .ifElse test ifTrue ifFalse, hnames, hwords => by
    simp only [names, words, List.forall_mem_append] at hnames hwords
    have htest := marks_rendered test hnames.1.1 hwords.1.1
    have hifTrue := marks_rendered ifTrue hnames.1.2 hwords.1.2
    have hifFalse := marks_rendered ifFalse hnames.2 hwords.2
    exact (((htest.append marks_question).append hifTrue).append isClosed_colon).append hifFalse

theorem marks_join :
    (items : List Outline) → (∀ name ∈ namesOfAll items, Text.IsIdentifier name) →
      (∀ word ∈ wordsOfAll items, word.IsClosed) →
      ∃ n, (Text.join ", " (renderedAll items)).Marks n
  | [], _, _ => ⟨0, Text.isClosed_of_plain nofun⟩
  | [item], hnames, hwords => by
    simp only [namesOfAll, wordsOfAll, List.append_nil] at hnames hwords
    have hitem := marks_rendered item hnames hwords
    exact ⟨_, by simpa [renderedAll, Text.join] using hitem⟩
  | item :: next :: rest, hnames, hwords => by
    rw [namesOfAll, List.forall_mem_append] at hnames
    rw [wordsOfAll, List.forall_mem_append] at hwords
    have hitem := marks_rendered item hnames.1 hwords.1
    obtain ⟨n, hrest⟩ := marks_join (next :: rest) hnames.2 hwords.2
    have hjoin : Text.join ", " (renderedAll (item :: next :: rest)) =
        item.rendered ++ ", " ++ Text.join ", " (renderedAll (next :: rest)) := by
      simp [renderedAll, Text.join, List.intercalate_cons_cons]
    rw [hjoin]
    exact ⟨_, (hitem.append isClosed_comma).append hrest⟩

end

theorem IsReadable.marks {x : Outline} (h : x.IsReadable) : x.rendered.Marks x.choices :=
  marks_rendered x h.names h.words

theorem IsReadable.test {test ifTrue ifFalse : Outline} (h : (ifElse test ifTrue ifFalse).IsReadable) :
    test.IsReadable :=
  ⟨fun name hname => h.names name (List.mem_append_left _ (List.mem_append_left _ hname)),
    fun word hword => h.words word (List.mem_append_left _ (List.mem_append_left _ hword))⟩

end Outline

/-! ## Tests -/

/-- A text that goes on over a question mark has more of them. -/
theorem Text.Marks.eq_nil_of_append {text more rest rest' : Text} {n : Nat} (h : text.Marks n)
    (hmore : (text ++ more).Marks n) (heq : " ? " ++ rest = more ++ (" ? " ++ rest')) :
    more = [] := by
  match more with
  | [] => rfl
  | [c] => cases heq
  | c :: d :: more =>
    change .char ' ' :: .char '?' :: .char ' ' :: rest = _ at heq
    obtain ⟨rfl, hrest⟩ := List.cons.inj heq
    obtain ⟨rfl, -⟩ := List.cons.inj hrest
    have hscan : more.foldl Scan.step ⟨0, .outside, n + 1⟩ = ⟨0, .outside, n⟩ := by
      have hfull := hmore 0 0
      rw [List.foldl_append, h] at hfull
      simpa [Scan.step] using hfull
    have hle := Scan.marks_le_foldl more ⟨0, .outside, n + 1⟩
    rw [hscan] at hle
    exact absurd hle (Nat.not_succ_le_self n)

/-- A test ends at the question mark behind as many others as it has itself. -/
theorem Text.Marks.eq_of_append {text text' rest rest' : Text} {n : Nat} (h : text.Marks n)
    (h' : text'.Marks n) (heq : text ++ (" ? " ++ rest) = text' ++ (" ? " ++ rest')) :
    text = text' := by
  obtain ⟨more, rfl, hmore⟩ | ⟨more, rfl, hmore⟩ := List.append_eq_append_iff.mp heq
  · rw [h.eq_nil_of_append h' hmore, List.append_nil]
  · rw [h'.eq_nil_of_append h hmore, List.append_nil]

namespace Outline

variable {x x' : Outline}

/-- Ternaries can be counted in a text. -/
theorem IsReadable.choices_eq (h : x.IsReadable) (h' : x'.IsReadable)
    (heq : x.rendered = x'.rendered) : x.choices = x'.choices :=
  h.marks.eq (heq ▸ h'.marks)

/-- Two ternaries of one text have tests of one text if these have equally many ternaries, and not
otherwise. -/
theorem IsReadable.test_eq_iff {test ifTrue ifFalse test' ifTrue' ifFalse' : Outline}
    (h : (ifElse test ifTrue ifFalse).IsReadable) (h' : (ifElse test' ifTrue' ifFalse').IsReadable)
    (heq : (ifElse test ifTrue ifFalse).rendered = (ifElse test' ifTrue' ifFalse').rendered) :
    test.rendered = test'.rendered ↔ test.choices = test'.choices := by
  constructor
  · exact h.test.choices_eq h'.test
  · intro hchoices
    simp only [rendered, List.append_assoc] at heq
    exact h.test.marks.eq_of_append (hchoices ▸ h'.test.marks) heq

end Outline

/-! ## Expressions -/

/-- The expression has an outline that can be read. -/
structure Expression.Reads (heap : Heap) (e : Expression) (x : Outline) : Prop where
  outline : e.outline? heap = some x
  readable : x.IsReadable

variable (call : Caller) {s : Session}

theorem on_deferredText {e : Expression} {x : Outline} (h : e.outline? s.heap = some x) :
    (e.deferredText (asking call)).on s = (.ok (deferred x.rendered), s) := by
  simp [Expression.deferredText, on_expression_render call e h, Asking.text]

theorem deferred_inj {text text' : Text} (h : deferred text = deferred text') : text = text' :=
  List.append_cancel_left (List.append_cancel_right h)

theorem ifElse_of_outline? {heap : Heap} {test : Expression} {ifTrue ifFalse : Operand} {x : Outline}
    (h : (Expression.ifElse test ifTrue ifFalse).outline? heap = some x) :
    ∃ y a b, x = .ifElse y a b ∧ test.outline? heap = some y := by
  simp only [Expression.outline?, Option.bind_eq_bind, Option.bind_eq_some_iff, Option.pure_def,
    Option.some.injEq] at h
  obtain ⟨y, hy, a, -, b, -, rfl⟩ := h
  exact ⟨y, a, b, rfl, hy⟩

/-- Two expressions of one text have equally many ternaries outside lists. So a comparison that has
none is never taken for a ternary; and of two ternaries of one text the tests have one text as well,
if these have equally many ternaries outside lists, and not otherwise. -/
theorem Expression.deferredText_choices (s : Session) :
    (∀ {e e' : Expression} {x x' : Outline} {text : Text}, e.Reads s.heap x → e'.Reads s.heap x' →
      (e.deferredText (asking call)).on s = (.ok text, s) →
      (e'.deferredText (asking call)).on s = (.ok text, s) → x.choices = x'.choices) ∧
    (∀ {op : Comparator} {left test : Expression} {right ifTrue ifFalse : Operand} {x x' : Outline},
      (Expression.compare op left right).Reads s.heap x →
      (Expression.ifElse test ifTrue ifFalse).Reads s.heap x' → x.choices = 0 →
      ∃ text text',
        ((Expression.compare op left right).deferredText (asking call)).on s = (.ok text, s) ∧
        ((Expression.ifElse test ifTrue ifFalse).deferredText (asking call)).on s =
          (.ok text', s) ∧ text ≠ text') ∧
    (∀ {test test' : Expression} {ifTrue ifFalse ifTrue' ifFalse' : Operand}
      {x a b x' a' b' : Outline} {text : Text},
      (Expression.ifElse test ifTrue ifFalse).Reads s.heap (.ifElse x a b) →
      (Expression.ifElse test' ifTrue' ifFalse').Reads s.heap (.ifElse x' a' b') →
      ((Expression.ifElse test ifTrue ifFalse).deferredText (asking call)).on s = (.ok text, s) →
      ((Expression.ifElse test' ifTrue' ifFalse').deferredText (asking call)).on s =
        (.ok text, s) →
      ∃ testText testText', (test.deferredText (asking call)).on s = (.ok testText, s) ∧
        (test'.deferredText (asking call)).on s = (.ok testText', s) ∧
        (testText = testText' ↔ x.choices = x'.choices)) := by
  have same : ∀ {e e' : Expression} {x x' : Outline} {text : Text}, e.Reads s.heap x →
      e'.Reads s.heap x' → (e.deferredText (asking call)).on s = (.ok text, s) →
      (e'.deferredText (asking call)).on s = (.ok text, s) → x.rendered = x'.rendered := by
    intro e e' x x' text h h' hrun hrun'
    rw [on_deferredText call h.outline] at hrun
    rw [on_deferredText call h'.outline] at hrun'
    exact deferred_inj (Except.ok.inj (congrArg Prod.fst (hrun.trans hrun'.symm)))
  refine ⟨fun h h' hrun hrun' => h.readable.choices_eq h'.readable (same h h' hrun hrun'), ?_, ?_⟩
  · intro op left test right ifTrue ifFalse x x' h h' hnone
    refine ⟨_, _, on_deferredText call h.outline, on_deferredText call h'.outline, fun heq => ?_⟩
    have hchoices := h.readable.choices_eq h'.readable (deferred_inj heq)
    obtain ⟨y, a, b, rfl, -⟩ := ifElse_of_outline? h'.outline
    simp only [hnone, Outline.choices] at hchoices
    omega
  · intro test test' ifTrue ifFalse ifTrue' ifFalse' x a b x' a' b' text h h' hrun hrun'
    have hiff := h.readable.test_eq_iff h'.readable (same h h' hrun hrun')
    obtain ⟨_, _, _, ⟨⟩, htest⟩ := ifElse_of_outline? h.outline
    obtain ⟨_, _, _, ⟨⟩, htest'⟩ := ifElse_of_outline? h'.outline
    refine ⟨_, _, on_deferredText call htest, on_deferredText call htest', ?_⟩
    exact ⟨fun heq => hiff.mp (deferred_inj heq), fun heq => congrArg _ (hiff.mpr heq)⟩

/-! ## Nested ternaries -/

/-- Two params, and a session that knows them. -/
def twoParams : Heap :=
  { Heap.initial with cells := #[.tuple [], .param (.builtin "A" "a"), .param (.builtin "B" "b")] }

def twoParamsSession : Session := { Session.fresh default default with heap := twoParams }

def firstParam : Expression := .param (.ref 1)

def secondParam : Expression := .param (.ref 2)

/-- Chosen by a ternary, and the same text with a ternary as the last branch. -/
def choiceFirst : Expression :=
  .ifElse (.ifElse firstParam (.int 1) (.expression secondParam)) (.int 2) (.int 3)

def choiceLast : Expression :=
  .ifElse firstParam (.int 1) (.expression (.ifElse secondParam (.int 2) (.int 3)))

/-- A comparison without ternaries differs from a ternary, and ternaries that are nested in two ways
have one text, but tests of different texts. -/
theorem Expression.deferredText_choices_nested :
    let call : Caller := fun _ _ _ => throw .noValue
    let s := twoParamsSession
    (∃ text text',
      ((Expression.compare .equal firstParam (.int 1)).deferredText (asking call)).on s =
        (.ok text, s) ∧
      (choiceLast.deferredText (asking call)).on s = (.ok text', s) ∧ text ≠ text') ∧
    (∃ testText testText',
      ((Expression.ifElse firstParam (.int 1) (.expression secondParam)).deferredText
        (asking call)).on s = (.ok testText, s) ∧
      (firstParam.deferredText (asking call)).on s = (.ok testText', s) ∧
      testText ≠ testText') := by
  intro call s
  have hcompare : (Expression.compare .equal firstParam (.int 1)).Reads s.heap
      (.compare .equal (.name "A") (.int 1)) := ⟨rfl, by decide, nofun⟩
  have hfirst : choiceFirst.Reads s.heap
      (.ifElse (.ifElse (.name "A") (.int 1) (.name "B")) (.int 2) (.int 3)) :=
    ⟨rfl, by decide, nofun⟩
  have hlast : choiceLast.Reads s.heap
      (.ifElse (.name "A") (.int 1) (.ifElse (.name "B") (.int 2) (.int 3))) :=
    ⟨rfl, by decide, nofun⟩
  have hrunFirst := on_deferredText call hfirst.outline
  have hrunLast := on_deferredText call hlast.outline
  obtain ⟨-, hapart, htests⟩ := Expression.deferredText_choices call s
  refine ⟨hapart hcompare hlast rfl, ?_⟩
  obtain ⟨testText, testText', hrun, hrun', hiff⟩ :=
    htests hfirst hlast hrunFirst hrunLast
  exact ⟨testText, testText', hrun, hrun', fun heq => absurd (hiff.mp heq) (by decide)⟩

/-- A comparison with a ternary has the text of a ternary that is chosen by a comparison, and two
ternaries of one text are chosen by different tests. -/
theorem Expression.deferredText_ambiguous :
    let call : Caller := fun _ _ _ => throw .noValue
    let s := twoParamsSession
    let comparison : Expression :=
      .compare .equal firstParam (.expression (.ifElse secondParam (.int 1) (.int 2)))
    let choice : Expression :=
      .ifElse (.compare .equal firstParam (.expression secondParam)) (.int 1) (.int 2)
    (comparison.deferredText (asking call)).on s = (.ok (deferred "A == B ? 1 : 2"), s) ∧
      (choice.deferredText (asking call)).on s = (.ok (deferred "A == B ? 1 : 2"), s) ∧
      (choiceFirst.deferredText (asking call)).on s =
        (.ok (deferred "A ? 1 : B ? 2 : 3"), s) ∧
      (choiceLast.deferredText (asking call)).on s = (.ok (deferred "A ? 1 : B ? 2 : 3"), s) ∧
      ((Expression.ifElse firstParam (.int 1) (.expression secondParam)).deferredText
        (asking call)).on s = (.ok (deferred "A ? 1 : B"), s) ∧
      (firstParam.deferredText (asking call)).on s = (.ok (deferred "A"), s) ∧
      deferred "A ? 1 : B" ≠ deferred "A" :=
  ⟨rfl, rfl, rfl, rfl, rfl, rfl, by decide⟩

end FunctionManifest
