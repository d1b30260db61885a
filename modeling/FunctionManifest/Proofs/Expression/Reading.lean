import FunctionManifest.Proofs.Expression.Outline

/-!
# Reading expressions back

Nothing is bracketed in the text of an expression. Still it can be read in one way only, as long as
comparisons are of params with literals and ternaries are chosen by params or such comparisons. What
is read is the longest part of a text, so three kinds of operands are told apart by what may follow
them: after a bare operand any mark, after a comparison no comparator, and after a ternary only the
end, a comma, a bracket or a colon.
-/

namespace FunctionManifest

namespace Outline

/-! ## Documented operands -/

def keywords : List Text := ["null", "true", "false"]

/-- It stands for itself, without a comparator or a question mark outside brackets. -/
def IsBare : Outline → Prop
  | .compare .. | .ifElse .. => False
  | _ => True

def IsSimple : Outline → Prop
  | .ifElse .. => False
  | _ => True

/-- What may choose between two operands. -/
def IsTest : Outline → Prop
  | .name _ | .compare .. => True
  | _ => False

/-- Operands as the documentation has them: comparisons are of a param with something that is no
comparison and no ternary, and ternaries are chosen by a param or such a comparison. -/
inductive Documented : Outline → Prop
  | null : Documented .null
  | bool (b : Bool) : Documented (.bool b)
  | int (n : Int) : Documented (.int n)
  | text (t : Text) : Documented (.text t)
  | name {name : Text} (hname : Text.IsIdentifier name) (hword : name ∉ keywords) :
      Documented (.name name)
  | list {items : List Outline} (hitems : ∀ item ∈ items, Documented item) :
      Documented (.list items)
  | compare {op : Comparator} {name : Text} {right : Outline} (hname : Documented (.name name))
      (hbare : right.IsBare) (hright : Documented right) :
      Documented (.compare op (.name name) right)
  | ifElse {test ifTrue ifFalse : Outline} (hkind : test.IsTest) (htest : Documented test)
      (hifTrue : Documented ifTrue) (hifFalse : Documented ifFalse) :
      Documented (.ifElse test ifTrue ifFalse)

/-! ## What follows an operand -/

/-- The mark that follows after a blank. -/
def markAfter? : Text → Option Letter
  | .char ' ' :: mark :: _ => some mark
  | _ => none

def comparatorMarks : List Letter := [.char '=', .char '<', .char '>']

/-- No comparison goes on here. -/
def Closes (rest : Text) : Prop := Text.Stops rest ∧ ∀ mark ∈ markAfter? rest, mark ∉ comparatorMarks

/-- Neither a comparison nor a ternary goes on here. -/
inductive Ends : Text → Prop
  | stop : Ends []
  | comma (rest : Text) : Ends (.char ',' :: rest)
  | bracket (rest : Text) : Ends (.char ']' :: rest)
  | colon (rest : Text) : Ends (" : " ++ rest)

theorem Ends.closes {rest : Text} (h : Ends rest) : Closes rest := by
  cases h <;> exact ⟨fun c hc => by cases hc <;> decide, fun mark hmark => by cases hmark <;> decide⟩

theorem Ends.not_choice {rest : Text} (h : Ends rest) (more : Text) : rest ≠ " ? " ++ more := by
  rintro rfl
  cases h

/-- After a comparison comes what chooses by it. -/
theorem closes_choice (rest : Text) : Closes (" ? " ++ rest) :=
  ⟨fun c hc => by cases hc; decide, fun mark hmark => by cases hmark; decide⟩

theorem stops_blank (rest : Text) : Text.Stops (.char ' ' :: rest) := fun c hc => by
  cases hc
  decide

theorem Closes.not_comparison {rest : Text} (h : Closes rest) (op : Comparator) (more : Text) :
    rest ≠ .char ' ' :: ((op.symbol : Text) ++ more) := by
  rintro rfl
  cases op <;> exact h.2 _ rfl (by decide)

/-! ## Atoms -/

/-- Literals that are words, and params. -/
inductive IsAtom : Outline → Prop
  | null : IsAtom .null
  | bool (b : Bool) : IsAtom (.bool b)
  | int (n : Int) : IsAtom (.int n)
  | name {name : Text} (hname : Text.IsIdentifier name) (hword : name ∉ keywords) :
      IsAtom (.name name)

theorem not_beginsNumber_of_isIdentifier {name : Text} (h : Text.IsIdentifier name) :
    ∀ c ∈ name.head?, Text.beginsNumber c = false := by
  intro c hc
  have hdigit := h.2.1 c hc
  have hletter := h.2.2 c (List.mem_of_mem_head? hc)
  cases c with
  | half => rfl
  | char c =>
    have hminus : c ≠ '-' := by
      rintro rfl
      revert hletter
      decide
    simpa [Text.beginsNumber, Letter.isIn, hminus] using hdigit

namespace IsAtom

variable {x x' : Outline}

theorem isWord (h : IsAtom x) : Text.IsWord x.rendered := by
  cases h with
  | null => decide
  | bool b => cases b <;> decide
  | int n => exact Text.isWord_ofInt n
  | name hname _ => exact Text.isWord_of_isIdentifier hname

theorem not_beginsNumber_of_keyword {word : Text} (h : word ∈ keywords) :
    ∀ c ∈ word.head?, Text.beginsNumber c = false := by
  revert word
  decide

/-- What is written as a number is one. -/
theorem eq_int {n : Int} (h : IsAtom x) (heq : x.rendered = Text.ofInt n) : x = .int n := by
  have hbegins := Text.beginsNumber_ofInt n
  obtain ⟨c, rest, hcons⟩ := List.exists_cons_of_ne_nil (Text.isWord_ofInt n).1
  rw [hcons] at hbegins heq
  have hfirst : Text.beginsNumber c = true := hbegins c rfl
  have hnot : (∀ c ∈ x.rendered.head?, Text.beginsNumber c = false) → False := fun hall => by
    have hnone := hall c (by rw [heq]; rfl)
    rw [hfirst] at hnone
    cases hnone
  cases h with
  | null => exact (hnot (not_beginsNumber_of_keyword (by decide))).elim
  | bool b => exact (hnot (not_beginsNumber_of_keyword (by cases b <;> decide))).elim
  | int m => exact congrArg _ (Text.ofInt_injective (heq.trans hcons.symm))
  | name hname _ => exact (hnot (not_beginsNumber_of_isIdentifier hname)).elim

/-- What is written as a name is one. -/
theorem eq_name {name : Text} (hname : Text.IsIdentifier name) (hword : name ∉ keywords)
    (h : IsAtom x) (heq : x.rendered = name) : x = .name name := by
  subst heq
  cases h with
  | null => exact absurd (by decide) hword
  | bool b => exact absurd (by cases b <;> decide) hword
  | int n => exact ((IsAtom.name hname hword).eq_int rfl).symm
  | name => rfl

/-- Keywords, numbers and names do not meet. -/
theorem eq_of_rendered (h : IsAtom x) (h' : IsAtom x') (heq : x.rendered = x'.rendered) :
    x = x' := by
  cases h' with
  | int n => exact h.eq_int heq
  | name hname hword => exact h.eq_name hname hword heq
  | null =>
    cases h with
    | null => rfl
    | bool b => cases b <;> exact absurd heq (by decide)
    | int n => exact (IsAtom.null.eq_int heq.symm).symm
    | name hname hword => exact (IsAtom.null.eq_name hname hword heq.symm).symm
  | bool b' =>
    cases h with
    | null => cases b' <;> exact absurd heq (by decide)
    | bool b => cases b <;> cases b' <;> first | rfl | exact absurd heq (by decide)
    | int n => exact ((IsAtom.bool b').eq_int heq.symm).symm
    | name hname hword => exact ((IsAtom.bool b').eq_name hname hword heq.symm).symm

end IsAtom

/-! ## Telling operands apart -/

/-- Among the documented outlines of a kind, a text starts with one only, if what follows it is of
that kind as well. -/
def Determined (kind : Outline → Prop) (follows : Text → Prop) (x : Outline) : Prop :=
  kind x → ∀ {x' : Outline} {rest rest' : Text}, x'.Documented → kind x' → follows rest →
    follows rest' → x.rendered ++ rest = x'.rendered ++ rest' → x = x' ∧ rest = rest'

/-- Bare outlines begin as words, quoted texts or lists do. -/
theorem Documented.bare_cases {x : Outline} (h : x.Documented) (hbare : x.IsBare) :
    x.IsAtom ∨ (∃ t, x = .text t) ∨
      ∃ items, x = .list items ∧ ∀ item ∈ items, item.Documented := by
  cases h with
  | null => exact .inl .null
  | bool b => exact .inl (.bool b)
  | int n => exact .inl (.int n)
  | text t => exact .inr (.inl ⟨t, rfl⟩)
  | name hname hword => exact .inl (.name hname hword)
  | list hitems => exact .inr (.inr ⟨_, rfl, hitems⟩)
  | compare => exact hbare.elim
  | ifElse => exact hbare.elim

/-- A word does not begin as a quoted text or a list does. -/
theorem IsAtom.append_ne {x : Outline} (h : x.IsAtom) {c : Letter}
    (hc : Text.isWordLetter c = false) (rest more : Text) : x.rendered ++ rest ≠ c :: more := by
  intro heq
  obtain ⟨first, tail, hcons⟩ := List.exists_cons_of_ne_nil h.isWord.1
  have hfirst := h.isWord.2 first (hcons ▸ List.mem_cons_self)
  rw [hcons, List.cons_append] at heq
  rw [(List.cons.inj heq).1, hc] at hfirst
  cases hfirst

/-- No operand begins with a closing bracket. -/
theorem Documented.append_ne {x : Outline} (h : x.Documented) (rest more : Text) :
    x.rendered ++ rest ≠ .char ']' :: more := by
  induction h generalizing rest with
  | null => exact IsAtom.null.append_ne (by decide) rest more
  | bool b => exact (IsAtom.bool b).append_ne (by decide) rest more
  | int n => exact (IsAtom.int n).append_ne (by decide) rest more
  | name hname hword => exact (IsAtom.name hname hword).append_ne (by decide) rest more
  | text t => exact fun heq => by cases heq
  | list _ _ => exact fun heq => by cases heq
  | compare _ _ _ ihname _ =>
    simp only [rendered, List.append_assoc] at ihname ⊢
    exact ihname _
  | ifElse _ _ _ _ ihtest _ _ =>
    simp only [rendered, List.append_assoc] at ihtest ⊢
    exact ihtest _

/-! ## Lists -/

/-- What follows the first item of a list. -/
def afterFirst (rest : Text) : List Outline → Text
  | [] => .char ']' :: rest
  | next :: items => ", " ++ Text.join ", " (renderedAll (next :: items)) ++ .char ']' :: rest

theorem join_renderedAll_cons (item : Outline) (items : List Outline) (rest : Text) :
    Text.join ", " (renderedAll (item :: items)) ++ .char ']' :: rest =
      item.rendered ++ afterFirst rest items := by
  cases items with
  | nil => simp [renderedAll, afterFirst, Text.join]
  | cons next items => simp [renderedAll, afterFirst, Text.join, List.intercalate_cons_cons]

theorem ends_afterFirst (rest : Text) (items : List Outline) : Ends (afterFirst rest items) := by
  cases items with
  | nil => exact .bracket _
  | cons next items => exact .comma _

/-- Items are told apart one by one, and their list ends where a bracket closes it. -/
theorem items_determined {items items' : List Outline} {rest rest' : Text}
    (hitems : ∀ item ∈ items, item.Determined (fun _ => True) Ends)
    (hdocumented : ∀ item ∈ items, item.Documented)
    (hdocumented' : ∀ item ∈ items', item.Documented)
    (h : Text.join ", " (renderedAll items) ++ .char ']' :: rest =
      Text.join ", " (renderedAll items') ++ .char ']' :: rest') :
    items = items' ∧ rest = rest' := by
  induction items generalizing items' with
  | nil =>
    cases items' with
    | nil => exact ⟨rfl, (List.cons.inj h).2⟩
    | cons item' items' =>
      rw [join_renderedAll_cons] at h
      exact absurd h.symm ((hdocumented' _ List.mem_cons_self).append_ne _ _)
  | cons item items ih =>
    rw [join_renderedAll_cons] at h
    cases items' with
    | nil => exact absurd h ((hdocumented _ List.mem_cons_self).append_ne _ _)
    | cons item' items' =>
      rw [join_renderedAll_cons] at h
      obtain ⟨rfl, hafter⟩ := hitems item List.mem_cons_self trivial
        (hdocumented' _ List.mem_cons_self) trivial (ends_afterFirst _ _) (ends_afterFirst _ _) h
      cases items with
      | nil =>
        cases items' with
        | nil => exact ⟨rfl, (List.cons.inj hafter).2⟩
        | cons => cases hafter
      | cons next items =>
        cases items' with
        | nil => cases hafter
        | cons next' items' =>
          simp only [afterFirst, List.append_assoc] at hafter
          obtain ⟨hsame, hrest⟩ := ih (fun i hi => hitems i (List.mem_cons_of_mem _ hi))
            (fun i hi => hdocumented i (List.mem_cons_of_mem _ hi))
            (fun i hi => hdocumented' i (List.mem_cons_of_mem _ hi))
            (List.append_cancel_left hafter)
          exact ⟨congrArg _ hsame, hrest⟩

/-! ## Each kind of operand -/

theorem bracketed_append (items : List Outline) (rest : Text) :
    bracketed (renderedAll items) ++ rest =
      .char '[' :: (Text.join ", " (renderedAll items) ++ .char ']' :: rest) := by
  simp [bracketed, Text.ofString, Text.ofChars]

/-- Bare operands: a word ends where words stop, a text at its quote, and a list at its bracket. -/
theorem Documented.determined_bare {x : Outline} (h : x.Documented)
    (hitems : ∀ items, x = .list items → ∀ item ∈ items, item.Determined (fun _ => True) Ends) :
    x.Determined IsBare Text.Stops := by
  intro hbare x' rest rest' h' hbare' hrest hrest' heq
  obtain hatom | ⟨t, rfl⟩ | ⟨items, rfl, hlist⟩ := h.bare_cases hbare <;>
    obtain hatom' | ⟨t', rfl⟩ | ⟨items', rfl, hlist'⟩ := h'.bare_cases hbare'
  · obtain ⟨hword, hsame⟩ := Text.word_append_inj hatom.isWord hrest hatom'.isWord hrest' heq
    exact ⟨hatom.eq_of_rendered hatom' hword, hsame⟩
  · exact absurd heq (hatom.append_ne (by decide) _ _)
  · exact absurd heq (hatom.append_ne (by decide) _ _)
  · exact absurd heq.symm (hatom'.append_ne (by decide) _ _)
  · obtain ⟨rfl, hsame⟩ := Json.quoted_append_inj heq
    exact ⟨rfl, hsame⟩
  · cases heq
  · exact absurd heq.symm (hatom'.append_ne (by decide) _ _)
  · cases heq
  · simp only [rendered, bracketed_append, List.cons.injEq, true_and] at heq
    obtain ⟨rfl, hsame⟩ := items_determined (hitems items rfl) hlist hlist' heq
    exact ⟨rfl, hsame⟩

/-- A comparator ends at the blank behind it. -/
theorem comparator_determined {op op' : Comparator} {rest rest' : Text}
    (h : (op.symbol : Text) ++ .char ' ' :: rest = op'.symbol ++ .char ' ' :: rest') :
    op = op' ∧ rest = rest' := by
  have hop : op = op' := by cases op <;> cases op' <;> first | rfl | cases h
  subst hop
  exact ⟨rfl, (List.cons.inj (List.append_cancel_left h)).2⟩

theorem compare_append (op : Comparator) (left right : Outline) (rest : Text) :
    (compare op left right).rendered ++ rest =
      left.rendered ++
        .char ' ' :: ((op.symbol : Text) ++ .char ' ' :: (right.rendered ++ rest)) := by
  simp [rendered, Text.ofString, Text.ofChars]

theorem ifElse_append (test ifTrue ifFalse : Outline) (rest : Text) :
    (ifElse test ifTrue ifFalse).rendered ++ rest =
      test.rendered ++ (" ? " ++ (ifTrue.rendered ++ (" : " ++ (ifFalse.rendered ++ rest)))) := by
  simp [rendered]

theorem Documented.simple_cases {x : Outline} (h : x.Documented) (hsimple : x.IsSimple) :
    x.IsBare ∨ ∃ op name right, x = .compare op (.name name) right ∧
      (Outline.name name).Documented ∧ right.IsBare ∧ right.Documented := by
  cases h with
  | compare hname hbare hright => exact .inr ⟨_, _, _, rfl, hname, hbare, hright⟩
  | ifElse => exact hsimple.elim
  | _ => exact .inl trivial

/-- What is told apart as bare is told apart from comparisons too, where no comparison goes on. -/
theorem Determined.simple_of_bare {x : Outline} (hbare : x.IsBare)
    (h : x.Determined IsBare Text.Stops) : x.Determined IsSimple Closes := by
  intro _ x' rest rest' h' hsimple' hrest hrest' heq
  obtain hbare' | ⟨op, name, right, rfl, hname, _⟩ := h'.simple_cases hsimple'
  · exact h hbare h' hbare' hrest.1 hrest'.1 heq
  · rw [compare_append] at heq
    obtain ⟨_, hmore⟩ := h hbare hname trivial hrest.1 (stops_blank _) heq
    exact absurd hmore (hrest.not_comparison _ _)

/-- A comparison is told apart by its name, its comparator and its right side. -/
theorem Determined.compare {op : Comparator} {name : Text} {right : Outline}
    (hname : (Outline.name name).Determined IsBare Text.Stops) (hbare : right.IsBare)
    (hright : right.Determined IsBare Text.Stops) :
    (Outline.compare op (.name name) right).Determined IsSimple Closes := by
  intro _ x' rest rest' h' hsimple' hrest hrest' heq
  rw [compare_append] at heq
  obtain hbare' | ⟨op', name', right', rfl, hname', hbare', hright'⟩ := h'.simple_cases hsimple'
  · obtain ⟨_, hmore⟩ := hname trivial h' hbare' (stops_blank _) hrest'.1 heq
    exact absurd hmore.symm (hrest'.not_comparison _ _)
  · rw [compare_append] at heq
    obtain ⟨hsame, hmore⟩ := hname trivial hname' trivial (stops_blank _) (stops_blank _) heq
    obtain ⟨rfl, hbehind⟩ := comparator_determined (List.cons.inj hmore).2
    obtain ⟨rfl, hrests⟩ := hright hbare hright' hbare' hrest.1 hrest'.1 hbehind
    exact ⟨by rw [hsame], hrests⟩

theorem IsTest.isSimple {x : Outline} (h : x.IsTest) : x.IsSimple := by
  cases x <;> trivial

/-- What is told apart from comparisons is told apart from ternaries too, where none goes on. -/
theorem Determined.of_simple {x : Outline} (hsimple : x.IsSimple)
    (h : x.Determined IsSimple Closes) : x.Determined (fun _ => True) Ends := by
  intro _ x' rest rest' h' _ hrest hrest' heq
  by_cases hsimple' : x'.IsSimple
  · exact h hsimple h' hsimple' hrest.closes hrest'.closes heq
  · cases h' with
    | ifElse hkind' htest' _ _ =>
      rw [ifElse_append] at heq
      obtain ⟨_, hmore⟩ := h hsimple htest' hkind'.isSimple hrest.closes (closes_choice _) heq
      exact absurd hmore (hrest.not_choice _)
    | _ => exact absurd trivial hsimple'

/-- A ternary is told apart by its test and its branches. -/
theorem Determined.ifElse {test ifTrue ifFalse : Outline} (hkind : test.IsTest)
    (htest : test.Determined IsSimple Closes) (hifTrue : ifTrue.Determined (fun _ => True) Ends)
    (hifFalse : ifFalse.Determined (fun _ => True) Ends) :
    (Outline.ifElse test ifTrue ifFalse).Determined (fun _ => True) Ends := by
  intro _ x' rest rest' h' _ hrest hrest' heq
  rw [ifElse_append] at heq
  by_cases hsimple' : x'.IsSimple
  · obtain ⟨_, hmore⟩ := htest hkind.isSimple h' hsimple' (closes_choice _) hrest'.closes heq
    exact absurd hmore.symm (hrest'.not_choice _)
  · cases h' with
    | ifElse hkind' htest' hifTrue' hifFalse' =>
      rw [ifElse_append] at heq
      obtain ⟨rfl, hmore⟩ := htest hkind.isSimple htest' hkind'.isSimple (closes_choice _)
        (closes_choice _) heq
      obtain ⟨rfl, hbehind⟩ := hifTrue trivial hifTrue' trivial (.colon _) (.colon _)
        (List.append_cancel_left hmore)
      obtain ⟨rfl, hrests⟩ := hifFalse trivial hifFalse' trivial hrest hrest'
        (List.append_cancel_left hbehind)
      exact ⟨rfl, hrests⟩
    | _ => exact absurd trivial hsimple'

/-! ## All operands -/

/-- Every documented operand is told apart, each kind in its place. -/
theorem Documented.determined {x : Outline} (h : x.Documented) :
    x.Determined IsBare Text.Stops ∧ x.Determined IsSimple Closes ∧
      x.Determined (fun _ => True) Ends := by
  have of_bare : ∀ {x : Outline}, x.IsBare → x.Determined IsBare Text.Stops →
      x.Determined IsBare Text.Stops ∧ x.Determined IsSimple Closes ∧
        x.Determined (fun _ => True) Ends := fun {x} hbare hdetermined =>
    have hsimple := Determined.simple_of_bare hbare hdetermined
    ⟨hdetermined, hsimple, .of_simple (by cases x <;> trivial) hsimple⟩
  induction h with
  | @compare op _ _ _ hbare _ ihname ihright =>
    have hsimple : Determined IsSimple Closes (.compare op _ _) :=
      .compare ihname.1 hbare ihright.1
    exact ⟨False.elim, hsimple, .of_simple trivial hsimple⟩
  | ifElse hkind _ _ _ ihtest ihifTrue ihifFalse =>
    exact ⟨False.elim, False.elim, .ifElse hkind ihtest.2.1 ihifTrue.2.2 ihifFalse.2.2⟩
  | list hitems ih =>
    refine of_bare trivial ((Documented.list hitems).determined_bare ?_)
    rintro items ⟨⟩ item hitem
    exact (ih item hitem).2.2
  | _ => exact of_bare trivial (Documented.determined_bare (by constructor <;> assumption) nofun)

theorem Documented.rendered_inj {x x' : Outline} (h : x.Documented) (h' : x'.Documented)
    (heq : x.rendered = x'.rendered) : x = x' :=
  (h.determined.2.2 trivial h' trivial .stop .stop (congrArg (· ++ []) heq)).1

end Outline

/-- The text of a documented operand determines it, up to whether a param is referred to and whether
items stand in a list or a tuple: two operands are rendered as one text if their outlines are the
same, and not otherwise. -/
theorem Operand.render_eq_iff (call : Caller) {s : Session} {o o' : Operand} {x x' : Outline}
    (hx : o.outline? s.heap = some x) (hx' : o'.outline? s.heap = some x') (h : x.Documented)
    (h' : x'.Documented) :
    ∃ text text', (o.render (asking call)).on s = (.ok (.text text), s) ∧
      (o'.render (asking call)).on s = (.ok (.text text'), s) ∧ (text = text' ↔ x = x') :=
  ⟨x.rendered, x'.rendered, on_operand_render call o hx, on_operand_render call o' hx',
    h.rendered_inj h', congrArg _⟩

/-- A ternary over a list with a param, and one over a tuple with a reference to this param. -/
def choiceHeap : Heap :=
  { Heap.initial with cells :=
      #[.tuple [],
        .param (.builtin "A" "a"),
        .formula (.param (.ref 1)),
        .formula (.compare .greaterEqual (.ref 2) (.text "] ? \" : ")),
        .list [.ref 1, .text ", "],
        .tuple [.ref 2, .text ", "],
        .formula (.ifElse (.ref 3) (.ref 4) (.int (-1))),
        .formula (.ifElse (.ref 3) (.ref 5) (.int (-1)))] }

/-- Both ternaries have one text, whatever their texts have of the syntax. -/
theorem Operand.render_eq_iff_choiceHeap :
    let call : Caller := fun _ _ _ => throw .noValue
    let s := { Session.fresh default default with heap := choiceHeap }
    ∃ text text', ((choiceHeap.operand (.ref 6)).render (asking call)).on s = (.ok (.text text), s) ∧
      ((choiceHeap.operand (.ref 7)).render (asking call)).on s = (.ok (.text text'), s) ∧
      text = text' := by
  intro call s
  let x : Outline :=
    .ifElse (.compare .greaterEqual (.name "A") (.text "] ? \" : "))
      (.list [.name "A", .text ", "]) (.int (-1))
  have hname : Outline.Documented (.name "A") := .name (by decide) (by decide)
  have hx : x.Documented := by
    refine .ifElse trivial (.compare hname trivial (.text _)) (.list ?_) (.int _)
    exact List.forall_mem_cons.mpr ⟨hname, List.forall_mem_singleton.mpr (.text _)⟩
  have houtline : (choiceHeap.operand (.ref 6)).outline? s.heap = some x := rfl
  have houtline' : (choiceHeap.operand (.ref 7)).outline? s.heap = some x := rfl
  obtain ⟨text, text', hrun, hrun', hiff⟩ := Operand.render_eq_iff call houtline houtline' hx hx
  exact ⟨text, text', hrun, hrun', hiff.mpr rfl⟩

end FunctionManifest
