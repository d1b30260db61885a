import FunctionManifest.Proofs.Relocation.Data
import FunctionManifest.Proofs.Json.Reading

/-!
# Documents and their texts

A document that is read is the same everywhere: it has no address in it. A manifest is written alike
wherever its parts are kept.
-/

namespace FunctionManifest

variable {ρ : Relocation} {heap heap' : Heap}

/-! ## Documents

What is read from a text has no addresses, and its numbers that are none are all alike. -/

@[simp] theorem moved_ofQuotient (negative : Bool) (num den : Nat) :
    moved ρ (Binary64.ofQuotient negative num den) = .ofQuotient negative num den := by
  unfold Binary64.ofQuotient Binary64.ofRounded Binary64.bounded
  split
  · rfl
  · dsimp only
    split <;> split <;> rfl

@[simp] theorem moved_ofDecimal (negative : Bool) (digits : Nat) (exponent : Int) :
    moved ρ (Binary64.ofDecimal negative digits exponent) =
      .ofDecimal negative digits exponent := by
  unfold Binary64.ofDecimal
  dsimp only
  split
  · rfl
  · split
    · rfl
    · split <;> exact moved_ofQuotient _ _ _

namespace Json

variable {limit : Option Nat}

theorem moved_number (start : Text) : moved ρ (number limit start) = number limit start := by
  unfold number
  dsimp only
  split
  · rfl
  · split
    · split <;> rfl
    · simp

theorem moved_word? (start : Text) : moved ρ (word? start) = word? start := by
  have hwords : ∀ word ∈ words, moved ρ word.2 = word.2 := by
    simp only [words, List.forall_mem_cons]
    exact ⟨rfl, rfl, rfl, congrArg (fun identity => Value.float (.nan identity)) ρ.undefined_zero,
      rfl, rfl, List.forall_mem_nil _⟩
  unfold word?
  cases hfound : words.find? fun word => word.1.isPrefixOf start with
  | none => rfl
  | some word => simp [hwords word (List.mem_of_find?_eq_some hfound)]

theorem moved_object {members : Fields} (h : moved ρ members = members) :
    moved ρ (object members) = object members := by
  have hreverse : moved ρ members.reverse = members.reverse := by
    rw [moved_list, List.map_reverse, ← moved_list, h]
  rw [object, moved_named, ← Assoc.moved_ofList, hreverse]

theorem moved_text (start : Text) : moved ρ (text start) = text start := by
  cases text start <;> rfl

/-- What stays where it is from one step to the next. -/
theorem moved_next {α : Type} [Relocatable α] {result : Except Stop (α × Text)}
    {f : α × Text → Except Stop (Value × Text)}
    (h : moved ρ result = result) (hf : ∀ a rest, moved ρ a = a → moved ρ (f (a, rest)) =
      f (a, rest)) :
    moved ρ (result >>= f) = result >>= f := by
  rcases result with stop | ⟨a, rest⟩
  · rfl
  · rw [moved_ok, moved_pair, Except.ok.injEq, Prod.mk.injEq] at h
    exact hf a rest h.1

theorem moved_steps (fuel : Nat) :
    (∀ room start, moved ρ (value limit room fuel start) = value limit room fuel start) ∧
    (∀ room before start, moved ρ before = before →
      moved ρ (members limit room fuel before start) = members limit room fuel before start) ∧
    ∀ room before start, moved ρ before = before →
      moved ρ (elements limit room fuel before start) = elements limit room fuel before start := by
  induction fuel with
  | zero => exact ⟨fun _ _ => rfl, fun _ _ _ _ => rfl, fun _ _ _ _ => rfl⟩
  | succ fuel ih =>
    obtain ⟨hvalue, hmembers, helements⟩ := ih
    refine ⟨fun room start => ?_, fun room before start hbefore =>
      ?_, fun room before start hbefore => ?_⟩
    · unfold value
      split
      · exact moved_next (moved_text _) fun t rest _ => rfl
      · split
        · rfl
        · exact congrArg (fun v => Except.ok (v, _)) (moved_object moved_nil)
        · exact hmembers _ _ _ moved_nil
      · split
        · rfl
        · rfl
        · exact helements _ _ _ moved_nil
      · have hword := moved_word? (ρ := ρ) start
        cases hfound : word? start with
        | none => exact moved_number start
        | some found =>
          rw [hfound, moved_some, Option.some.injEq] at hword
          exact congrArg Except.ok hword
    · unfold members
      split
      · refine moved_next (moved_text _) fun name rest _ => ?_
        dsimp only
        split
        · refine moved_next (hvalue _ _) fun v rest hv => ?_
          have hall : moved ρ ((name, v) :: before) = (name, v) :: before := by
            rw [moved_cons, moved_pair, moved_plain, hv, hbefore]
          dsimp only
          split
          · exact congrArg (fun v => Except.ok (v, _)) (moved_object hall)
          · exact hmembers _ _ _ hall
          · rfl
        · rfl
      · rfl
    · unfold elements
      refine moved_next (hvalue _ _) fun v rest hv => ?_
      have hall : moved ρ (v :: before) = v :: before := by rw [moved_cons, hv, hbefore]
      dsimp only
      split
      · refine congrArg (fun v => Except.ok (v, _)) ?_
        rw [moved_valueList, moved_list, List.map_reverse, ← moved_list, hall]
      · exact helements _ _ _ hall
      · rfl

@[simp] theorem moved_read (source : Text) : moved ρ (read source) = read source := by
  have hvalue :
      moved ρ (value (some digitLimit) depthLimit (2 * source.length + 2) (skipBlanks source)) =
        value (some digitLimit) depthLimit (2 * source.length + 2) (skipBlanks source) :=
    (moved_steps _).1 _ _
  unfold read readWithin document
  by_cases hmark : source.head? = some (.char '\ufeff')
  · rw [if_pos hmark]
    rfl
  · rw [if_neg hmark]
    rcases hfound :
      value (some digitLimit) depthLimit (2 * source.length + 2) (skipBlanks source) with
      stop | ⟨v, rest⟩
    · cases stop <;> rfl
    · rw [hfound, moved_ok, moved_pair, Except.ok.injEq, Prod.mk.injEq] at hvalue
      simp only [bind, Except.bind]
      cases skipBlanks rest with
      | nil => exact congrArg Except.ok hvalue.1
      | cons => rfl

end Json

@[simp] theorem moved_readDocument (raw : Text) (refusal : Json.Fault → Failure) :
    moved ρ (readDocument raw refusal) = readDocument raw refusal := by
  have hread := Json.moved_read (ρ := ρ) raw
  unfold readDocument
  cases hfound : Json.read raw with
  | error => rfl
  | ok v =>
    rw [hfound, moved_ok, Except.ok.injEq] at hread
    exact congrArg Except.ok hread

/-! ## Manifests as texts -/

section

variable [Heap.Moved ρ heap heap']

namespace Json

omit [Heap.Moved ρ heap heap'] in
theorem moved_wordText? (v : Value) : wordText? (moved ρ v) = wordText? v := by
  cases v with
  | float x => cases x <;> rfl
  | _ => simp [wordText?]

theorem moved_memberName (v : Value) : memberName heap' (moved ρ v) = memberName heap v := by
  cases v with
  | text => simp [memberName]
  | _ =>
    rw [memberName, memberName, moved_wordText?, Heap.moved_type]
    all_goals
      intro _ h
      cases h

theorem moved_writeFrom (fuel : Nat) (way : List Nat) (depth : Nat) (v : Value) :
    writeFrom heap' fuel (way.map ρ.address) depth (moved ρ v) =
      writeFrom heap fuel way depth v := by
  induction fuel generalizing way depth v with
  | zero => rfl
  | succ fuel ih =>
    have hitems : ∀ (way : List Nat) (items : List Value),
        (moved ρ items).mapM (writeFrom heap' fuel (way.map ρ.address) (depth + 1)) =
          items.mapM (writeFrom heap fuel way (depth + 1)) :=
            fun way items => mapM_moved items (ih way _)
    have hentries : ∀ (way : List Nat) (entries : Entries),
        ((moved ρ entries).mapM fun entry => do
          let name ← memberName heap' entry.1
          return name ++ ": " ++ (← writeFrom heap' fuel (way.map ρ.address) (depth + 1) entry.2)) =
        entries.mapM fun entry => do
          let name ← memberName heap entry.1
          return name ++ ": " ++ (← writeFrom heap fuel way (depth + 1) entry.2) :=
      fun way entries => mapM_moved entries fun entry => by
        obtain ⟨key, v⟩ := entry
        simp only [moved_pair, moved_memberName, ih]
    have htype : heap'.type (moved ρ (heap.content v)) = heap.type (heap.content v) :=
      Heap.moved_type _
    have hword := moved_wordText? (ρ := ρ) (heap.content v)
    unfold writeFrom
    rw [Heap.moved_content, Heap.moved_enter?]
    generalize heap.content v = content at htype hword ⊢
    cases content with
    | list items =>
      cases items with
      | nil => rfl
      | cons item rest =>
        have hmany := fun way => hitems way (item :: rest)
        rw [moved_valueList]
        rw [moved_cons] at hmany ⊢
        cases Heap.enter? way v with
        | none => rfl
        | some way =>
          exact congrArg (fun parts => do return bracketed '[' ']' depth (← parts)) (hmany way)
    | tuple items =>
      cases items with
      | nil => rfl
      | cons item rest =>
        have hmany := fun way => hitems way (item :: rest)
        rw [moved_valueTuple]
        rw [moved_cons] at hmany ⊢
        cases Heap.enter? way v with
        | none => rfl
        | some way =>
          exact congrArg (fun parts => do return bracketed '[' ']' depth (← parts)) (hmany way)
    | mapping entries =>
      cases entries with
      | nil => rfl
      | cons entry rest =>
        have hmany := fun way => hentries way (entry :: rest)
        rw [moved_valueMapping]
        rw [moved_cons] at hmany ⊢
        cases Heap.enter? way v with
        | none => rfl
        | some way =>
          exact congrArg (fun parts => do return bracketed '\x7b' '\x7d' depth (← parts))
            (hmany way)
    | text t => rfl
    | _ => simp_all

@[simp] theorem moved_write (v : Value) :
    write heap' (moved ρ v) = write heap v := moved_writeFrom Heap.depth [] 0 v

end Json

end

end FunctionManifest
