import FunctionManifest.Proofs.Language.Frame
import FunctionManifest.Proofs.Relocation.Access

/-!
# Reading params

A param reads the environment, which has no addresses in it. What is read is kept as a new object.
-/

namespace FunctionManifest

open Eval

variable {ρ : Relocation} {declaring : Prop}

/-! ## Reading params -/

instance : Relocatable Reading := ⟨fun ρ reading => ⟨moved ρ reading.result, reading.warnings⟩⟩

theorem moved_readInt (name text : Text) : moved ρ (readInt name text) = readInt name text := by
  unfold readInt
  split
  · rfl
  · split <;> rfl

theorem moved_readFloat (name text : Text) :
    moved ρ (readFloat name text) = readFloat name text := by
  have hfloat : moved ρ (Decimal.leadingFloat? text) = Decimal.leadingFloat? text := by
    unfold Decimal.leadingFloat?
    dsimp only
    split <;> simp
  unfold readFloat
  cases hread : Decimal.leadingFloat? text with
  | none => rfl
  | some x =>
    rw [hread, moved_some, Option.some.injEq] at hfloat
    exact congrArg (fun x => Reading.ok (.float x)) hfloat

section

variable {heap heap' : Heap} [Heap.Moved ρ heap heap']

theorem moved_variableName (v : Value) :
    Environment.variableName heap' (moved ρ v) = Environment.variableName heap v := by
  have htype : heap'.type (moved ρ v) = heap.type v := Heap.moved_type v
  cases v <;> simp_all [Environment.variableName]

theorem moved_rawText? (environment : Environment) (name : Value) :
    environment.rawText? heap' (moved ρ name) = environment.rawText? heap name := by
  unfold Environment.rawText?
  rw [moved_variableName]

theorem moved_platformValue? (environment : Environment) (key : Value) :
    platformValue? heap' environment (moved ρ key) =
      moved ρ (platformValue? heap environment key) := by
  unfold platformValue?
  cases environment.text? platformVariable with
  | none => rfl
  | some raw =>
    have hfound : ∀ entries : Entries,
        (do return (← heap'.lookEntry (moved ρ entries) (moved ρ key)).filter heap'.isTruthy) =
          moved ρ (do return (← heap.lookEntry entries key).filter heap.isTruthy :
            Except Failure (Option Value)) :=
      fun entries => by
        rw [Heap.moved_lookEntry]
        refine moved_bind _ fun found => ?_
        cases found with
        | none => rfl
        | some v =>
          simp only [moved_some, Option.filter_some, Heap.moved_isTruthy, moved_pure]
          split <;> rfl
    have hdocument := moved_readDocument (ρ := ρ) raw .unreadablePlatform
    cases hread : readDocument raw .unreadablePlatform with
    | error failure => simp only [hread]; rfl
    | ok document =>
      rw [hread, moved_ok, Except.ok.injEq] at hdocument
      simp only [hread]
      cases document with
      | mapping entries =>
        rw [moved_valueMapping, Value.mapping.injEq] at hdocument
        have := hfound entries
        rw [hdocument] at this
        exact this
      | _ => rfl

namespace Param

variable {print print' : Value → Eval Text}
    (h : ∀ v, Mirrors ρ declaring (print v) (print' (moved ρ v)))

section

include h

theorem mirrors_text? (environment : Environment) (p : Param) :
    Mirrors ρ declaring (p.text? heap print environment)
      ((moved ρ p).text? heap' print' environment) := by
  unfold text?
  rw [Param.relocatable_moved_name, moved_rawText?]
  refine mirrors_bind (mirrors_ofExcept (moved_fixedResult moved_plainOption _).symm) fun raw => ?_
  cases raw with
  | some raw => exact mirrors_pure rfl
  | none =>
    have hdefault :
        Mirrors ρ declaring (some <$> print p.default) (some <$> print' (moved ρ p.default)) :=
      mirrors_map (h _) fun _ => rfl
    simp only [moved_none, Param.relocatable_moved_default]
    cases hp : p.default with
    | null => exact mirrors_pure rfl
    | _ =>
      rw [hp] at hdefault
      exact hdefault

theorem mirrors_readText (environment : Environment) (p : Param) {zero zero' : Value}
    (hzero : zero' = moved ρ zero)
    {read : Text → Text → Reading}
      (hread : ∀ name text, moved ρ (read name text) = read name text) :
    Mirrors ρ declaring (p.readText heap print environment zero read)
      ((moved ρ p).readText heap' print' environment zero' read) := by
  subst hzero
  refine mirrors_bind (mirrors_text? h environment p) fun text => ?_
  cases text with
  | none => exact mirrors_pure rfl
  | some text =>
    simp only [moved_some, moved_plain, Param.relocatable_moved_name]
    cases p.name <;> exact mirrors_pure (hread _ _).symm

end

theorem moved_readListParam (environment : Environment) (p : Param) :
    (moved ρ p).readListParam heap' environment = moved ρ (p.readListParam heap environment) := by
  unfold readListParam
  rw [Param.relocatable_moved_name, moved_rawText?]
  cases environment.rawText? heap p.name with
  | error => rfl
  | ok raw =>
    cases raw with
    | some raw => exact congrArg Except.ok (moved_texts _).symm
    | none =>
      have hdefault : (do return Value.list (← heap'.items (moved ρ p.default))) =
          moved ρ (do return Value.list (← heap.items p.default) : Except Failure Value) := by
        rw [Heap.moved_items]
        exact moved_bind _ fun items => congrArg Except.ok (moved_valueList items).symm
      simp only [Param.relocatable_moved_default]
      cases hp : p.default with
      | null => rfl
      | _ =>
        rw [hp] at hdefault
        exact hdefault

theorem moved_readJson (environment : Environment) (p : Param) :
    (moved ρ p).readJson heap' environment = moved ρ (p.readJson heap environment) := by
  unfold readJson
  rw [Param.relocatable_moved_name, moved_rawText?, Heap.moved_shown]
  cases environment.rawText? heap p.name with
  | error => rfl
  | ok raw =>
    cases raw with
    | none => rfl
    | some raw =>
      cases heap.shown p.name with
      | error => rfl
      | ok shown => exact (moved_readDocument raw _).symm

theorem moved_specDefault (p : Param) :
    (moved ρ p).specDefault heap' = moved ρ (p.specDefault heap) := by
  unfold specDefault
  rw [Param.relocatable_moved_kind, Param.relocatable_moved_default, Value.moved_isNull,
    Heap.moved_isTruthy,
    Heap.moved_items?]
  split
  · split
    · cases heap.items? p.default with
      | none => rfl
      | some items =>
        simp only [moved_some, Heap.moved_joined]
        cases heap.joined _ items <;> rfl
    · rfl
  · rfl

include h in
theorem mirrors_read (environment : Environment) (p : Param) :
    Mirrors ρ declaring (p.read heap print environment)
      ((moved ρ p).read heap' print' environment) := by
  unfold read
  rw [Param.relocatable_moved_kind]
  cases p.kind with
  | base => exact mirrors_pure rfl
  | string => exact mirrors_readText h environment p rfl fun _ _ => rfl
  | int => exact mirrors_readText h environment p rfl moved_readInt
  | float => exact mirrors_readText h environment p rfl moved_readFloat
  | boolean => exact mirrors_readText h environment p rfl fun _ _ => rfl
  | list => exact mirrors_pure (congrArg (Reading.mk · []) (moved_readListParam environment p))
  | json => exact mirrors_pure (congrArg (Reading.mk · []) (moved_readJson environment p))
  | builtin =>
    refine mirrors_bind (mirrors_ofExcept (moved_platformValue? environment p.configKey))
      fun found => ?_
    cases found with
    | none => exact mirrors_pure rfl
    | some v => exact mirrors_map (h v) fun _ => rfl

end Param

theorem Secret.moved_read (environment : Environment) (secret : Secret) :
    (moved ρ secret).read heap' environment = moved ρ (secret.read heap environment) := by
  obtain ⟨json, name⟩ := secret
  unfold read
  simp only [Secret.relocatable_moved_name, moved_rawText?,
    Heap.moved_shown]
  cases environment.rawText? heap name with
  | error => rfl
  | ok raw =>
    cases raw with
    | none =>
      cases json with
      | false => rfl
      | true =>
        change (heap.shown name >>= fun shown => throw (.unsetSecret shown)) =
          moved ρ (heap.shown name >>= fun shown => throw (.unsetSecret shown))
        cases heap.shown name <;> rfl
    | some raw =>
      cases json with
      | false => rfl
      | true =>
        change (heap.shown name >>= fun shown => readDocument raw (.unreadableSecret shown)) =
          moved ρ (heap.shown name >>= fun shown => readDocument raw (.unreadableSecret shown))
        cases heap.shown name with
        | error => rfl
        | ok shown => exact (moved_readDocument raw _).symm

end

/-! ## Computed attributes -/

section

variable {call call' : Caller} (h : Caller.Mirrors ρ declaring call call')

theorem mirrors_ofReading {reading reading' : Reading} (h : reading' = moved ρ reading) :
    Mirrors ρ declaring (ofReading reading) (ofReading reading') := by
  subst h
  refine mirrors_bind (mirrors_forIn reading.warnings fun warning => ?_) fun _ =>
    mirrors_ofExcept rfl
  exact mirrors_bind (mirrors_log _ _ warning) fun _ => mirrors_pure rfl

include h

theorem mirrors_readParam (p : Param) :
    Mirrors ρ declaring (readParam call p) (readParam call' (moved ρ p)) := by
  refine mirrors_get_bind fun s s' hs => ?_
  have := hs.heap
  rw [hs.environment]
  refine mirrors_bind (Param.mirrors_read (mirrors_printed h) s.environment p)
    fun reading => ?_
  exact mirrors_bind (mirrors_ofReading rfl) fun v => mirrors_intern rfl

omit h in
theorem mirrors_rawValue (p : Param) : Mirrors ρ declaring (rawValue p) (rawValue (moved ρ p)) := by
  refine mirrors_get_bind fun s s' hs => ?_
  have := hs.heap
  rw [hs.environment, Param.relocatable_moved_name, moved_rawText?]
  refine mirrors_bind (mirrors_ofExcept (moved_fixedResult moved_plainOption _).symm) fun raw => ?_
  cases raw <;> exact mirrors_pure rfl

theorem mirrors_computed? (cell : Cell) (name : String) :
    Mirrors ρ declaring (computed? call cell name) (computed? call' (moved ρ cell) name) := by
  fun_cases computed? call cell name with
  | case1 p => exact mirrors_map (mirrors_readParam h p) fun _ => rfl
  | case2 p => exact mirrors_map (mirrors_rawValue p) fun _ => rfl
  | case3 secret =>
    refine mirrors_get_bind fun s s' hs => ?_
    have := hs.heap
    rw [hs.environment]
    exact mirrors_bind (mirrors_ofExcept (secret.moved_read s.environment))
      fun v =>
      mirrors_map (mirrors_intern rfl) fun _ => rfl
  | case4 f =>
    exact mirrors_map (mirrors_reading fun _ _ _ => f.moved_name Heap.moved_shown) fun _ => rfl
  | case5 r =>
    exact mirrors_bind (mirrors_reading fun _ _ _ => moved_mapM r.entries fun v =>
      Heap.moved_nameOf v) fun names =>
      mirrors_map (mirrors_intern (moved_valueList names).symm) fun _ => rfl
  | case6 p =>
    refine mirrors_map (mirrors_intern ?_) fun _ => rfl
    simp [moved_list]
  | case7 content =>
    exact mirrors_map (mirrors_reading fun _ _ _ =>
      (Heap.moved_contains content (.text "*")).trans (moved_plainResult _).symm) fun _ => rfl
  | case8 content =>
    exact mirrors_map (mirrors_reading fun _ _ _ =>
      (Heap.moved_same content (.text "**")).trans (moved_plainResult _).symm) fun _ => rfl
  | case9 hp hp' hs hf hr hpattern hliteral hliteral' =>
    have hnone : computed? call' (moved ρ cell) name = pure none := by
      cases cell <;> simp_all [computed?]
    rw [hnone]
    exact mirrors_pure rfl

theorem mirrors_attribute? (v : Value) (name : Text) :
    Mirrors ρ declaring (attribute? call v name) (attribute? call' (moved ρ v) name) := by
  refine mirrors_bind (mirrors_ready? v name) fun found => ?_
  cases found with
  | some found => exact mirrors_pure rfl
  | none =>
    refine mirrors_bind (mirrors_cell? v) fun cell => ?_
    cases cell with
    | none => exact mirrors_pure rfl
    | some cell => exact mirrors_computed? h cell name.spelled

theorem mirrors_getAttribute (v : Value) (name : Text) :
    Mirrors ρ declaring (getAttribute call v name) (getAttribute call' (moved ρ v) name) := by
  refine mirrors_bind (mirrors_attribute? h v name) fun found => ?_
  cases found with
  | none => exact mirrors_bind (mirrors_missing v name) fun failure => mirrors_throw _
  | some found => exact mirrors_pure rfl

end

/-! ## Setting -/

theorem Param.moved_with? (p : Param) (name : String) (v : Value) :
    (moved ρ p).with? name (moved ρ v) = moved ρ (p.with? name v) := by
  unfold with?
  split
  · rfl
  · rfl
  · rfl
  · rfl
  · rfl
  · rw [Param.relocatable_moved_kind]
    split <;> rfl
  · rfl

theorem Secret.moved_with? (secret : Secret) (name : String) (v : Value) :
    (moved ρ secret).with? name (moved ρ v) = moved ρ (secret.with? name v) := by
  unfold with?
  split <;> rfl

theorem Cell.moved_refusal (cell : Cell) (name : Text) :
    (moved ρ cell).refusal name = cell.refusal name := by
  unfold refusal
  rw [moved_parts?, moved_computedNames, moved_typeNames, moved_type]
  generalize cell.parts? = parts, cell.computedNames = computed, cell.typeNames = names, cell.type =
    type
  cases parts with
  | none => cases cell <;> rfl
  | some parts =>
    simp only [moved_some, moved_list, List.any_map]
    rfl

theorem moved_checkCalledName (name : Text) (v : Value) :
    checkCalledName name (moved ρ v) = checkCalledName name v := by
  cases v <;> simp [checkCalledName]

section

variable {heap heap' : Heap} [Heap.Moved ρ heap heap']

theorem Cell.moved_with (cell : Cell) (name : Text) (v : Value) :
    (moved ρ cell).with heap' name (moved ρ v) = moved ρ (cell.with heap name v) := by
  have hrefused : (Except.error ((moved ρ cell).refusal name) : Except Failure Cell) =
      moved ρ (.error (cell.refusal name)) := by
    rw [moved_refusal, moved_error]
  cases cell with
  | record fields => simp [Cell.with]
  | module attributes => simp [Cell.with]
  | unknown label attributes => simp [Cell.with]
  | callable label named attributes =>
    simp only [moved_cell_callable, Cell.with, moved_checkCalledName, Assoc.moved_set]
    cases named with
    | false => rfl
    | true => cases checkCalledName name v <;> rfl
  | trigger t attributes =>
    simp only [moved_cell_trigger, Cell.with, moved_checkCalledName, Assoc.moved_set]
    cases checkCalledName name v <;> rfl
  | failure kind arguments attributes =>
    simp only [moved_cell_failure, Cell.with, Heap.moved_items, Assoc.moved_set]
    split
    · exact moved_bind _ fun items => by simp
    · rfl
  | param p =>
    simp only [moved_cell_param, Cell.with, Param.moved_with?]
    cases p.with? name.spelled v with
    | none => exact hrefused
    | some p => rfl
  | secret secret =>
    simp only [moved_cell_secret, Cell.with, Secret.moved_with?]
    cases secret.with? name.spelled v with
    | none => exact hrefused
    | some secret => rfl
  | pattern => rfl
  | _ => exact hrefused

end

theorem mirrors_setAttribute (target name v : Value) :
    Mirrors ρ True (setAttribute target name v)
      (setAttribute (moved ρ target) (moved ρ name) (moved ρ v)) := by
  refine mirrors_heap_bind fun heap heap' _ => ?_
  rw [Heap.moved_cell?]
  have hsettings : ∀ (a a' : Nat) (name : Text), Mirrors ρ True
      (modify fun session => { session with settings := session.settings ++ [(a, name)] } :
        Eval Unit)
      (modify fun session => { session with settings := session.settings ++ [(a', name)] }) :=
    fun a a' name s s' hs => ⟨rfl, { hs with heap := hs.heap }⟩
  have hnone : ∀ (v : Value) (name : Text),
      Mirrors ρ True (throw (.noAttribute (heap.type v) name) : Eval Unit)
      (throw (.noAttribute (heap'.type (moved ρ v)) name)) := fun v name =>
    mirrors_failed (congrArg (Failure.noAttribute · name) (Heap.moved_type v))
  cases name with
  | text name =>
    cases target with
    | ref a =>
      cases heap.cell? (.ref a) with
      | none => exact hnone (.ref a) name
      | some cell =>
        exact mirrors_bind (mirrors_ofExcept (cell.moved_with name v)) fun cell =>
          mirrors_bind (mirrors_replace a rfl) fun _ => hsettings a _ name
    | _ => exact hnone _ name
  | _ => exact mirrors_failed (congrArg Failure.notAttributeName (Heap.moved_type _))

end FunctionManifest
