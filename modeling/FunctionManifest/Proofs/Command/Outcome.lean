import FunctionManifest.Command.Run
import FunctionManifest.Proofs.Language.Asking
import FunctionManifest.Proofs.Loading.Load

/-!
# How the command ends

The command prints the whole manifest of what it loaded, or reports why it could not load the source
and prints nothing. A failure that ends the program passes through, and so does every failure after
loading: nothing is printed then either, but nothing is reported.
-/

namespace FunctionManifest.Command

open Eval

variable {invocation : Invocation} {s t u : Session} {loaded : LoadedStack} {failure : Failure}
  {text : Text}

/-! ## Stages -/

/-- What loading the source comes to. The log of the command starts empty. -/
def loading (invocation : Invocation) (s : Session) : Except Failure LoadedStack × Session :=
  (loadStack invocation.source invocation.config).on { s with log := [] }

/-- The wire form of a stack, as text. -/
def wireText (format : OutputFormat) (stack : Value) : Eval Text := do
  let wire ← stackWire call stack
  reading fun heap => renderManifest heap wire format

/-- The session once the log tells that the stack is rendered. -/
def announced (s : Session) (stack : Stack) : Session :=
  let count := (s.heap.size? stack.endpoints).getD 0
  { s with log := s.log ++
    [⟨.debug, commandLog, "Rendering manifest for " ++ Text.ofNat count ++ " endpoint(s)"⟩] }

/-- The source was loaded, and this is what rendering its stack comes to. -/
inductive Rendering (invocation : Invocation) (s : Session) : Except Failure Text → Prop
  | rendered {loaded : LoadedStack} {t u : Session} {stack : Stack} {result : Except Failure Text}
      (hload : loading invocation s = (.ok loaded, t))
      (hstack : t.heap.cell? loaded.stack = some (.stack stack))
      (hrender : (wireText invocation.format loaded.stack).on (announced t stack) = (result, u)) :
      Rendering invocation s result

theorem exists_stack_of_loadStack {source : Text} {config : Config}
    (h : (loadStack source config).on s = (.ok loaded, t)) :
    ∃ stack, t.heap.cell? loaded.stack = some (.stack stack) := by
  rw [loadStack, on_bind] at h
  obtain ⟨⟨collection, params⟩, u, -, hfinish⟩ := next_eq_ok_iff.mp h
  simp only [finishStack, stackOf, on_bind, bind_assoc] at hfinish
  obtain ⟨endpoints, u, -, hfinish⟩ := next_eq_ok_iff.mp hfinish
  rw [on_bind] at hfinish
  obtain ⟨entries, u, -, hfinish⟩ := next_eq_ok_iff.mp hfinish
  rw [on_bind] at hfinish
  obtain ⟨apis, u, -, hfinish⟩ := next_eq_ok_iff.mp hfinish
  simp only [on_bind, on_allocate, next_ok, on_heap, on_log, on_pure, Prod.mk.injEq, Except.ok.injEq]
    at hfinish
  obtain ⟨rfl, rfl⟩ := hfinish
  exact ⟨_, Heap.cell?_allocate_new _ _⟩

theorem on_manifestText {format : OutputFormat} {v : Value} {stack : Stack}
    (hstack : s.heap.cell? v = some (.stack stack)) :
    (manifestText format v).on s = (wireText format v).on (announced s stack) := by
  have hplain : Cell.stored? (.stack stack) (Text.ofString "endpoints") = some stack.endpoints :=
    Cell.stored?_of_plain rfl "endpoints"
  have hendpoints : (getAttribute call v (Text.ofString "endpoints")).on s =
      (.ok stack.endpoints, s) := on_getAttribute_stored (Heap.stored?_of_cell? hstack hplain)
  rw [manifestText, on_bind, hendpoints, next_ok]
  rfl

/-! ## Clean endings -/

/-- What went wrong, in loading or afterwards. -/
inductive Fails (invocation : Invocation) (s : Session) : Failure → Prop
  | loading {failure : Failure} {t : Session} (h : loading invocation s = (.error failure, t)) :
      Fails invocation s failure
  | rendering {failure : Failure} (h : Rendering invocation s (.error failure)) :
      Fails invocation s failure

/-- The manifest is printed as a whole, or the failure is told and nothing is printed. -/
inductive Outcome.Clean (invocation : Invocation) (s : Session) : Outcome → Prop
  | printed {text err : Text} (h : Rendering invocation s (.ok text)) :
      Clean invocation s ⟨.code 0, text ++ "\n", err⟩
  | reported {failure : Failure} {before after : Text} (h : Fails invocation s failure) :
      Clean invocation s ⟨.code 1, [], before ++ failure.message ++ after⟩

/-- What the command does not report: failures that end the program, and all failures in rendering
what was loaded. -/
inductive Escapes (invocation : Invocation) (s : Session) : Failure → Prop
  | loading {failure : Failure} {t : Session} (h : loading invocation s = (.error failure, t))
      (hends : failure.kind.endsProgram) : Escapes invocation s failure
  | rendering {failure : Failure} (h : Rendering invocation s (.error failure)) :
      Escapes invocation s failure

theorem Rendering.unique {result result' : Except Failure Text}
    (h : Rendering invocation s result) (h' : Rendering invocation s result') : result = result' := by
  obtain ⟨hload, hstack, hrender⟩ := h
  obtain ⟨hload', hstack', hrender'⟩ := h'
  cases hload.symm.trans hload'
  cases hstack.symm.trans hstack'
  exact congrArg Prod.fst (hrender.symm.trans hrender')

theorem Rendering.loads {result : Except Failure Text} (h : Rendering invocation s result) :
    loading invocation s ≠ (.error failure, t) := by
  obtain ⟨hload, -, -⟩ := h
  rw [hload]
  nofun

/-- A command that prints does not let a failure escape. -/
theorem not_escapes_of_rendering (h : Rendering invocation s (.ok text)) :
    ¬Escapes invocation s failure := by
  rintro (⟨hload, -⟩ | hrender)
  · exact h.loads hload
  · cases h.unique hrender

/-! ## The command -/

/-- Each ending of the command, with what is printed then. -/
inductive Ends (invocation : Invocation) (s : Session) : Outcome → Prop
  | printed {text err : Text} (h : Rendering invocation s (.ok text)) :
      Ends invocation s ⟨.code 0, text ++ "\n", err⟩
  | reported {failure : Failure} {t : Session} {before after : Text}
      (h : loading invocation s = (.error failure, t)) (hends : ¬failure.kind.endsProgram) :
      Ends invocation s ⟨.code 1, [], before ++ failure.message ++ after⟩
  | escaped {failure : Failure} {err : Text} (h : Escapes invocation s failure) :
      Ends invocation s ⟨exitOf failure, [], err⟩

theorem ends_of_unloaded (h : loading invocation s = (.error failure, t)) :
    Ends invocation s ((printManifest invocation).run s).1 := by
  have hattempt : (attempt (loadStack invocation.source invocation.config)).run
      { s with log := [] } = pure (.error failure, t) := h
  by_cases hends : failure.kind.endsProgram
  · have hrun : ((printManifest invocation).run s).1 =
        ⟨exitOf failure, [], shownLog invocation.verbose t.log⟩ := by
      simp only [printManifest, StateT.run_bind, StateT.run_modify, pure_bind, hattempt, hends]
      rfl
    rw [hrun]
    exact .escaped (.loading h hends)
  · obtain ⟨before, hrun⟩ : ∃ before, ((printManifest invocation).run s).1 =
        ⟨.code 1, [], before ++ ("Failed to generate manifest from function source: " ++
          failure.message ++ "\n")⟩ := by
      simp only [printManifest, StateT.run_bind, StateT.run_modify, pure_bind, hattempt, hends]
      exact ⟨_, rfl⟩
    rw [hrun, ← List.append_assoc, ← List.append_assoc]
    exact .reported h hends

theorem ends_of_loaded (h : loading invocation s = (.ok loaded, t)) :
    Ends invocation s ((printManifest invocation).run s).1 := by
  have hattempt : (attempt (loadStack invocation.source invocation.config)).run
      { s with log := [] } = pure (.ok loaded, t) := h
  obtain ⟨stack, hstack⟩ := exists_stack_of_loadStack h
  cases hrender : (wireText invocation.format loaded.stack).on (announced t stack) with
  | mk result u =>
    have hrendering : Rendering invocation s result := .rendered h hstack hrender
    rw [← on_manifestText hstack] at hrender
    have hmanifest : (attempt (manifestText invocation.format loaded.stack)).run t =
        pure (result, u) := hrender
    cases result with
    | error failure =>
      have hrun : ((printManifest invocation).run s).1 =
          ⟨exitOf failure, [], shownLog invocation.verbose u.log⟩ := by
        simp only [printManifest, StateT.run_bind, StateT.run_modify, pure_bind, hattempt,
          hmanifest]
        rfl
      rw [hrun]
      exact .escaped (.rendering hrendering)
    | ok text =>
      have hrun : ((printManifest invocation).run s).1 =
          ⟨.code 0, text ++ "\n", shownLog invocation.verbose u.log⟩ := by
        simp only [printManifest, StateT.run_bind, StateT.run_modify, pure_bind, hattempt,
          hmanifest]
        rfl
      rw [hrun]
      exact .printed hrendering

theorem ends_run {arguments : List Text}
    (hrequest : Request.ofArguments arguments = .manifest invocation) (s : Session) :
    Ends invocation s ((run arguments).run s).1 := by
  have hrun : run arguments = printManifest invocation := by rw [run, hrequest]
  rw [hrun]
  cases hload : loading invocation s with
  | mk result t =>
    cases result with
    | error failure => exact ends_of_unloaded hload
    | ok loaded => exact ends_of_loaded hload

theorem exitOf_ne_code (failure : Failure) (n : Nat) : exitOf failure ≠ .code n := by
  unfold exitOf
  split <;> nofun

theorem Outcome.Clean.exists_code {outcome : Outcome} (h : outcome.Clean invocation s) :
    ∃ n, outcome.exit = .code n := by
  cases h with
  | printed => exact ⟨0, rfl⟩
  | reported => exact ⟨1, rfl⟩

theorem Escapes.unique {failure' : Failure} (h : Escapes invocation s failure)
    (h' : Escapes invocation s failure') : failure = failure' := by
  rcases h with ⟨hload, -⟩ | hrender <;> rcases h' with ⟨hload', -⟩ | hrender'
  · cases hload.symm.trans hload'
    rfl
  · exact absurd hload hrender'.loads
  · exact absurd hload' hrender.loads
  · exact Except.error.inj (hrender.unique hrender')

/-- A failure in loading that does not end the program does not escape, and neither does another. -/
theorem not_escapes_of_unloaded {failure' : Failure}
    (hload : loading invocation s = (.error failure, t)) (hends : ¬failure.kind.endsProgram) :
    ¬Escapes invocation s failure' := by
  rintro (⟨hload', hends'⟩ | hrender)
  · cases hload.symm.trans hload'
    exact hends hends'
  · exact hrender.loads hload

/-- One function with one label. -/
def labelled (label : Term) : Session :=
  .fresh (projectOf [(["main.py"], [.assign "hello" (.triggered .request []
    [("labels", .mapping [(.text "team", label)])] "hello")])]) []

def Exit.code? : Exit → Option Nat
  | .code n => some n
  | _ => none

def Exit.message? : Exit → Option Text
  | .failure failure => some failure.message
  | _ => none

end FunctionManifest.Command
