import FunctionManifest.Proofs.Json.Reading
import FunctionManifest.Proofs.Manifest.RequiredApi
import FunctionManifest.Proofs.Param.Fallback

/-!
# Values that are documents

JSON params and JSON secrets have a document for their value, and a built-in param the text of an
entry of the platform's. A text that is no document is a failure of the param. A document that the
reader refuses for its size is a failure of another kind.
-/

namespace FunctionManifest

open Eval

/-- An object whose value is read from a document, and the variable that holds that. -/
inductive Cell.HoldsDocument : Cell → Text → Prop
  | param {p : Param} {label name : Text} (hkind : p.kind = .json) (hlabel : p.name = .text label)
      (hname : Environment.keep label = .ok name) : HoldsDocument (.param p) name
  | secret {secret : Secret} {label name : Text} (hjson : secret.json = true)
      (hlabel : secret.name = .text label) (hname : Environment.keep label = .ok name) :
      HoldsDocument (.secret secret) name
  | builtin {p : Param} {key : Text} (hkind : p.kind = .builtin) (hkey : p.configKey = .text key) :
      HoldsDocument (.param p) platformVariable

/-- The value that a document gives: the document, or for a built-in param how the entry under its
key is printed, if there is one that says something. -/
inductive Cell.Gives (call : Caller) (s : Session) : Cell → Value → Value → Prop
  | param {p : Param} {doc : Value} (hkind : p.kind = .json) : Gives call s (.param p) doc doc
  | secret {secret : Secret} {doc : Value} : Gives call s (.secret secret) doc doc
  | entry {p : Param} {entries : Entries} {v : Value} {shown : Text} (hkind : p.kind = .builtin)
      (hentry : Assoc.get? entries p.configKey = some v) (htruthy : s.heap.isTruthy v = true)
      (hshown : (printed call v).on s = (.ok shown, s)) :
      Gives call s (.param p) (.mapping entries) (.text shown)
  | nothing {p : Param} {doc : Value} (hkind : p.kind = .builtin)
      (h : ∀ entries v, doc = .mapping entries → Assoc.get? entries p.configKey = some v →
        s.heap.isTruthy v = false) : Gives call s (.param p) doc (.text [])

variable {call : Caller} {s : Session} {v : Value} {cell : Cell} {name raw : Text}

/-! ## Printing documents -/

theorem exists_shownEntries {show? : Value → Except Failure Text} {fields : Fields}
    (hkeys : ∀ t, ∃ shown, show? (.text t) = .ok shown)
    (h : ∀ field ∈ fields, ∃ shown, show? field.2 = .ok shown) :
    ∃ shown, shownEntries show? (fields.map fun field => (.text field.1, field.2)) = .ok shown := by
  induction fields with
  | nil => exact ⟨[], rfl⟩
  | cons field rest ih =>
    obtain ⟨key, hkey⟩ := hkeys field.1
    obtain ⟨value, hvalue⟩ := h field List.mem_cons_self
    obtain ⟨others, hothers⟩ := ih fun other hother => h other (List.mem_cons_of_mem _ hother)
    refine ⟨(key ++ ": " ++ value) :: others, ?_⟩
    rw [List.map_cons, shownEntries, hkey, hvalue, hothers]
    rfl

theorem exists_shownFrom (heap : Heap) {depth : Nat} (h : v.IsDocument depth) :
    ∀ fuel > depth, ∃ shown, heap.shownFrom fuel [] v = .ok shown := by
  induction h with
  | int h =>
    rintro (_ | fuel) hfuel
    · omega
    · exact ⟨_, intText_eq h⟩
  | list h ih =>
    rintro (_ | fuel) hfuel
    · omega
    · obtain ⟨shown, hshown⟩ := exists_mapM_ok fun v hv => ih v hv fuel (by omega)
      refine ⟨bracketed shown, ?_⟩
      simp only [Heap.shownFrom, Cell.shown, hshown]
      rfl
  | @mapping depth fields h ih =>
    rintro (_ | fuel) hfuel
    · omega
    · have hkeys (t : Text) : ∃ shown, heap.shownFrom fuel [] (.text t) = .ok shown := by
        obtain _ | fuel := fuel
        · omega
        · exact ⟨_, rfl⟩
      obtain ⟨shown, hshown⟩ :=
        exists_shownEntries hkeys fun field hfield => ih field hfield fuel (by omega)
      refine ⟨braced shown, ?_⟩
      simp only [Value.named, Heap.shownFrom, Cell.shown, hshown]
      rfl
  | _ =>
    rintro (_ | fuel) hfuel
    · omega
    · exact ⟨_, rfl⟩

theorem exists_printed {depth : Nat} (h : v.IsDocument depth) (hdepth : depth < Heap.depth) :
    ∃ shown, (printed call v).on s = (.ok shown, s) := by
  cases v with
  | text t => exact ⟨t, rfl⟩
  | ref => cases h
  | _ =>
    obtain ⟨shown, hshown⟩ := exists_shownFrom s.heap h Heap.depth hdepth
    refine ⟨shown, ?_⟩
    simp [printed, printDepth, printedFrom, Heap.cell?, Heap.shown, hshown]

/-! ## Reading documents -/

theorem on_value_of_ok {p : Param} {w : Value} (hcell : s.heap.cell? v = some (.param p))
    (hread : (p.read s.heap (printed call) s.environment).on s = (.ok (.ok w), s)) :
    (getAttribute call v "value").on s = (intern w).on s := by
  rw [on_value_of_read hcell hread, on_bind, on_ofReading_of_none rfl]
  rfl

theorem isDocument_of_get? {depth : Nat} {entries : Entries} {key : Value}
    (h : (Value.mapping entries).IsDocument depth) (hentry : Assoc.get? entries key = some v) :
    v.IsDocument (depth - 1) := by
  generalize hdoc : Value.mapping entries = doc at h
  cases h with
  | @mapping depth fields h =>
    cases hdoc
    obtain ⟨field, hfield, heq⟩ := List.mem_map.mp (Assoc.mem_of_get? hentry)
    cases heq
    exact h field hfield
  | _ => cases hdoc

/-- What reading an object from a text comes to: the failures that say that the text is no document,
and what it gives if it is one. -/
structure Cell.ReadsFrom (call : Caller) (s : Session) (cell : Cell) (v : Value) (raw : Text)
    (refusal : Json.Fault → Failure) : Prop where
  kind (fault : Json.Fault) : (refusal fault).kind = .paramValue
  refused (reason : Json.Unreadable) (h : Json.read raw = .error reason) :
    (getAttribute call v "value").on s = (.error (reason.failure refusal), s)
  read (doc : Value) (h : Json.read raw = .ok doc) :
    ∃ w, cell.Gives call s doc w ∧ (getAttribute call v "value").on s = (intern w).on s

theorem readsFrom_of_intern {refusal : Json.Fault → Failure}
    (hrun : (getAttribute call v "value").on s = next (readDocument raw refusal, s) intern)
    (hkind : ∀ fault, (refusal fault).kind = .paramValue)
    (hgives : ∀ doc, cell.Gives call s doc doc) : Cell.ReadsFrom call s cell v raw refusal := by
  refine ⟨hkind, fun reason h => ?_, fun doc h => ⟨doc, hgives doc, ?_⟩⟩
  · rw [hrun, readDocument, h]
    rfl
  · rw [hrun, readDocument, h]
    rfl

theorem shown_text (heap : Heap) (t : Text) : heap.shown (.text t) = .ok (Text.quoted t) := rfl

theorem readsFrom_param {p : Param} {label : Text} (hcell : s.heap.cell? v = some (.param p))
    (hkind : p.kind = .json) (hlabel : p.name = .text label)
    (hname : Environment.keep label = .ok name) (hraw : s.environment.text? name = some raw) :
    Cell.ReadsFrom call s (.param p) v raw
      (.unreadableParam (Text.quoted label) (Text.quoted raw)) := by
  have hread : (p.read s.heap (printed call) s.environment).on s =
      (.ok ⟨readDocument raw (.unreadableParam (Text.quoted label) (Text.quoted raw)), []⟩, s) := by
    simp only [Param.read, hkind, Param.readJson, hlabel, rawText?_text s.environment s.heap hname,
      hraw, shown_text]
    rfl
  refine readsFrom_of_intern ?_ (fun _ => rfl) fun _ => .param hkind
  rw [on_value_of_read hcell hread, on_bind, on_ofReading_of_none rfl]

theorem readsFrom_secret {secret : Secret} {label : Text}
    (hcell : s.heap.cell? v = some (.secret secret)) (hjson : secret.json = true)
    (hlabel : secret.name = .text label) (hname : Environment.keep label = .ok name)
    (hraw : s.environment.text? name = some raw) :
    Cell.ReadsFrom call s (.secret secret) v raw (.unreadableSecret (Text.quoted label)) := by
  have hread : secret.read s.heap s.environment =
      readDocument raw (.unreadableSecret (Text.quoted label)) := by
    simp only [Secret.read, hlabel, rawText?_text s.environment s.heap hname, hraw, hjson,
      shown_text]
    rfl
  refine readsFrom_of_intern ?_ (fun _ => rfl) fun _ => .secret
  rw [on_value_secret hcell, hread]

/-- The entry that a built-in param stands for, if it says something. -/
def configured? (heap : Heap) (key doc : Value) : Option Value :=
  match doc with
  | .mapping entries => (Assoc.get? entries key).filter heap.isTruthy
  | _ => none

def printedOrEmpty (call : Caller) : Option Value → Eval Text
  | none => pure []
  | some v => printed call v

theorem platformValue?_eq (heap : Heap) {key : Text} {environment : Environment}
    (hraw : environment.text? platformVariable = some raw) :
    platformValue? heap environment (.text key) =
      (readDocument raw .unreadablePlatform).map (configured? heap (.text key)) := by
  simp only [platformValue?, hraw]
  cases readDocument raw .unreadablePlatform with
  | error => rfl
  | ok doc =>
    cases doc with
    | mapping entries =>
      simp only [bind, Except.bind, Heap.lookEntry_text]
      rfl
    | _ => rfl

theorem exists_gives {p : Param} {doc : Value} (hkind : p.kind = .builtin)
    (hdoc : doc.IsDocument Json.depthLimit) :
    ∃ shown, (printedOrEmpty call (configured? s.heap p.configKey doc)).on s = (.ok shown, s) ∧
      Cell.Gives call s (.param p) doc (.text shown) := by
  cases hentry : configured? s.heap p.configKey doc with
  | none =>
    refine ⟨[], rfl, .nothing hkind ?_⟩
    rintro entries v rfl hget
    rw [configured?, hget] at hentry
    simpa [Option.filter_eq_none_iff] using hentry
  | some v =>
    cases doc with
    | mapping entries =>
      obtain ⟨hget, htruthy⟩ := Option.filter_eq_some_iff.mp hentry
      obtain ⟨shown, hshown⟩ := exists_printed (isDocument_of_get? hdoc hget) (by decide)
      exact ⟨shown, hshown, .entry hkind hget htruthy hshown⟩
    | _ => cases hentry

theorem readsFrom_builtin {p : Param} {key : Text} (hcell : s.heap.cell? v = some (.param p))
    (hkind : p.kind = .builtin) (hkey : p.configKey = .text key)
    (hraw : s.environment.text? platformVariable = some raw) :
    Cell.ReadsFrom call s (.param p) v raw .unreadablePlatform := by
  have hrun : (getAttribute call v "value").on s =
      next ((readDocument raw .unreadablePlatform).map (configured? s.heap p.configKey), s)
        fun entry => printedOrEmpty call entry >>= fun shown => intern (.text shown) := by
    rw [on_value_param hcell, on_readParam]
    simp only [Param.read, hkind, on_bind, on_ofExcept, hkey, platformValue?_eq s.heap hraw]
    obtain failure | ⟨_ | entry⟩ :=
      (readDocument raw .unreadablePlatform).map (configured? s.heap (.text key))
    · rfl
    · rfl
    · simp only [next_ok, on_bind, printedOrEmpty]
      obtain ⟨_ | shown, t⟩ := (printed call entry).on s <;> rfl
  refine ⟨fun _ => rfl, fun reason h => ?_, fun doc h => ?_⟩
  · rw [hrun, readDocument, h]
    rfl
  · have hdoc : doc.IsDocument Json.depthLimit := by
      have hread := Json.read_isRead raw
      rw [h] at hread
      cases hread with
      | document hdoc => exact hdoc
    obtain ⟨shown, hshown, hgives⟩ := exists_gives hkind hdoc
    refine ⟨.text shown, hgives, ?_⟩
    have hread : (readDocument raw .unreadablePlatform).map (configured? s.heap p.configKey) =
        .ok (configured? s.heap p.configKey doc) := by
      rw [readDocument, h]
      rfl
    rw [hrun, hread, next_ok, on_bind, hshown, next_ok]

theorem Cell.HoldsDocument.exists_readsFrom (h : cell.HoldsDocument name)
    (hcell : s.heap.cell? v = some cell) (hraw : s.environment.text? name = some raw) :
    ∃ refusal, Cell.ReadsFrom call s cell v raw refusal := by
  cases h with
  | param hkind hlabel hname => exact ⟨_, readsFrom_param hcell hkind hlabel hname hraw⟩
  | secret hjson hlabel hname => exact ⟨_, readsFrom_secret hcell hjson hlabel hname hraw⟩
  | builtin hkind hkey => exact ⟨_, readsFrom_builtin hcell hkind hkey hraw⟩

/-- Reading gives a value, or fails as params do that cannot be read. -/
def ReadsOrRefuses (call : Caller) (s : Session) (v : Value) : Prop :=
  (∃ w t, (getAttribute call v "value").on s = (.ok w, t)) ∨
    ∃ failure, failure.kind = .paramValue ∧
      (getAttribute call v "value").on s = (.error failure, s)

/-- Without a text there is a default, or nothing; only a secret has to be set. -/
theorem Cell.HoldsDocument.readsOrRefuses_of_unset (h : cell.HoldsDocument name)
    (hcell : s.heap.cell? v = some cell) (hunset : s.environment.text? name = none) :
    ReadsOrRefuses call s v := by
  cases h with
  | @param p label name hkind hlabel hname =>
    have hread : (p.read s.heap (printed call) s.environment).on s = (.ok (.ok p.default), s) := by
      simp only [Param.read, hkind, Param.readJson, rawText?_eq hlabel hname, hunset]
      rfl
    exact .inl ⟨_, _, (on_value_of_ok hcell hread).trans (on_intern _ _)⟩
  | @secret secret label name hjson hlabel hname =>
    have hread : secret.read s.heap s.environment = .error (.unsetSecret (Text.quoted label)) := by
      simp only [Secret.read, hlabel, rawText?_text s.environment s.heap hname, hunset, hjson,
        shown_text]
      rfl
    refine .inr ⟨.unsetSecret (Text.quoted label), rfl, ?_⟩
    rw [on_value_secret hcell, hread, next_error]
  | @builtin p key hkind hkey =>
    have hplatform : platformValue? s.heap s.environment p.configKey = .ok none := by
      rw [platformValue?, hunset]
      rfl
    have hread : (p.read s.heap (printed call) s.environment).on s =
        (.ok (.ok (.text [])), s) := by
      simp only [Param.read, hkind, on_bind, on_ofExcept, hplatform]
      rfl
    exact .inl ⟨_, _, (on_value_of_ok hcell hread).trans (on_intern _ _)⟩

theorem Cell.ReadsFrom.readsOrRefuses_iff {refusal : Json.Fault → Failure}
    (h : Cell.ReadsFrom call s cell v raw refusal) :
    ReadsOrRefuses call s v ↔
      ∀ reason, Json.read raw = .error reason → ∃ fault, reason = .fault fault := by
  constructor
  · intro hreads reason hreason
    have hrun := h.refused reason hreason
    rcases hreads with ⟨w, t, hvalue⟩ | ⟨failure, hkind, hfailed⟩
    · rw [hrun] at hvalue
      cases hvalue
    · rw [hrun] at hfailed
      cases hfailed
      cases reason with
      | fault fault => exact ⟨fault, rfl⟩
      | tooLong | tooDeep => cases hkind
  · intro hfault
    cases hread : Json.read raw with
    | ok doc =>
      obtain ⟨w, -, hrun⟩ := h.read doc hread
      exact .inl ⟨_, _, hrun⟩
    | error reason =>
      obtain ⟨fault, rfl⟩ := hfault reason hread
      exact .inr ⟨_, h.kind fault, h.refused _ hread⟩

end FunctionManifest
