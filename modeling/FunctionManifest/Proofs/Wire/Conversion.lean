import FunctionManifest.Proofs.Language.Frame
import FunctionManifest.Proofs.Wire.Kept

/-!
# Conversion

The wire form of a value has its shape, position by position, and converting it again gives the same
tree. Expressions and params are asked for their texts while the rest is kept waiting, and what they
ask can empty a collection at most.
-/

namespace FunctionManifest

open Eval

/-- The expression reads so in some session that is reached. -/
def Session.Reads (s : Session) (call : Caller) (e : Expression) (text : Text) : Prop :=
  ∃ u u', s.Reaches u ∧ (e.deferredText (asking call)).on u = (.ok text, u')

/-- The tree is the wire form of the value. -/
inductive Session.Converts (s : Session) (call : Caller) : Value → Value → Prop
  | expression {v : Value} {f : Formula} {text : Text} (hcell : s.heap.cell? v = some (.formula f))
      (htext : s.Reads call (s.heap.expression v) text) : Converts s call v (.text text)
  | param {v : Value} {p : Param} {text : Text} (hcell : s.heap.cell? v = some (.param p))
      (htext : s.Reads call (.param v) text) : Converts s call v (.text text)
  | reset {v : Value} (hcell : s.heap.cell? v = some .reset) : Converts s call v .null
  | pattern {v segments : Value} {p : Pattern}
      (hcell : s.heap.cell? v = some (.pattern p segments)) : Converts s call v (.text p.template)
  | regex {v : Value} {source : Text} (hcell : s.heap.cell? v = some (.regex source)) :
      Converts s call v (.text source)
  | mapping {v : Value} {entries written : Entries} (hcontent : s.heap.content v = .mapping entries)
      (hentries : List.Forall₂ (AtKey (Converts s call)) entries written) :
      Converts s call v (.mapping written)
  | list {v : Value} {items trees : List Value} (hcontent : s.heap.content v = .list items)
      (hitems : List.Forall₂ (Converts s call) items trees) : Converts s call v (.list trees)
  | tuple {v : Value} {items trees : List Value} (hcontent : s.heap.content v = .tuple items)
      (hitems : List.Forall₂ (Converts s call) items trees) : Converts s call v (.list trees)
  | leaf {v : Value} (h : s.heap.isLeaf v = true) : Converts s call v v

/-- The tree is the wire form of the value, and less high than this. -/
structure Session.Gives (s : Session) (call : Caller) (height : Nat) (v tree : Value) : Prop where
  converts : s.Converts call v tree
  isTree : s.heap.IsTree height tree

variable {call : Caller} {s u u' t : Session} {v w tree : Value}

theorem Session.Reaches.after {α : Type} {action : Eval α} {result : Except Failure α}
    (h : s.Reaches u) (hwithin : Within Session.Reaches action)
    (hrun : action.on u = (result, u')) : s.Reaches u' := by
  have hstep := hwithin u
  rw [hrun] at hstep
  exact trans_of Session.Reaches h hstep

/-! ## Loops -/

section

variable {ask : Asking Eval} {f : Value → Setting} {P : Value → Value → Prop}

/-- What conversion makes of the items, whatever session it finds, holds of the whole list. -/
theorem forall₂_of_wireItems (hask : ask.Within Session.Reaches) {items trees : List Value}
    (h : ∀ v ∈ items, ∀ u u' tree, s.Reaches u → ((f v).wire ask).on u = (.ok tree, u') → P v tree)
    (hu : s.Reaches u) (hrun : (wireItems ask (items.map f)).on u = (.ok trees, u')) :
    List.Forall₂ P items trees := by
  induction items generalizing u trees with
  | nil =>
    cases hrun
    exact .nil
  | cons v rest ih =>
    rw [List.map_cons, wireItems, on_bind, next_eq_ok_iff] at hrun
    obtain ⟨tree, mid, hfirst, hrun⟩ := hrun
    rw [on_bind, next_eq_ok_iff] at hrun
    obtain ⟨others, last, hrest, hrun⟩ := hrun
    cases hrun
    have hmid : s.Reaches mid := hu.after (within_setting_wire hask (f v)) hfirst
    refine .cons (h v List.mem_cons_self u mid tree hu hfirst) ?_
    exact ih (fun v hv => h v (List.mem_cons_of_mem _ hv)) hmid hrest

theorem forall₂_of_wireEntries (hask : ask.Within Session.Reaches) {entries trees : Entries}
    (h : ∀ entry ∈ entries, ∀ u u' tree, s.Reaches u →
      ((f entry.2).wire ask).on u = (.ok tree, u') → P entry.2 tree)
    (hu : s.Reaches u)
    (hrun : (wireEntries ask (entries.map fun entry => (entry.1, f entry.2))).on u =
      (.ok trees, u')) :
    List.Forall₂ (AtKey P) entries trees := by
  induction entries generalizing u trees with
  | nil =>
    cases hrun
    exact .nil
  | cons entry rest ih =>
    rw [List.map_cons, wireEntries, on_bind, next_eq_ok_iff] at hrun
    obtain ⟨tree, mid, hfirst, hrun⟩ := hrun
    rw [on_bind, next_eq_ok_iff] at hrun
    obtain ⟨others, last, hrest, hrun⟩ := hrun
    cases hrun
    have hmid : s.Reaches mid := hu.after (within_setting_wire hask (f entry.2)) hfirst
    refine .cons (.intro (h entry List.mem_cons_self u mid tree hu hfirst)) ?_
    exact ih (fun entry hentry => h entry (List.mem_cons_of_mem _ hentry)) hmid hrest

end

/-! ## Values -/

namespace Session.Gives

variable {height : Nat} {items trees : List Value}

theorem isTree_of_items (h : List.Forall₂ (s.Gives call height) items trees) :
    s.heap.IsTree (height + 1) (.list trees) := by
  refine .list fun tree htree => ?_
  obtain ⟨_, -, h⟩ := exists_left_of_forall₂ h htree
  exact h.isTree

theorem list (hcontent : s.heap.content v = .list items)
    (h : List.Forall₂ (s.Gives call height) items trees) :
    s.Gives call (height + 1) v (.list trees) :=
  ⟨.list hcontent (h.imp fun _ _ h => h.converts), isTree_of_items h⟩

theorem tuple (hcontent : s.heap.content v = .tuple items)
    (h : List.Forall₂ (s.Gives call height) items trees) :
    s.Gives call (height + 1) v (.list trees) :=
  ⟨.tuple hcontent (h.imp fun _ _ h => h.converts), isTree_of_items h⟩

theorem mapping {entries written : Entries} (hcontent : s.heap.content v = .mapping entries)
    (hkeys : ∀ entry ∈ entries, entry.1.IsKept)
    (h : List.Forall₂ (AtKey (s.Gives call height)) entries written) :
    s.Gives call (height + 1) v (.mapping written) where
  converts := .mapping hcontent (h.imp fun _ _ h => h.imp fun _ h => h.converts)
  isTree := by
    refine .mapping (fun new hnew => ?_) fun new hnew => ?_
    · obtain ⟨_, hentry, ⟨-⟩⟩ := exists_left_of_forall₂ h hnew
      have hkey := hkeys _ hentry
      exact hkey
    · obtain ⟨_, -, ⟨h⟩⟩ := exists_left_of_forall₂ h hnew
      exact h.isTree

end Session.Gives

/-- What conversion makes of a value that is known is a tree: its wire form. -/
theorem converts_of_wire (hcall : AsksQuietly Session.Reaches call) {fuel : Nat} {way : List Nat}
    (hknows : s.heap.Knows v) (hu : s.Reaches u)
    (hrun : ((s.heap.settingFrom fuel way v).wire (asking call)).on u = (.ok tree, u')) :
    s.Gives call fuel v tree := by
  have hask : (asking call).Within Session.Reaches := within_asking hcall
  induction fuel generalizing v u u' tree way with
  | zero => cases hrun
  | succ fuel ih =>
    unfold Heap.settingFrom at hrun
    split at hrun
    · rename_i f hcell
      rw [Setting.wire, on_bind, next_eq_ok_iff] at hrun
      obtain ⟨text, last, htext, hrun⟩ := hrun
      cases hrun
      exact ⟨.expression hcell ⟨u, _, hu, htext⟩, .leaf rfl⟩
    · rename_i p hcell
      rw [Setting.wire, on_bind, next_eq_ok_iff] at hrun
      obtain ⟨text, last, htext, hrun⟩ := hrun
      cases hrun
      exact ⟨.param hcell ⟨u, _, hu, htext⟩, .leaf rfl⟩
    · cases hrun
      exact ⟨.reset ‹_›, .leaf rfl⟩
    · cases hrun
      exact ⟨.pattern ‹_›, .leaf rfl⟩
    · cases hrun
      exact ⟨.regex ‹_›, .leaf rfl⟩
    -- The parts of a collection are converted in the sessions that their forerunners leave, while
    -- the collection is the one of the first session.
    · have hparts : ∀ part ∈ s.heap.parts v, ∀ way u u' tree, s.Reaches u →
          ((s.heap.settingFrom fuel way part).wire (asking call)).on u = (.ok tree, u') →
          s.Gives call fuel part tree := fun part hpart way u u' tree hu =>
        ih (hknows.part hpart) hu
      split at hrun
      · cases hrun
      · cases hrun
      · cases hrun
      · rename_i entries way' hcontent henter
        rw [Setting.wire, on_bind, next_eq_ok_iff] at hrun
        obtain ⟨written, last, hwritten, hrun⟩ := hrun
        cases hrun
        refine .mapping hcontent (hknows.isSound.keys entries hcontent)
          (forall₂_of_wireEntries hask (fun entry hentry => hparts entry.2 ?_ way') hu hwritten)
        simpa [Heap.parts, hcontent] using ⟨entry.1, hentry⟩
      · rename_i items way' hcontent henter
        rw [Setting.wire, on_bind, next_eq_ok_iff] at hrun
        obtain ⟨trees, last, htrees, hrun⟩ := hrun
        cases hrun
        refine .list hcontent
          (forall₂_of_wireItems hask (fun item hitem => hparts item ?_ way') hu htrees)
        simpa [Heap.parts, hcontent] using hitem
      · rename_i items way' hcontent henter
        rw [Setting.wire, on_bind, next_eq_ok_iff] at hrun
        obtain ⟨trees, last, htrees, hrun⟩ := hrun
        cases hrun
        refine .tuple hcontent
          (forall₂_of_wireItems hask (fun item hitem => hparts item ?_ way') hu htrees)
        simpa [Heap.parts, hcontent] using hitem
      · cases hrun
        have hleaf : s.heap.isLeaf v = true := by
          cases henter : Heap.enter? way v <;>
            exact Heap.isLeaf_of_isSound hknows.isSound
              (fun cell hcell hoff => by cases cell <;> grind [Cell.isOffWire])
              (by grind) (by grind) (by grind)
        exact ⟨.leaf hleaf, .leaf hleaf⟩

/-! ## Conversions that are kept -/

theorem wireOf_eq_ok_iff :
    (wireOf call v).on s = (.ok w, t) ↔
      ∃ tree u, ((s.heap.setting v).wire (asking call)).on s = (.ok tree, u) ∧
        (u.heap.intern tree).1 = w ∧ { u with heap := (u.heap.intern tree).2 } = t := by
  simp [wireOf, next_eq_ok_iff]

/-- Whatever is converted again, it gives the same tree, and nothing is asked. -/
theorem wireOf_kept {old : Heap} (htree : old.IsTree Heap.depth tree) {size : Nat}
    (hw : old.Interns t.heap size tree w) :
    (wireOf call w).on t =
      (.ok (t.heap.intern tree).1, { t with heap := (t.heap.intern tree).2 }) := by
  have hpure : (t.heap.setting w).wire (asking call) = pure tree := htree.wire_kept hw nofun
  exact wireOf_eq_ok_iff.mpr ⟨tree, t, by rw [hpure, on_pure], rfl, rfl⟩

/-- The value is plain, and this tree. Converted again it is the same tree. -/
structure Session.IsNormal (t : Session) (call : Caller) (w tree : Value) : Prop where
  writes : t.heap.Writes w tree
  isPlain : t.heap.IsPlain w
  again : ∃ w' t', (wireOf call w).on t = (.ok w', t') ∧ t'.heap.Writes w' tree

theorem isNormal_of_interns {old : Heap} (htree : old.IsTree Heap.depth tree) {size : Nat}
    (hw : old.Interns t.heap size tree w) : t.IsNormal call w tree where
  writes := htree.writes hw
  isPlain := (htree.writes hw).isPlain
  again := by
    have hagain := htree.mono hw.extends_of.keeps
    exact ⟨_, _, wireOf_kept htree hw, hagain.writes (Heap.interns_intern t.heap tree)⟩

theorem isNormal_of_wireOf (hcall : AsksQuietly Session.Reaches call) (hknows : s.heap.Knows v)
    (hrun : (wireOf call v).on s = (.ok w, t)) :
    ∃ tree, s.Converts call v tree ∧ t.IsNormal call w tree := by
  obtain ⟨tree, u, hwire, rfl, rfl⟩ := wireOf_eq_ok_iff.mp hrun
  have hs : s.Reaches s := refl_of Session.Reaches s
  obtain ⟨hconverts, htree⟩ := converts_of_wire hcall hknows hs hwire
  have hu : s.Reaches u := hs.after (within_setting_wire (within_asking hcall) _) hwire
  exact ⟨tree, hconverts, isNormal_of_interns (htree.mono hu.keeps) (Heap.interns_intern _ _)⟩

end FunctionManifest
