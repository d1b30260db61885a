import FunctionManifest.Proofs.Decimal.Numeral
import FunctionManifest.Proofs.Param.Value

/-!
# Defaults

A param whose variable is unset is read from its default as that is printed, so printing and reading
have to undo each other. They do, but for the infinite numbers: no numeral stands for them, and they
are read as zero with a warning.
-/

namespace FunctionManifest

open Eval

/-- The default is of the type that is read. -/
def Param.HasDefault (p : Param) (heap : Heap) : Prop :=
  match p.kind with
  | .string => ∃ t, p.default = .text t
  | .int => ∃ n, p.default = .int n
  | .float => ∃ x, p.default = .float x ∧ x.IsCanonical
  | .boolean => ∃ b, p.default = .bool b
  | .list => ∃ items : List Text, heap.content p.default = .list (items.map .text)
  | .json => p.default.IsKept
  | .base | .builtin => False

/-- The value is the default; a list is a new one with the same items. -/
def Param.IsDefault (p : Param) (s t : Session) (w : Value) : Prop :=
  if p.kind = .list then t.heap.cell? w = some (.list ((s.heap.items? p.default).getD []))
  else w = p.default

/-! ## Reading what is printed -/

theorem intText_eq {n : Int} (h : Binary64.digitCount n.natAbs ≤ digitLimit) :
    intText n = .ok (Text.ofInt n) := by
  rw [intText, if_neg (Nat.not_lt.mpr h)]
  rfl

theorem digitCount_le_digitLimit_iff (n : Nat) :
    Binary64.digitCount n ≤ digitLimit ↔ (Nat.toDigits 10 n).length ≤ digitLimit := by
  by_cases hzero : n = 0
  · subst hzero
    decide
  · rw [Binary64.digitCount, if_neg hzero]

theorem readInt_ofInt {n : Int} (h : Binary64.digitCount n.natAbs ≤ digitLimit) (name : Text) :
    readInt name (Text.ofInt n) = .ok (.int n) := by
  have hlength := (digitCount_le_digitLimit_iff n.natAbs).mp h
  have hlimit : ¬digitLimit < (Decimal.values (Nat.toDigits 10 n.natAbs)).length := by
    rw [Decimal.values, List.length_map]
    exact Nat.not_lt.mpr hlength
  simp only [readInt, Decimal.leadingInt?_ofInt, if_neg hlimit, Decimal.ofDigits_toDigits,
    Decimal.signed_natAbs]

theorem readFloat_text {negative : Bool} {significand : Nat} {power : Int}
    (h : Binary64.IsNormal significand power) (name : Text) :
    readFloat name (Binary64.text (.finite negative significand power)) =
      .ok (.float (.finite negative significand power)) := by
  rw [readFloat, Decimal.leadingFloat?_text h]

theorem readFloat_infinite (negative : Bool) (name : Text) :
    readFloat name (Binary64.text (.infinite negative)) =
      ⟨.ok (.float (.zero false)),
        [complaint name (Binary64.text (.infinite negative)) "a number"]⟩ := by
  have hnone : Decimal.leadingFloat? (Binary64.text (.infinite negative)) = none := by
    cases negative <;> decide
  rw [readFloat, hnone]

theorem readBoolean_atomText (b : Bool) : readBoolean (if b then "True" else "False") = b := by
  cases b <;> decide

/-! ## Params whose variable is unset -/

section

variable {call : Caller} {s : Session} {v w : Value} {p : Param} {label name text : Text}

theorem text?_of_unset {environment : Environment}
    (h : Assoc.get? environment name = none ∨ Assoc.get? environment name = some []) :
    environment.text? name = none := by
  rcases h with h | h <;> simp [Environment.text?, h]

section

variable (hcell : s.heap.cell? v = some (.param p)) (hlabel : p.name = .text label)
  (hname : Environment.keep label = .ok name) (hunset : s.environment.text? name = none)

include hlabel hname hunset

/-- An atom is printed, and its text is read. -/
theorem on_readText_default {default : Value} (hdefault : p.default = default)
    (hatom : default.IsAtom) (hnull : default.isNull = false)
    (htext : default.atomText = .ok text) (zero : Value) (read : Text → Text → Reading) :
    (p.readText s.heap (printed call) s.environment zero read).on s =
      (.ok (read label text), s) := by
  subst hdefault
  exact on_readText_of_text hlabel hname hatom zero read (textIn_of_unset hunset hnull htext)

/-- Of the numbers, those that are written as numerals. -/
theorem read_atom (hkind : p.kind ≠ .list) (hdefault : p.HasDefault s.heap)
    (hlength : p.kind = .int → ∀ n, p.default = .int n →
      Binary64.digitCount n.natAbs ≤ digitLimit)
    (hnumber : p.kind = .float → ∃ negative significand power,
      p.default = .float (.finite negative significand power)) :
    (p.read s.heap (printed call) s.environment).on s = (.ok (.ok p.default), s) ∧
      p.default.IsKept := by
  unfold Param.HasDefault at hdefault
  cases hp : p.kind with
  | base | builtin | list => simp_all
  | string =>
    simp only [hp] at hdefault
    obtain ⟨t, ht⟩ := hdefault
    simp only [Param.read, hp]
    rw [on_readText_default hlabel hname hunset ht trivial rfl rfl, ht]
    exact ⟨rfl, fun _ => rfl⟩
  | int =>
    simp only [hp] at hdefault
    obtain ⟨n, hn⟩ := hdefault
    have hcount := hlength hp n hn
    simp only [Param.read, hp]
    rw [on_readText_default hlabel hname hunset hn trivial rfl (intText_eq hcount),
      readInt_ofInt hcount, hn]
    exact ⟨rfl, fun _ => rfl⟩
  | float =>
    simp only [hp] at hdefault
    obtain ⟨x, hx, hcanonical⟩ := hdefault
    obtain ⟨negative, significand, power, hfinite⟩ := hnumber hp
    rw [hfinite, Value.float.injEq] at hx
    subst hx
    simp only [Param.read, hp]
    rw [on_readText_default hlabel hname hunset hfinite trivial rfl rfl, readFloat_text hcanonical,
      hfinite]
    exact ⟨rfl, fun _ => rfl⟩
  | boolean =>
    simp only [hp] at hdefault
    obtain ⟨b, hb⟩ := hdefault
    simp only [Param.read, hp]
    rw [on_readText_default hlabel hname hunset hb trivial rfl rfl, readBoolean_atomText, hb]
    exact ⟨rfl, fun _ => rfl⟩
  | json =>
    simp only [hp] at hdefault
    refine ⟨?_, hdefault⟩
    simp only [Param.read, hp, Param.readJson, rawText?_eq hlabel hname, hunset]
    rfl

theorem read_list (hkind : p.kind = .list) (hdefault : p.HasDefault s.heap) :
    ∃ items : List Text, s.heap.items? p.default = some (items.map .text) ∧
      (p.read s.heap (printed call) s.environment).on s = (.ok (.ok (.texts items)), s) := by
  simp only [Param.HasDefault, hkind] at hdefault
  obtain ⟨items, hitems⟩ := hdefault
  have hfound : s.heap.items? p.default = some (items.map .text) := by
    simp [Heap.items?, hitems]
  refine ⟨items, hfound, ?_⟩
  simp only [Param.read, hkind, readListParam_of_unset hlabel hname hunset hfound]
  rfl

include hcell

theorem on_value_default (hdefault : p.HasDefault s.heap)
    (hlength : p.kind = .int → ∀ n, p.default = .int n →
      Binary64.digitCount n.natAbs ≤ digitLimit)
    (hnumber : p.kind = .float → ∃ negative significand power,
      p.default = .float (.finite negative significand power)) :
    ∃ w t, (getAttribute call v "value").on s = (.ok w, t) ∧ p.IsDefault s t w ∧
      t.log = s.log := by
  by_cases hkind : p.kind = .list
  · obtain ⟨items, hitems, hread⟩ := read_list hlabel hname hunset hkind hdefault
    refine ⟨_, _, on_value_of_texts hcell hread, ?_, rfl⟩
    rw [Param.IsDefault, if_pos hkind, hitems]
    exact Heap.cell?_allocate_new _ _
  · obtain ⟨hread, hkept⟩ := read_atom hlabel hname hunset hkind hdefault hlength hnumber
    refine ⟨p.default, s, on_value_of_kept hcell hread hkept, ?_, rfl⟩
    rw [Param.IsDefault, if_neg hkind]

theorem on_value_infinite {negative : Bool} (hkind : p.kind = .float)
    (hdefault : p.default = .float (.infinite negative)) :
    (getAttribute call v "value").on s = (.ok (.float (.zero false)),
      s.warned (complaint label (Binary64.text (.infinite negative)) "a number")) := by
  have hread : (p.read s.heap (printed call) s.environment).on s =
      (.ok (readFloat label (Binary64.text (.infinite negative))), s) := by
    simp only [Param.read, hkind]
    exact on_readText_default hlabel hname hunset hdefault trivial rfl rfl _ _
  rw [on_value_of_read hcell hread, readFloat_infinite, on_bind, on_ofReading_of_warning rfl]
  rfl

end

/-- While its variable is unset, a param has its default for its value, and nothing is logged,
unless the default is an infinite number. Instead of that it has zero, and a warning is logged. -/
theorem value_of_unset (hcell : s.heap.cell? v = some (.param p)) (hlabel : p.name = .text label)
    (hname : Environment.keep label = .ok name)
    (hunset : Assoc.get? s.environment name = none ∨ Assoc.get? s.environment name = some [])
    (hdefault : p.HasDefault s.heap)
    (hlength : p.kind = .int → ∀ n, p.default = .int n →
      Binary64.digitCount n.natAbs ≤ digitLimit)
    (hnumber : p.kind = .float → ∀ identity, p.default ≠ .float (.nan identity)) :
    ∃ w t, (getAttribute call v "value").on s = (.ok w, t) ∧
      (p.IsDefault s t w ∧ t.log = s.log ↔
        ∀ negative, p.kind = .float → p.default ≠ .float (.infinite negative)) ∧
      ∀ negative, p.kind = .float → p.default = .float (.infinite negative) →
        w = .float (.zero false) ∧
          t = s.warned (complaint label (Binary64.text (.infinite negative)) "a number") := by
  have hunset := text?_of_unset hunset
  by_cases hinfinite : ∃ negative, p.kind = .float ∧ p.default = .float (.infinite negative)
  · obtain ⟨negative, hkind, hvalue⟩ := hinfinite
    refine ⟨_, _, on_value_infinite hcell hlabel hname hunset hkind hvalue, ?_, ?_⟩
    · constructor
      · rintro ⟨-, hlog⟩
        simp [Session.warned] at hlog
      · intro hnot
        exact absurd hvalue (hnot negative hkind)
    · intro negative' _ hvalue'
      rw [hvalue, Value.float.injEq, Binary64.infinite.injEq] at hvalue'
      subst hvalue'
      exact ⟨rfl, rfl⟩
  · have hfinite : p.kind = .float → ∃ negative significand power,
        p.default = .float (.finite negative significand power) := by
      intro hkind
      simp only [Param.HasDefault, hkind] at hdefault
      obtain ⟨x, hx, -⟩ := hdefault
      cases x with
      | nan identity => exact absurd hx (hnumber hkind identity)
      | infinite negative => exact absurd ⟨negative, hkind, hx⟩ hinfinite
      | finite negative significand power => exact ⟨negative, significand, power, hx⟩
    obtain ⟨w, t, hrun, hsame, hlog⟩ :=
      on_value_default hcell hlabel hname hunset hdefault hlength hfinite
    refine ⟨w, t, hrun, ⟨fun _ negative hkind hvalue => hinfinite ⟨negative, hkind, hvalue⟩,
      fun _ => ⟨hsame, hlog⟩⟩, ?_⟩
    intro negative hkind hvalue
    exact absurd ⟨negative, hkind, hvalue⟩ hinfinite

def rateParam (kind : ParamKind) (value : Value) : Param :=
  ⟨kind, .text "RATE", value, .null, .null, .null, .null⟩

/-- A session with one param, whose variable is not set. -/
def unsetSession (kind : ParamKind) (value : Value) : Session :=
  { Session.fresh default default with heap := { Heap.initial with cells :=
      #[.tuple [], .registry .empty, .param (rateParam kind value)] } }

theorem cell?_unsetSession (kind : ParamKind) (value : Value) :
    (unsetSession kind value).heap.cell? (.ref 2) = some (.param (rateParam kind value)) := rfl

theorem value_of_unset_small :
    let call : Caller := fun _ _ _ => throw .noValue
    ∃ w t, (getAttribute call (.ref 2) "value").on
        (unsetSession .float (.float (.finite true 4503599627370497 (-75)))) = (.ok w, t) ∧
      w = .float (.finite true 4503599627370497 (-75)) ∧ t.log = [] := by
  intro call
  have hcell := cell?_unsetSession .float (.float (.finite true 4503599627370497 (-75)))
  obtain ⟨w, t, hrun, hdefault, -⟩ := value_of_unset hcell rfl rfl (.inl rfl)
    ⟨_, rfl, by decide, by decide, by decide, by decide⟩ nofun nofun
  obtain ⟨hsame, hlog⟩ := hdefault.mpr nofun
  exact ⟨w, t, hrun, hsame, hlog⟩

theorem value_infinite_ne_default :
    let call : Caller := fun _ _ _ => throw .noValue
    ∃ w t, (getAttribute call (.ref 2) "value").on
        (unsetSession .float (.float (.infinite false))) = (.ok w, t) ∧
      w ≠ .float (.infinite false) ∧ t.log ≠ [] := by
  intro call
  have hcell := cell?_unsetSession .float (.float (.infinite false))
  have hname : Environment.keep "RATE" = .ok "RATE" := rfl
  exact ⟨_, _, on_value_infinite hcell rfl hname rfl rfl rfl, nofun, nofun⟩

end

end FunctionManifest
