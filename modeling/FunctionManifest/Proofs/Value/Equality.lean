import FunctionManifest.Heap.Equality

/-!
# Equality of values

Values that are written alike are equal, so equality of values can be decided. To a program a text
is the same as the texts that are written alike, whatever objects there are.
-/

namespace FunctionManifest

namespace Value

mutual

theorem eq_of_beq : (v w : Value) → v.beq w = true → v = w
  | .null, w, h => by cases w <;> simp_all [beq]
  | .bool _, w, h => by cases w <;> simp_all [beq]
  | .int _, w, h => by cases w <;> simp_all [beq]
  | .float _, w, h => by cases w <;> simp_all [beq]
  | .text _, w, h => by cases w <;> simp_all [beq]
  | .ref _, w, h => by cases w <;> simp_all [beq]
  | .list items, w, h => by
    cases w with
    | list items' => rw [eq_of_beqItems items items' h]
    | _ => simp [beq] at h
  | .tuple items, w, h => by
    cases w with
    | tuple items' => rw [eq_of_beqItems items items' h]
    | _ => simp [beq] at h
  | .mapping entries, w, h => by
    cases w with
    | mapping entries' => rw [eq_of_beqEntries entries entries' h]
    | _ => simp [beq] at h

theorem eq_of_beqItems : (vs ws : List Value) → beqItems vs ws = true → vs = ws
  | [], ws, h => by cases ws <;> simp_all [beqItems]
  | v :: vs, ws, h => by
    cases ws with
    | nil => simp [beqItems] at h
    | cons w ws =>
      simp only [beqItems, Bool.and_eq_true] at h
      rw [eq_of_beq v w h.1, eq_of_beqItems vs ws h.2]

theorem eq_of_beqEntries : (entries entries' : List (Value × Value)) →
    beqEntries entries entries' = true → entries = entries'
  | [], entries', h => by cases entries' <;> simp_all [beqEntries]
  | (k, v) :: rest, entries', h => by
    match entries', h with
    | (k', v') :: rest', h =>
      simp only [beqEntries, Bool.and_eq_true] at h
      rw [eq_of_beq k k' h.1.1, eq_of_beq v v' h.1.2, eq_of_beqEntries rest rest' h.2]

end

mutual

theorem beq_refl : (v : Value) → v.beq v = true
  | .null | .bool _ | .int _ | .float _ | .text _ | .ref _ => by simp [beq]
  | .list items => beqItems_refl items
  | .tuple items => beqItems_refl items
  | .mapping entries => beqEntries_refl entries

theorem beqItems_refl : (vs : List Value) → beqItems vs vs = true
  | [] => rfl
  | v :: vs => by rw [beqItems, beq_refl v, beqItems_refl vs]; rfl

theorem beqEntries_refl : (entries : List (Value × Value)) → beqEntries entries entries = true
  | [] => rfl
  | (k, v) :: rest => by rw [beqEntries, beq_refl k, beq_refl v, beqEntries_refl rest]; rfl

end

instance : LawfulBEq Value where
  eq_of_beq := eq_of_beq _ _
  rfl := beq_refl _

instance : DecidableEq Value := instDecidableEqOfLawfulBEq

end Value

namespace Heap

variable (heap : Heap)

/-- Objects are compared by what they are, and not as atoms. -/
theorem comparable_ref_ne_atom (address : Nat) (v : Value) :
    heap.comparable (.ref address) ≠ .atom v := by
  unfold comparable
  grind

theorem same_text (v : Value) (t : Text) : heap.same v (.text t) = .ok (v == .text t) := by
  cases v with
  | ref address =>
    have hdiffer : (Value.ref address == .text t) = false := rfl
    have hkind := heap.comparable_ref_ne_atom address
    rw [same, depth, sameFrom]
    split <;> simp_all [comparable]
  | _ => rfl

theorem text_same (t : Text) (v : Value) : heap.same (.text t) v = .ok (v == .text t) := by
  cases v with
  | text u =>
    change Except.ok (t == u) = .ok (u == t)
    rw [BEq.comm]
  | ref address =>
    have hdiffer : (Value.ref address == .text t) = false := rfl
    have hkind := heap.comparable_ref_ne_atom address
    rw [same, depth, sameFrom]
    split <;> simp_all [comparable]
  | _ => rfl

end Heap

end FunctionManifest
