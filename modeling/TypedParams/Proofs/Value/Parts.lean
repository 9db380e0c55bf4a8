import Mathlib.Data.Option.Basic
import TypedParams.Value.Basic

/-! Values part by part. Main statement: what stands at each place in lists and tuples determines
the value. -/
namespace TypedParams.Value

/-- The items of a list or a tuple; nothing else is gone into. -/
def parts : Value → List Value
  | .list xs _ | .tuple xs _ => xs
  | _ => []

/-- What stands at a place, which is given by the index of an item on each level. -/
def part? (v : Value) : (place : List Nat) → Option Value
  | [] => some v
  | i :: place => v.parts[i]?.bind (·.part? place)

theorem part?_cons (v : Value) (i : Nat) (place : List Nat) :
    v.part? (i :: place) = v.parts[i]?.bind (·.part? place) := rfl

/-- Whether a value is neither a string nor gone into. -/
def isLeaf : Value → Bool
  | .text _ | .list _ _ | .tuple _ _ => false
  | _ => true

theorem sizeOf_lt_of_mem_parts {v x : Value} (h : x ∈ v.parts) : sizeOf x < sizeOf v := by
  cases v with
  | list xs g =>
    have hx := List.sizeOf_lt_of_mem (show x ∈ xs from h)
    simp only [list.sizeOf_spec]
    omega
  | tuple xs g =>
    have hx := List.sizeOf_lt_of_mem (show x ∈ xs from h)
    simp only [tuple.sizeOf_spec]
    omega
  | _ => cases h

/-- Induction from the items of lists and tuples to these. -/
@[elab_as_elim]
theorem parts_induction {motive : Value → Prop}
    (step : ∀ v, (∀ x ∈ v.parts, motive x) → motive v) (v : Value) : motive v :=
  step v fun x _ => parts_induction step x
termination_by sizeOf v
decreasing_by exact sizeOf_lt_of_mem_parts ‹_›

/-- A value put in place of another: a string for a string, of which `R` tells, a plain list or
tuple for one of any class that is as long, and everything else for itself. -/
inductive Replaces (R : Text → Text → Prop) : Value → Value → Prop
  | text {s t : Text} (h : R s t) : Replaces R (.text s) (.text t)
  | list {xs ys : List Value} {g : Option Guise} (h : ys.length = xs.length) :
      Replaces R (.list xs g) (.list ys none)
  | tuple {xs ys : List Value} {g : Option Guise} (h : ys.length = xs.length) :
      Replaces R (.tuple xs g) (.tuple ys none)
  | leaf {v : Value} (h : v.isLeaf = true) : Replaces R v v

/-- Values nested alike, of which the second has at each place what replaces the first's. -/
def Corresponds (R : Text → Text → Prop) (v w : Value) : Prop :=
  ∀ place, Option.Rel (Replaces R) (v.part? place) (w.part? place)

variable {R S : Text → Text → Prop} {v w w' : Value}

theorem Replaces.length_parts (h : Replaces R v w) : w.parts.length = v.parts.length := by
  cases h with
  | text h => rfl
  | list h => exact h
  | tuple h => exact h
  | leaf h => rfl

theorem Corresponds.replaces (h : Corresponds R v w) : Replaces R v w := by
  cases h [] with
  | some h => exact h

theorem Corresponds.part {i : Nat} {x y : Value} (h : Corresponds R v w) (hx : v.parts[i]? = some x)
    (hy : w.parts[i]? = some y) : Corresponds R x y := by
  intro place
  have hplace := h (i :: place)
  rwa [part?_cons, part?_cons, hx, hy] at hplace

/-- It is enough to look at the strings. -/
theorem Corresponds.imp (h : Corresponds R v w)
    (himp : ∀ place s t, v.part? place = some (.text s) → R s t → S s t) : Corresponds S v w := by
  intro place
  have hplace := h place
  generalize hv : v.part? place = x at hplace ⊢
  generalize w.part? place = y at hplace ⊢
  cases hplace with
  | none => exact .none
  | some hreplaces =>
    cases hreplaces with
    | text hR => exact .some (.text (himp place _ _ hv hR))
    | list hlength => exact .some (.list hlength)
    | tuple hlength => exact .some (.tuple hlength)
    | leaf hleaf => exact .some (.leaf hleaf)

/-- Where each string can be replaced by one only, each value can. -/
theorem Corresponds.unique (hR : ∀ s t t', R s t → R s t' → t = t') (h : Corresponds R v w)
    (h' : Corresponds R v w') : w = w' := by
  induction v using parts_induction generalizing w w' with
  | step v ih =>
    have hparts : w.parts = w'.parts := by
      have hw := h.replaces.length_parts
      have hw' := h'.replaces.length_parts
      refine List.ext_getElem (hw.trans hw'.symm) ?_
      intro i hi hi'
      have hv : i < v.parts.length := hw ▸ hi
      exact ih v.parts[i] (List.getElem_mem hv)
        (h.part (List.getElem?_eq_getElem hv) (List.getElem?_eq_getElem hi))
        (h'.part (List.getElem?_eq_getElem hv) (List.getElem?_eq_getElem hi'))
    cases h.replaces with
    | text hs =>
      cases h'.replaces with
      | text hs' => rw [hR _ _ _ hs hs']
      | leaf hleaf => cases hleaf
    | list hlength =>
      cases h'.replaces with
      | list hlength' => exact congrArg (Value.list · none) hparts
      | leaf hleaf => cases hleaf
    | tuple hlength =>
      cases h'.replaces with
      | tuple hlength' => exact congrArg (Value.tuple · none) hparts
      | leaf hleaf => cases hleaf
    | leaf hleaf =>
      cases h'.replaces with
      | leaf => rfl
      | _ => cases hleaf

end TypedParams.Value
