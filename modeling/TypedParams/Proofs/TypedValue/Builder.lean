import Mathlib.Data.List.Induction
import TypedParams.Proofs.TypedValue.Construction
import TypedParams.TypedValue.Workbench

/-! Runs of builders. Main statement: a builder builds what the last arguments of its setters make
when they are checked as fields, whatever was built or called in between. -/
namespace TypedParams

/-- The fields of a typed value, by which its builder is set. -/
inductive Field where
  | value
  | elements
  | type
  | elementType

namespace Builder

/-- What a call stores in a field. Elements that cannot be gone through are refused. -/
def Call.argument? : Field → Call → Option Value
  | .value, .setValue v => some v
  | .elements, .setElements v => if v.isNull || v.items?.isSome then some v else none
  | .type, .setType v => some v
  | .elementType, .setElementType v => some v
  | _, _ => none

/-- What calls store in a field, one after the other. -/
def arguments (f : Field) (calls : List Call) : List Value := calls.filterMap (Call.argument? f)

/-- The last argument stored is that of the last call, if it stores one. -/
theorem getLastD_arguments (f : Field) (calls : List Call) (c : Call) (seed : Value) :
    (arguments f (calls ++ [c])).getLastD seed =
      (c.argument? f).getD ((arguments f calls).getLastD seed) := by
  unfold arguments
  rw [List.filterMap_append]
  cases hc : c.argument? f with
  | none => simp [hc]
  | some v => simp [hc]

end Builder

/-- The fields as calls leave them: the last argument of each, and where there is none, the seed. -/
def Fields.given (seed : Fields) (calls : List Builder.Call) : Fields where
  value := (Builder.arguments .value calls).getLastD seed.value
  elements := (Builder.arguments .elements calls).getLastD seed.elements
  type := (Builder.arguments .type calls).getLastD seed.type
  elementType := (Builder.arguments .elementType calls).getLastD seed.elementType

namespace Builder

/-- The elements are held as a list of their own, so that they can be read again and again. -/
inductive HoldsElements : ElementSource → Value → Prop
  | null : HoldsElements (.own .null) .null
  | items {v : Value} {xs : List Value} (h : v.items? = some xs) :
      HoldsElements (.own (.list xs none)) v

/-- A builder holds some fields: the elements in its own copy, the others as given. -/
structure Holds (b : Builder) (f : Fields) : Prop where
  value : b.value = f.value
  elements : HoldsElements b.elements f.elements
  type : b.type = f.type
  elementType : b.elementType = f.elementType

theorem holds_new : Builder.new.Holds ⟨.null, .null, .null, .null⟩ := ⟨rfl, .null, rfl, rfl⟩

theorem holds_toBuilder (tv : TypedValue) : tv.toBuilder.Holds tv.fields := by
  cases tv with
  | scalar t s => exact ⟨rfl, .null, rfl, rfl⟩
  | array t items =>
    have hitems : (TypedValue.array t items).fields.elements.items? =
        some ((items.map (TypedValue.scalar t)).map .typed) := rfl
    exact ⟨rfl, .items hitems, rfl, rfl⟩

/-! ### One call -/

theorem HoldsElements.readElements {b : Builder} {f : Fields}
    (h : HoldsElements b.elements f.elements) (lists : String → List Value) :
    (b.fields lists).readElements = f.readElements := by
  have hfields : (b.fields lists).elements = b.elementsValue lists := rfl
  unfold Fields.readElements
  rw [hfields, elementsValue]
  generalize b.elements = source at h
  generalize f.elements = v at h
  cases h with
  | null => rfl
  | @items v xs hitems =>
    have hnull : v.isNull = false := by
      cases v with
      | null => cases hitems
      | _ => rfl
    rw [hnull, hitems]
    rfl

theorem Holds.build_eq {b : Builder} {f : Fields} (h : b.Holds f) (lists : String → List Value) :
    b.build lists = f.check := by
  have hvalue : (b.fields lists).value = f.value := h.value
  have htype : (b.fields lists).type = f.type := h.type
  have helementType : (b.fields lists).elementType = f.elementType := h.elementType
  rw [build, Fields.check_eq_bind, Fields.check_eq_bind, h.elements.readElements, hvalue, htype,
    helementType]

theorem Holds.afterBuild_eq {b : Builder} {f : Fields} (h : b.Holds f) : b.afterBuild = b := by
  obtain ⟨value, source, type, elementType⟩ := b
  have helements : HoldsElements source f.elements := h.elements
  -- only a stream would be used up, and no builder holds one that was not given it at the start
  generalize f.elements = v at helements
  cases helements with
  | null => rfl
  | items hitems => rfl

/-- Elements are left out or read into a list of the builder's own, or else refused. -/
theorem call_setElements_cases (b : Builder) (v : Value) :
    ((v.isNull || v.items?.isSome) = true ∧ ∃ source,
      b.call (.setElements v) = ({ b with elements := source }, .ok none) ∧
        HoldsElements source v) ∨
    (¬(v.isNull || v.items?.isSome) = true ∧
      b.call (.setElements v) = (b, .error .notIterable)) := by
  unfold call
  dsimp only
  unfold setElements
  by_cases hnull : v.isNull = true
  · have hv : v = .null := Value.isNull_iff.1 hnull
    subst hv
    exact .inl ⟨rfl, .own .null, rfl, .null⟩
  · rw [if_neg hnull]
    cases hitems : v.items? with
    | none =>
      right
      exact ⟨by simpa using hnull, rfl⟩
    | some xs =>
      left
      exact ⟨by simp, .own (.list xs none), rfl, .items hitems⟩

/-- A call changes the field that it stores an argument in, and no other. -/
theorem Holds.call {b : Builder} {seed : Fields} {calls : List Call}
    (h : b.Holds (seed.given calls))
    (c : Call) : (b.call c).1.Holds (seed.given (calls ++ [c])) := by
  -- the last argument of a field is that of `c` where it has one, and else the one held before
  have hgiven : seed.given (calls ++ [c]) =
      ⟨(c.argument? .value).getD (seed.given calls).value,
        (c.argument? .elements).getD (seed.given calls).elements,
        (c.argument? .type).getD (seed.given calls).type,
        (c.argument? .elementType).getD (seed.given calls).elementType⟩ := by
    simp only [Fields.given, getLastD_arguments]
  rw [hgiven]
  cases c with
  | setValue v => exact ⟨rfl, h.elements, h.type, h.elementType⟩
  | setType v => exact ⟨h.value, h.elements, rfl, h.elementType⟩
  | setElementType v => exact ⟨h.value, h.elements, h.type, rfl⟩
  | build lists =>
    have hafter : (b.call (.build lists)).1 = b := h.afterBuild_eq
    rw [hafter]
    exact ⟨h.value, h.elements, h.type, h.elementType⟩
  | setElements v =>
    have hargument : (Call.setElements v).argument? .elements =
        if (v.isNull || v.items?.isSome) = true then some v else none := rfl
    obtain ⟨hreadable, source, hcall, helements⟩ | ⟨hreadable, hcall⟩ := b.call_setElements_cases v
    · rw [hcall, hargument, if_pos hreadable]
      exact ⟨h.value, helements, h.type, h.elementType⟩
    · rw [hcall, hargument, if_neg hreadable]
      exact ⟨h.value, h.elements, h.type, h.elementType⟩

/-! ### Runs -/

/-- What calls leave of a builder, one after the other. -/
def calls (b : Builder) (cs : List Call) : Builder := cs.foldl (fun b c => (b.call c).1) b

theorem Holds.calls {b : Builder} {seed : Fields} (h : b.Holds seed) (cs : List Call) :
    (b.calls cs).Holds (seed.given cs) := by
  induction cs using List.reverseRecOn with
  | nil => exact h
  | append_singleton cs c ih =>
    have hlast : b.calls (cs ++ [c]) = ((b.calls cs).call c).1 := by
      unfold Builder.calls
      rw [List.foldl_append]
      rfl
    rw [hlast]
    exact ih.call c

theorem eq_of_refused {b : Builder} {c : Call} {e : Error} (hc : c.isBuild = false)
    (h : (b.call c).2 = .error e) : (b.call c).1 = b := by
  cases c with
  | setElements v =>
    obtain ⟨-, source, hcall, -⟩ | ⟨-, hcall⟩ := b.call_setElements_cases v
    · rw [hcall] at h
      cases h
    · rw [hcall]
  | build lists => cases hc
  | _ => cases h

end Builder

theorem TypedValue.build_toBuilder (tv : TypedValue) (lists : String → List Value) :
    tv.toBuilder.build lists = .ok tv := by
  have hdescribes : tv.fields.Describes tv := by
    cases tv with
    | scalar t s => exact .scalar rfl (Value.names_ofType _) rfl rfl
    | array t items =>
      have hitems : (TypedValue.array t items).fields.elements.items? =
          some (items.map fun s => .typed (.scalar t s)) := congrArg some List.map_map
      exact .array hitems (Value.names_ofType _) (Value.names_ofType _) rfl
  rw [(Builder.holds_toBuilder tv).build_eq]
  exact hdescribes.check

namespace Workbench
open Builder (Call arguments)

/-- A step that makes a builder: its number, and the fields that it starts from. -/
inductive Makes (s : Workbench) : Step → Nat → Fields → Prop
  | new : Makes s .new s.builders.length ⟨.null, .null, .null, .null⟩
  | derive {i : Nat} {tv : TypedValue} (h : s.values[i]? = some tv) :
      Makes s (.derive i) s.builders.length tv.fields

/-- The call of a builder that a step makes. -/
def Step.callOn? (n : Nat) : Step → Option Call
  | .call m c => if m = n then some c else none
  | _ => none

def callsOn (n : Nat) (steps : List Step) : List Call := steps.filterMap (Step.callOn? n)

theorem Makes.exists_holds {s : Workbench} {made : Step} {n : Nat} {seed : Fields}
    (h : s.Makes made n seed) : ∃ b, (s.next made).builders[n]? = some b ∧ b.Holds seed := by
  cases h with
  | new => exact ⟨.new, by simp [next, step], Builder.holds_new⟩
  | @derive i tv hvalue =>
    exact ⟨tv.toBuilder, by simp [next, step, hvalue], Builder.holds_toBuilder tv⟩

/-- A step changes no builder but the one that it calls. -/
theorem getElem?_next {s : Workbench} {n : Nat} {b : Builder} (h : s.builders[n]? = some b)
    (st : Step) : (s.next st).builders[n]? = some (b.calls (st.callOn? n).toList) := by
  have hlength : n < s.builders.length := (List.getElem?_eq_some_iff.1 h).1
  cases st with
  | new =>
    have hnext : (s.next .new).builders = s.builders ++ [.new] := rfl
    rw [hnext, List.getElem?_append_left hlength, h]
    rfl
  | derive i =>
    unfold next step
    dsimp only
    cases s.values[i]? with
    | none => exact h
    | some tv => exact (List.getElem?_append_left hlength).trans h
  | call m c =>
    unfold next step Step.callOn?
    dsimp only
    by_cases hm : m = n
    · subst hm
      rw [h, if_pos rfl]
      exact List.getElem?_set_self hlength
    · rw [if_neg hm]
      cases s.builders[m]? with
      | none => exact h
      | some b' => exact (List.getElem?_set_ne hm).trans h

theorem getElem?_run {s : Workbench} {n : Nat} {b : Builder} (h : s.builders[n]? = some b)
    (steps : List Step) : (s.run steps).builders[n]? = some (b.calls (callsOn n steps)) := by
  induction steps generalizing s b with
  | nil => exact h
  | cons st steps ih =>
    have hrest : callsOn n (st :: steps) = (st.callOn? n).toList ++ callsOn n steps := by
      unfold callsOn
      cases hcall : st.callOn? n with
      | none => simp [hcall]
      | some c => simp [hcall]
    have hcalls : b.calls (callsOn n (st :: steps)) =
        (b.calls (st.callOn? n).toList).calls (callsOn n steps) := by
      rw [hrest]
      exact List.foldl_append
    rw [hcalls]
    exact ih (getElem?_next h st)

theorem values_prefix_next (s : Workbench) (st : Step) : s.values <+: (s.next st).values := by
  cases st with
  | new => exact List.prefix_refl _
  | derive i =>
    unfold next step
    dsimp only
    cases s.values[i]? with
    | none => exact List.prefix_refl _
    | some tv => exact List.prefix_refl _
  | call n c =>
    unfold next step
    dsimp only
    cases s.builders[n]? with
    | none => exact List.prefix_refl _
    | some b => exact List.prefix_append _ _

theorem values_prefix_run (s : Workbench) (steps : List Step) :
    s.values <+: (s.run steps).values := by
  induction steps generalizing s with
  | nil => exact List.prefix_refl _
  | cons st steps ih => exact (s.values_prefix_next st).trans (ih (s.next st))

theorem Makes.exists_holds_run {s : Workbench} {made : Step} {n : Nat} {seed : Fields}
    (h : s.Makes made n seed) (steps : List Step) :
    ∃ b, (s.run (made :: steps)).builders[n]? = some b ∧
      b.Holds (seed.given (callsOn n steps)) := by
  obtain ⟨b, hb, hseed⟩ := h.exists_holds
  exact ⟨b.calls (callsOn n steps), getElem?_run hb steps, hseed.calls (callsOn n steps)⟩

theorem step_call {s : Workbench} {n : Nat} {b : Builder} (h : s.builders[n]? = some b) (c : Call) :
    s.step (.call n c) = (⟨s.builders.set n (b.call c).1,
      s.values ++ ((b.call c).2.toOption.bind id).toList⟩, (b.call c).2) := by
  unfold step
  dsimp only
  rw [h]

theorem set_getElem? {xs : List α} {n : Nat} {a : α} (h : xs[n]? = some a) : xs.set n a = xs := by
  obtain ⟨hn, rfl⟩ := List.getElem?_eq_some_iff.1 h
  exact List.set_getElem_self hn

/-- Whenever a builder is asked for its value, it gives what the fields make in which each of its
setters stored its last argument, and where none did, what the builder started from: whatever was
built or refused in between, done with other builders, or has become of the lists that arguments
came from. A build and a refused setter leave all builders as they are, the order in which different
fields were set does not matter, and values stay as they were built. A builder made from a value
gives that value. -/
theorem build_of_makes {s : Workbench} {made : Step} {n : Nat} {seed : Fields}
    (h : s.Makes made n seed) (steps : List Step) :
    (∀ lists, ((s.run (made :: steps)).step (.call n (.build lists))).2 =
      (seed.given (callsOn n steps)).check.map some) ∧
    (∀ lists, ((s.run (made :: steps)).next (.call n (.build lists))).builders =
      (s.run (made :: steps)).builders) ∧
    (∀ c e, c.isBuild = false → ((s.run (made :: steps)).step (.call n c)).2 = .error e →
      (s.run (made :: steps)).next (.call n c) = s.run (made :: steps)) ∧
    (∀ steps', (∀ f, arguments f (callsOn n steps') = arguments f (callsOn n steps)) →
      ∀ lists lists', ((s.run (made :: steps')).step (.call n (.build lists'))).2 =
        ((s.run (made :: steps)).step (.call n (.build lists))).2) ∧
    (∀ later, (s.run (made :: steps)).values <+: (s.run (made :: (steps ++ later))).values) ∧
    ∀ (tv : TypedValue) lists, tv.toBuilder.build lists = .ok tv := by
  have hanswer : ∀ steps lists, ((s.run (made :: steps)).step (.call n (.build lists))).2 =
      (seed.given (callsOn n steps)).check.map some := by
    intro steps lists
    obtain ⟨b, hb, hfields⟩ := h.exists_holds_run steps
    have hbuild : (b.call (.build lists)).2 = (b.build lists).map some := rfl
    rw [step_call hb, hbuild, hfields.build_eq lists]
  refine ⟨hanswer steps, ?build, ?refused, ?order, ?values, TypedValue.build_toBuilder⟩
  case build =>
    intro lists
    obtain ⟨b, hb, hfields⟩ := h.exists_holds_run steps
    have hleft : (b.call (.build lists)).1 = b := hfields.afterBuild_eq
    rw [next, step_call hb, hleft]
    exact set_getElem? hb
  case refused =>
    intro c e hc he
    obtain ⟨b, hb, -⟩ := h.exists_holds_run steps
    rw [step_call hb] at he
    have hleft : (b.call c).1 = b := Builder.eq_of_refused hc he
    have hnone : (b.call c).2 = .error e := he
    rw [next, step_call hb, hleft, hnone, set_getElem? hb]
    exact congrArg _ (List.append_nil _)
  case order =>
    intro steps' harguments lists lists'
    rw [hanswer, hanswer]
    simp only [Fields.given, harguments]
  case values =>
    intro later
    have hrun : s.run (made :: (steps ++ later)) = (s.run (made :: steps)).run later :=
      List.foldl_append
    rw [hrun]
    exact values_prefix_run _ later

/-- Elements read from a stream are built once all fields are set, behind a build that failed and
elements that were refused. -/
theorem build_of_makes_streamed :
    ((run ⟨[], []⟩ [.new, .call 0 (.setElements (.stream [.typed (.scalar .int64 (.plain "1"))])),
        .call 0 (.setType (.str "ARRAY")), .call 0 (.build fun _ => []),
        .call 0 (.setElements (.bool true)), .call 0 (.setElementType (.str "INT64"))]).step
      (.call 0 (.build fun _ => []))).2 = .ok (some (.array .int64 [.plain "1"])) :=
  ((build_of_makes .new _).1 _).trans rfl

end Workbench
end TypedParams
