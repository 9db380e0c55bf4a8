import TypedParams.Proofs.Config.Agreement
import TypedParams.Proofs.Template.Substitution
import TypedParams.Proofs.TypedValue.Arrays

/-! Literals that are one placeholder. Main statement: the string that the name is bound to is
encoded as its class shows it. That is encoding the string itself where the class shows its content.
-/
namespace TypedParams

/-- Types of which strings are the literals: what a string says is encoded as it stands. -/
def ScalarType.IsTextual (T : ScalarType) : Prop := T = .string ∨ ∃ u : TemporalType, T = u.scalar

namespace Template

/-- A text that is one placeholder, of a name that is bound to a string. -/
def Refers (vars : Bindings) (q t : Text) : Prop :=
  ∃ name, Spells q.content.toList name ∧
    Value.field? vars (String.ofList name) = some (.text t)

theorem hasOpening_of_spells {p name : List Char} (hp : Spells p name) : hasOpening p = true := by
  have hbegins : Begins p := ⟨p, name, [], hp, (List.append_nil p).symm⟩
  obtain ⟨c, rest, rfl, hc⟩ := hbegins.opening
  rcases hc with rfl | rfl
  · rfl
  · rfl

/-- The class of the string is lost on the way. -/
theorem Refers.resolve_eq {vars : Bindings} {q t : Text} (h : Refers vars q t) :
    resolve vars (.text q) = .str t.shown := by
  obtain ⟨name, hq, hname⟩ := h
  have hopening : hasOpening q.content.toList = true := hasOpening_of_spells hq
  have hshown : substitute vars q.content = t.shown := by
    have hlist : substitute vars (String.ofList q.content.toList) = (Value.text t).shown :=
      substitute_of_spells hq hname rfl
    rwa [String.ofList_toList, Value.shown_text] at hlist
  rw [resolve, substituteText, if_pos hopening, hshown]
  rfl

end Template

namespace TypedValue
open Encoder (IsRejected)

/-- A string is a literal of a textual type as it stands, or else malformed. -/
theorem outcome_scalarOf_text {T : ScalarType} (hT : T.IsTextual) (t : Text) :
    (¬IsRejected T (.text t) ∧
      outcome (scalarOf .builtIn (.text t) (.ofType (.scalar T))) =
        .ok (.scalar T (.plain t.content))) ∨
    (IsRejected T (.text t) ∧
      outcome (scalarOf .builtIn (.text t) (.ofType (.scalar T))) = .error .malformedLiteral) := by
  rw [scalarOf_ofType, encodeAs_builtIn_scalar rfl, outcome_map]
  rcases hT with rfl | ⟨u, rfl⟩
  · exact .inl ⟨Encoder.not_isRejected_string _, rfl⟩
  · rw [Encoder.run_builtIn_temporal, Encoder.isRejected_scalar_iff, TemporalType.validate]
    by_cases haccepts : u.accepts t.content = true
    · rw [if_pos haccepts]
      exact .inl ⟨by simp [haccepts], rfl⟩
    · rw [if_neg haccepts]
      exact .inr ⟨by simpa using haccepts, rfl⟩

/-- Two strings are encoded alike where they say the same, and where neither can be. -/
theorem outcome_scalarOf_text_eq_iff {T : ScalarType} (hT : T.IsTextual) {s t : Text} :
    outcome (scalarOf .builtIn (.text s) (.ofType (.scalar T))) =
      outcome (scalarOf .builtIn (.text t) (.ofType (.scalar T))) ↔
    s.content = t.content ∨ IsRejected T (.text s) ∧ IsRejected T (.text t) := by
  have hcongr : s.content = t.content → (IsRejected T (.text s) ↔ IsRejected T (.text t)) := by
    intro h
    rcases hT with rfl | ⟨u, rfl⟩
    · simp [Encoder.not_isRejected_string]
    · rw [Encoder.isRejected_scalar_iff, Encoder.isRejected_scalar_iff, h]
  rcases outcome_scalarOf_text hT s with ⟨hs, hsout⟩ | ⟨hs, hsout⟩ <;>
    rcases outcome_scalarOf_text hT t with ⟨ht, htout⟩ | ⟨ht, htout⟩ <;>
    rw [hsout, htout]
  · simp [hs]
  · have hdiffer : s.content ≠ t.content := fun h => hs ((hcongr h).2 ht)
    simp [hs, hdiffer]
  · have hdiffer : s.content ≠ t.content := fun h => ht ((hcongr h).1 hs)
    simp [ht, hdiffer]
  · simp [hs, ht]

end TypedValue

namespace Declaration
open Encoder (IsRejected)

/-- A declared scalar whose literal is a string. -/
def ofText (name : String) (T : ScalarType) (t : Text) : Declaration :=
  .scalar name (some (.scalar T)) (.text t)

theorem typedValue_ofText {vars : Template.Bindings} {q t : Text} (h : Template.Refers vars q t)
    (r : Registry) (name : String) (T : ScalarType) :
    typedValue r vars (ofText name T q) =
      TypedValue.scalarOf r (.str t.shown) (.ofType (.scalar T)) := by
  rw [ofText, typedValue, h.resolve_eq]
  rfl

/-- One declaration builds the parameter of its name, of whatever typed value its literal makes. -/
theorem build_singleton_eq_construct {r : Registry} {vars : Template.Bindings} {d d' : Declaration}
    (hname : d.name = d'.name) (hvalue : typedValue r vars d = literalValue r d') :
    build r vars [d] = construct r [d'] := by
  apply build_eq_construct_of_mapM
  rw [List.mapM_cons, List.mapM_cons, named, named, hvalue, hname]
  rfl

/-- A declared string or temporal literal that is one placeholder, in either spelling, is built as
the text that its variable shows were it declared or encoded directly. This is the typed value, or
the kind of refusal, of the bound string itself exactly where its class shows what it says, or where
the type takes neither text. -/
theorem typedValue_of_refers {T : ScalarType} (hT : T.IsTextual) {vars : Template.Bindings}
    {q t : Text} (h : Template.Refers vars q t) (name : String) :
    (∀ r, typedValue r vars (ofText name T q) =
      TypedValue.scalarOf r (.str t.shown) (.ofType (.scalar T))) ∧
    (∀ r defaults run, Template.Bindings.overriddenBy defaults run = .ok vars →
      buildOver r defaults run [ofText name T q] = construct r [ofText name T (.plain t.shown)]) ∧
    (outcome (typedValue .builtIn vars (ofText name T q)) =
        outcome (TypedValue.scalarOf .builtIn (.text t) (.ofType (.scalar T))) ↔
      t.shown = t.content ∨ IsRejected T (.str t.shown) ∧ IsRejected T (.text t)) := by
  refine ⟨fun r => typedValue_ofText h r name T, ?_, ?_⟩
  · intro r defaults run hvars
    rw [buildOver, hvars]
    exact build_singleton_eq_construct rfl (typedValue_ofText h r name T)
  · rw [typedValue_ofText h]
    exact TypedValue.outcome_scalarOf_text_eq_iff hT

/-- A type shows its token, which is what it says. -/
theorem typedValue_of_refers_token :
    Template.Refers [(.str "k", .text (.token .array))] (.plain "$\x7bk\x7d") (.token .array) ∧
    outcome (typedValue .builtIn [(.str "k", .text (.token .array))]
        (ofText "x" .string (.plain "$\x7bk\x7d"))) =
      outcome (TypedValue.scalarOf .builtIn (.text (.token .array))
        (.ofType (.scalar .string))) := by
  have hname : Text.isIdentifierChars ['k'] = true := by decide
  have hrefers : Template.Refers [(.str "k", .text (.token .array))] (.plain "$\x7bk\x7d")
      (.token .array) := ⟨['k'], .dollar hname, rfl⟩
  exact ⟨hrefers, (typedValue_of_refers (.inl rfl) hrefers "x").2.2.2 (.inl rfl)⟩

/-- A member of an enumeration of strings, which shows itself by its name. -/
def red : Text := .custom "red" ⟨⟨"app", [], "Color"⟩, some "Color.RED", some "<Color.RED: 'red'>"⟩

theorem typedValue_ne_scalarOf_red :
    Template.Refers [(.str "k", .text red)] (.plain "\x7b\x7bk\x7d\x7d") red ∧
    typedValue .builtIn [(.str "k", .text red)] (ofText "x" .string (.plain "\x7b\x7bk\x7d\x7d")) =
      .ok (.scalar .string (.plain "Color.RED")) ∧
    TypedValue.scalarOf .builtIn (.text red) (.ofType (.scalar .string)) =
      .ok (.scalar .string (.plain "red")) := by
  have hname : Text.isIdentifierChars ['k'] = true := by decide
  have hblank : ∀ c ∈ ([] : List Char), Text.isBlank c = true := by simp
  have hrefers : Template.Refers [(.str "k", .text red)] (.plain "\x7b\x7bk\x7d\x7d") red :=
    ⟨['k'], .braced hblank hname hblank, rfl⟩
  refine ⟨hrefers, ?_, rfl⟩
  rw [typedValue_ofText hrefers]
  rfl

end Declaration
end TypedParams
