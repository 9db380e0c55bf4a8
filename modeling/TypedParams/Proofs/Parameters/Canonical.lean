import TypedParams.Proofs.Config.Names
import TypedParams.Proofs.Encoding.Canonical
import TypedParams.Proofs.Parameters.Encoding
import TypedParams.Proofs.TypedValue.Factories

/-! What is sent for encoded values. Main statement: parameter sets made of native values, by the
factories and from configurations are written with literals of their declared types. -/
namespace TypedParams

/-- The literals of a typed value are in the language of its type. -/
inductive TypedValue.IsCanonical : TypedValue → Prop
  | scalar {t : ScalarType} {s : Text} (h : t.IsCanonical s.content) : IsCanonical (.scalar t s)
  | array {t : ScalarType} {items : List Text} (h : ∀ s ∈ items, t.IsCanonical s.content) :
      IsCanonical (.array t items)

/-- Encoded literals are plain strings. -/
theorem TypedValue.OfLiterals.isEncodable {tv : TypedValue} (h : tv.OfLiterals) :
    tv.IsEncodable := by
  cases h with
  | scalar h =>
    intro s hs
    cases hs
    rfl
  | array h => exact nofun

theorem TypedValue.OfLiterals.isCanonical {tv : TypedValue} (h : tv.OfLiterals) :
    tv.IsCanonical := by
  cases h with
  | scalar h => exact .scalar h.isCanonical
  | array h =>
    refine .array ?_
    intro s hs
    obtain ⟨v, hv⟩ := h s hs
    exact hv.isCanonical

/-- A document with a literal, or with a list of literals, in the language of the type that it
declares. -/
inductive Document.IsCanonical : Document Value → Prop
  | scalar (name : String) {t : ScalarType} {s : String} (h : t.IsCanonical s) :
      IsCanonical ⟨name, .leaf t.token, .text s⟩
  | array (name : String) {t : ScalarType} {items : List Text}
      (h : ∀ s ∈ items, t.IsCanonical s.content) :
      IsCanonical ⟨name, ⟨"ARRAY", [t.token]⟩, .items (items.map .text)⟩

theorem TypedValue.IsCanonical.document {tv : TypedValue} (h : tv.IsCanonical) (name : String) :
    (Document.ofTyped name tv).IsCanonical := by
  cases h with
  | scalar h => exact .scalar name h
  | array h => exact .array name h

/-! ### Values on their way into a parameter set -/

namespace Value

theorem forall_upsertEntry {P : Value → Prop} {k v : Value} {es : List (Value × Value)} (hv : P v)
    (h : ∀ e ∈ es, P e.2) : ∀ e ∈ upsertEntry k v es, P e.2 := by
  induction es with
  | nil =>
    intro e he
    rw [upsertEntry, List.mem_singleton] at he
    rwa [he]
  | cons d es ih =>
    obtain ⟨hd, hes⟩ := List.forall_mem_cons.1 h
    rw [upsertEntry]
    split_ifs
    · exact List.forall_mem_cons.2 ⟨hv, hes⟩
    · exact List.forall_mem_cons.2 ⟨hd, ih hes⟩

theorem forall_putAll {P : Value → Prop} {new es : List (Value × Value)} (hnew : ∀ e ∈ new, P e.2)
    (h : ∀ e ∈ es, P e.2) : ∀ e ∈ putAll new es, P e.2 := by
  induction new generalizing es with
  | nil => exact h
  | cons d new ih =>
    obtain ⟨hd, hrest⟩ := List.forall_mem_cons.1 hnew
    exact ih hrest (forall_upsertEntry hd h)

end Value

namespace Parameters

theorem forall_upsert {P : TypedValue → Prop} {name : Text} {v : TypedValue}
    {es : List (Text × TypedValue)} (hv : P v) (h : ∀ e ∈ es, P e.2) :
    ∀ e ∈ upsert name v es, P e.2 := by
  induction es with
  | nil =>
    intro e he
    rw [upsert, List.mem_singleton] at he
    rwa [he]
  | cons d es ih =>
    obtain ⟨hd, hes⟩ := List.forall_mem_cons.1 h
    rw [upsert]
    split_ifs
    · exact List.forall_mem_cons.2 ⟨hv, hes⟩
    · exact List.forall_mem_cons.2 ⟨hd, ih hes⟩

theorem forall_add {P : TypedValue → Prop} {p q : Parameters} {name : Value} {v : TypedValue}
    (hv : P v) (hp : ∀ e ∈ p.entries, P e.2) (h : p.add name v = .ok q) :
    ∀ e ∈ q.entries, P e.2 := by
  unfold add at h
  split at h
  · split_ifs at h
    cases h
    exact forall_upsert hv hp
  · cases h

/-- Adding values keeps what holds of those in the set and of those that are made. -/
theorem forall_addAll {P : TypedValue → Prop} {r : Registry} {es : List (Value × Value)}
    {p q : Parameters} (hes : ∀ e ∈ es, ∀ tv, TypedValue.ofValue r e.2 = .ok tv → P tv)
    (hp : ∀ e ∈ p.entries, P e.2) (h : addAll r p es = .ok q) : ∀ e ∈ q.entries, P e.2 := by
  induction es generalizing p with
  | nil =>
    cases h
    exact hp
  | cons d es ih =>
    obtain ⟨hd, hrest⟩ := List.forall_mem_cons.1 hes
    obtain ⟨tv, htv, hadd⟩ := bind_eq_ok_iff.1 h
    obtain ⟨p', hp', hall⟩ := bind_eq_ok_iff.1 hadd
    exact ih hrest (forall_add (hd tv htv) hp hp') hall

theorem forall_ofEntries {P : TypedValue → Prop} {r : Registry} {es : List (Value × Value)}
    {p : Parameters} (hes : ∀ e ∈ es, ∀ tv, TypedValue.ofValue r e.2 = .ok tv → P tv)
    (h : ofEntries r es = .ok p) : ∀ e ∈ p.entries, P e.2 :=
  forall_addAll hes (by simp [empty]) h

end Parameters

/-! ### Where encoded values come from -/

/-- Typed values that the library has encoded: by a factory, or for a configuration. -/
inductive TypedValue.IsEncoded : TypedValue → Prop
  | scalarOf {v type : Value} {tv : TypedValue} (h : scalarOf .builtIn v type = .ok tv) :
      IsEncoded tv
  | arrayOf {values type : Value} {tv : TypedValue} (h : arrayOf .builtIn values type = .ok tv) :
      IsEncoded tv
  | typedValue {vars : Template.Bindings} {d : Declaration} {tv : TypedValue}
      (h : d.typedValue .builtIn vars = .ok tv) : IsEncoded tv

/-- Values to be given to a parameter set: any but typed ones that were not encoded. -/
def Value.IsGiven (v : Value) : Prop := ∀ tv, v = .typed tv → tv.IsEncoded

/-- Parameter sets whose values have all been encoded. -/
inductive Parameters.IsEncoded : Parameters → Prop
  | ofValue {v : Value} {p : Parameters} (hv : ∀ es, v.entries? = some es → ∀ e ∈ es, e.2.IsGiven)
      (h : ofValue .builtIn v = .ok p) : IsEncoded p
  | extend {v : Value} {p q : Parameters} (hp : p.IsEncoded)
      (hv : ∀ es, v.entries? = some es → ∀ e ∈ es, e.2.IsGiven)
      (h : p.extend .builtIn v = .ok q) : IsEncoded q
  | buildOver {defaults : Template.Bindings} {run : Value} {ds : List Declaration} {p : Parameters}
      (h : Declaration.buildOver .builtIn defaults run ds = .ok p) : IsEncoded p

theorem TypedValue.isEncoded_of_ofValue {v : Value} (hv : v.IsGiven) {tv : TypedValue}
    (h : ofValue .builtIn v = .ok tv) : tv.IsEncoded := by
  unfold ofValue at h
  split at h
  · cases h
    exact hv tv rfl
  · exact .arrayOf h
  · exact .arrayOf h
  · exact .scalarOf h

theorem TypedValue.IsEncoded.ofLiterals {tv : TypedValue} (h : tv.IsEncoded) : tv.OfLiterals := by
  cases h with
  | scalarOf h => exact ofLiterals_of_scalarOf h
  | arrayOf h => exact ofLiterals_of_arrayOf h
  | @typedValue vars d _ h =>
    cases d with
    | scalar n t v =>
      rw [Declaration.typedValue] at h
      exact ofLiterals_of_scalarOf h
    | array n t vs =>
      rw [Declaration.typedValue] at h
      exact ofLiterals_of_arrayOf h

theorem Declaration.isEncoded_of_build {vars : Template.Bindings} {ds : List Declaration}
    {p : Parameters} (h : build .builtIn vars ds = .ok p) : ∀ e ∈ p.entries, e.2.IsEncoded := by
  obtain ⟨es, hes, hentries⟩ := bind_eq_ok_iff.1 h
  have hgiven : ∀ e ∈ es, e.2.IsGiven := by
    intro e he tv htv
    obtain ⟨d, -, hd⟩ := exists_of_mem_right (mapM_eq_ok_iff.1 hes) he
    obtain ⟨tv', htyped, rfl⟩ := map_eq_ok_iff.1 hd
    cases htv
    exact .typedValue htyped
  have hput : ∀ e ∈ Value.putAll es [], e.2.IsGiven := Value.forall_putAll hgiven (by simp)
  refine Parameters.forall_ofEntries ?_ hentries
  intro e he tv htv
  exact TypedValue.isEncoded_of_ofValue (hput e he) htv

namespace Parameters

theorem isEncoded_of_ofEntries {es : List (Value × Value)} (hes : ∀ e ∈ es, e.2.IsGiven)
    {p : Parameters} (h : ofEntries .builtIn es = .ok p) : ∀ e ∈ p.entries, e.2.IsEncoded := by
  refine forall_ofEntries ?_ h
  intro e he tv htv
  exact TypedValue.isEncoded_of_ofValue (hes e he) htv

/-- Each way of making a parameter set puts nothing into it but encoded values. -/
theorem IsEncoded.entries {p : Parameters} (h : p.IsEncoded) :
    ∀ e ∈ p.entries, e.2.IsEncoded := by
  induction h with
  | @ofValue v p hv h =>
    unfold Parameters.ofValue at h
    split at h
    · cases h
      simp [empty]
    · cases hes : v.entries? with
      | none =>
        rw [hes] at h
        cases h
      | some es =>
        rw [hes] at h
        exact isEncoded_of_ofEntries (hv es hes) h
  | @extend v p q hp hv h ih =>
    unfold Parameters.extend at h
    cases hes : v.entries? with
    | none =>
      rw [hes] at h
      cases h
    | some es =>
      rw [hes] at h
      have hold : ∀ e ∈ Value.parameterEntries p, e.2.IsGiven := by
        intro e he tv htv
        obtain ⟨e', he', rfl⟩ := List.mem_map.1 he
        cases htv
        exact ih e' he'
      exact isEncoded_of_ofEntries (Value.forall_putAll (hv es hes) hold) h
  | buildOver h =>
    obtain ⟨vars, -, hbuild⟩ := bind_eq_ok_iff.1 h
    exact Declaration.isEncoded_of_build hbuild

/-- Parameter sets whose values were encoded are written, and each of the documents carries literals
in the language of the type that it declares. -/
theorem toWire_isCanonical {p : Parameters} (h : p.IsEncoded) :
    ∃ ds, p.toWire = .ok ds ∧ ∀ d ∈ ds, d.IsCanonical := by
  have hencodable : p.IsEncodable := fun e he => (h.entries e he).ofLiterals.isEncodable
  refine ⟨_, toWire_eq_ok_iff.2 ⟨hencodable, rfl⟩, ?_⟩
  intro d hd
  obtain ⟨e, he, rfl⟩ := List.mem_map.1 hd
  exact (h.entries e he).ofLiterals.isCanonical.document e.1.content

/-- Native values of three types, beside an array that a factory makes. -/
def nativeBeside (days : TypedValue) : Value :=
  .mapping [(.str "since", .int (-1) none), (.str "key", .str "k"),
    (.str "flags", .tuple [.bool true, .bool false] none), (.str "days", .typed days)]

theorem toWire_isCanonical_nativeBeside :
    ∃ days p ds, TypedValue.arrayOf .builtIn (.list [.str "2024-02-29"] none) (.str "DATE") =
        .ok days ∧ ofValue .builtIn (nativeBeside days) = .ok p ∧ p.toWire = .ok ds ∧
      ds.length = 4 ∧ ∀ d ∈ ds, d.IsCanonical := by
  have hdays : TypedValue.arrayOf .builtIn (.list [.str "2024-02-29"] none) (.str "DATE") =
      .ok (.array .date [.plain "2024-02-29"]) := rfl
  have hparameters : ∃ p, ofValue .builtIn (nativeBeside (.array .date [.plain "2024-02-29"])) =
      .ok p ∧ p.size = 4 := ⟨_, rfl, rfl⟩
  obtain ⟨p, hp, hsize⟩ := hparameters
  have hencoded : p.IsEncoded := by
    refine .ofValue ?_ hp
    intro es hes e he tv htv
    cases hes
    simp only [List.mem_cons, List.not_mem_nil, or_false] at he
    rcases he with rfl | rfl | rfl | rfl <;> cases htv
    exact .arrayOf hdays
  obtain ⟨ds, hds, hcanonical⟩ := toWire_isCanonical hencoded
  refine ⟨_, p, ds, hdays, hp, hds, ?_, hcanonical⟩
  rw [(toWire_eq_ok_iff.1 hds).2, List.length_map]
  exact hsize

end Parameters
end TypedParams
