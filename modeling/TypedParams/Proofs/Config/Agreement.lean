import TypedParams.Proofs.Config.Names
import TypedParams.Proofs.Encoding.Plain
import TypedParams.Proofs.Template.Identity

/-! Configurations and parameters made directly. Main statement: where no placeholder is bound, a
configuration builds what its literals make when they are encoded as written. -/
namespace TypedParams

/-! ### Resolving literals -/

namespace Template

theorem resolve_eq_self {vars : Bindings} {v : Value} (hv : v.IsLiteral)
    (h : ∀ n ∈ names v, insertion? vars n = none) : resolve vars v = v := by
  cases hv with
  | str s => exact resolve_str_eq_self h
  | _ => rfl

end Template

namespace Declaration

/-- The names of the placeholders in the literals. -/
def placeholders (d : Declaration) : List (List Char) := Template.namesAll d.literals

/-- The typed value that the literals make as they stand. -/
def literalValue (r : Registry) : Declaration → Except Error TypedValue
  | .scalar _ t v => TypedValue.scalarOf r v (Value.optional .ofType t)
  | .array _ t vs => TypedValue.arrayOf r (.list vs none) (Value.optional .ofType t)

/-- The parameters of a mapping from the declared names to the typed values of the literals. -/
def construct (r : Registry) (ds : List Declaration) : Except Error Parameters :=
  (ds.mapM (named (literalValue r))).bind fun es => Parameters.ofValue r (.ofPairs es)

theorem typedValue_eq_literalValue {r : Registry} {vars : Template.Bindings} {d : Declaration}
    (hliteral : ∀ v ∈ d.literals, v.IsLiteral)
    (hunbound : ∀ n ∈ d.placeholders, Template.insertion? vars n = none) :
    typedValue r vars d = literalValue r d := by
  have hresolve : ∀ v ∈ d.literals, Template.resolve vars v = v := by
    intro v hv
    refine Template.resolve_eq_self (hliteral v hv) ?_
    intro n hn
    exact hunbound n (Template.mem_namesAll.2 ⟨v, hv, hn⟩)
  cases d with
  | scalar n t v => rw [typedValue, hresolve v List.mem_cons_self, literalValue]
  | array n t vs =>
    have hmap : vs.map (Template.resolve vars) = vs :=
      (List.map_congr_left hresolve).trans (List.map_id vs)
    rw [typedValue, Template.resolveAll_eq_map, hmap, literalValue]

/-- Declarations build what others construct that make the same entries. -/
theorem build_eq_construct_of_mapM {r : Registry} {vars : Template.Bindings}
    {ds ds' : List Declaration}
    (h : ds.mapM (named (typedValue r vars)) = ds'.mapM (named (literalValue r))) :
    build r vars ds = construct r ds' := by
  rw [build_eq_bind, h, construct]
  simp only [Value.ofPairs, Parameters.ofValue_mapping]

theorem build_eq_construct {r : Registry} {vars : Template.Bindings} {ds : List Declaration}
    (hliteral : ∀ d ∈ ds, ∀ v ∈ d.literals, v.IsLiteral)
    (hunbound : ∀ d ∈ ds, ∀ n ∈ d.placeholders, Template.insertion? vars n = none) :
    build r vars ds = construct r ds := by
  apply build_eq_construct_of_mapM
  apply mapM_congr
  intro d hd
  rw [named, named, typedValue_eq_literalValue (hliteral d hd) (hunbound d hd)]

end Declaration

/-! ### Literals as written -/

theorem Checked.eq_plain_of_literal {x v : Value} (h : literal x = .ok v)
    (hkind : x.kind?.isSome = true) : v = x.plain := by
  cases x with
  | buffer bs => cases h
  | text t =>
    simp only [literal] at h
    split_ifs at h
    · cases h
    · cases h; rfl
  | bool b | int n g | float y g | bytes bs g =>
    cases h
    rfl
  | _ => cases hkind

theorem Checked.eq_map_plain {xs vs : List Value}
    (h : List.Forall₂ (fun x v => literal x = .ok v) xs vs)
    (hkind : ∀ x ∈ xs, x.kind?.isSome = true) : vs = xs.map Value.plain := by
  induction h with
  | nil => rfl
  | cons hx _ ih =>
    obtain ⟨hkind, hkinds⟩ := List.forall_mem_cons.1 hkind
    rw [List.map_cons, eq_plain_of_literal hx hkind, ih hkinds]

namespace Declaration

theorem outcome_literalValue_of_readAs {w d : Declaration} (h : w.ReadAs d)
    (hnative : ∀ x ∈ w.literals, x.kind?.isSome = true ∧ x.isAbridged = false) :
    outcome (literalValue .builtIn d) = outcome (literalValue .builtIn w) := by
  cases h with
  | @scalar n t x v h =>
    obtain ⟨hkind, hshown⟩ := hnative x List.mem_cons_self
    obtain rfl := Checked.eq_plain_of_literal h hkind
    exact TypedValue.outcome_scalarOf_plain hshown _
  | @array n t xs vs h =>
    obtain rfl := Checked.eq_map_plain h fun x hx => (hnative x hx).1
    exact TypedValue.outcome_arrayOf_plain (fun x hx => (hnative x hx).2) _

theorem outcome_construct_of_readAs {ws ds : List Declaration} (h : List.Forall₂ ReadAs ws ds)
    (hnative : ∀ w ∈ ws, ∀ x ∈ w.literals, x.kind?.isSome = true ∧ x.isAbridged = false) :
    outcome (construct .builtIn ds) = outcome (construct .builtIn ws) := by
  refine outcome_bind_congr (outcome_mapM_congr ?_) fun _ => rfl
  induction h with
  | nil => exact .nil
  | cons hwd _ ih =>
    obtain ⟨hw, hws⟩ := List.forall_mem_cons.1 hnative
    refine .cons ?_ (ih hws)
    rw [named, named, outcome_map, outcome_map, outcome_literalValue_of_readAs hwd hw, hwd.name_eq]

/-- Where no placeholder of a configuration is bound, it builds what its literals make. With
literals of the native kinds it fares as the author's own values do, if it needs no text of a class
to show an integer that is too long. -/
theorem buildOver_eq_construct {v run : Value} {ds : List Declaration}
    {defaults vars : Template.Bindings} (hread : readConfig v = .ok ds)
    (hvars : defaults.overriddenBy run = .ok vars)
    (hunbound : ∀ d ∈ ds, ∀ n ∈ d.placeholders, Template.insertion? vars n = none) :
    (∀ r, buildOver r defaults run ds = construct r ds) ∧
      ((∀ w ∈ allAsWritten v ds, ∀ x ∈ w.literals,
          x.kind?.isSome = true ∧ x.isAbridged = false) →
        outcome (buildOver .builtIn defaults run ds) =
          outcome (construct .builtIn (allAsWritten v ds))) := by
  have hreadAs := readAs_of_readConfig hread
  have hliteral : ∀ d ∈ ds, ∀ x ∈ d.literals, x.IsLiteral := by
    intro d hd
    obtain ⟨w, -, hw⟩ := exists_of_mem_right hreadAs hd
    exact hw.isLiteral
  have hbuild : ∀ r, buildOver r defaults run ds = construct r ds := by
    intro r
    rw [← build_eq_construct hliteral hunbound, buildOver, hvars]
    rfl
  refine ⟨hbuild, ?_⟩
  intro hnative
  rw [hbuild, outcome_construct_of_readAs hreadAs hnative]

/-- Strings that look like placeholders, one of them of a known name that is bound to nothing. -/
def openBraces : Value :=
  .mapping [(.str "parameters", .list
    [.mapping [(.str "kind", .str "scalar"), (.str "name", .str "path"),
        (.str "value", .str "\x7b\x7bsecrets/key\x7d\x7d")],
      .mapping [(.str "kind", .str "array"), (.str "name", .str "days"),
        (.str "values", .tuple [.str "$\x7bday\x7d", .text (.token .array)] none)]] none)]

def openBracesRead : List Declaration :=
  [.scalar "path" none (.str "\x7b\x7bsecrets/key\x7d\x7d"),
    .array "days" none [.str "$\x7bday\x7d", .str "ARRAY"]]

theorem buildOver_eq_construct_openBraces :
    outcome (buildOver .builtIn [(.str "now_date", .str "2024-01-31")]
        (.mapping [(.str "day", .null)]) openBracesRead) =
      outcome (construct .builtIn (allAsWritten openBraces openBracesRead)) := by
  have hnames : openBracesRead.flatMap placeholders = ["day".toList] := by decide +kernel
  refine (buildOver_eq_construct (v := openBraces) rfl rfl ?_).2 (by decide)
  intro d hd n hn
  have hday : n ∈ openBracesRead.flatMap placeholders := List.mem_flatMap.2 ⟨d, hd, hn⟩
  rw [hnames, List.mem_singleton] at hday
  rw [hday]
  rfl

/-- An entry whose literal is a number of a class that the encoders refuse. -/
def otherNumber : Value :=
  .mapping [(.str "kind", .str "scalar"), (.str "name", .str "x"), (.str "type", .str "FLOAT64"),
    (.str "value", .foreign ⟨⟨⟨"decimal", [], "Decimal"⟩, some "1.5", some "Decimal('1.5')"⟩, true,
      some ⟨0x3FF8000000000000⟩⟩ none)]

/-- Such a number is read as a float, which the encoders take. -/
theorem buildOver_takes_otherNumber :
    ∃ v ds, readConfig v = .ok ds ∧ (∀ d ∈ ds, d.placeholders = []) ∧
      (∃ p, buildOver .builtIn [] .null ds = .ok p) ∧
      ∃ e, construct .builtIn (allAsWritten v ds) = .error e ∧ e.kind = .typeMismatch := by
  refine ⟨.mapping [(.str "parameters", .list [otherNumber] none)],
    [.scalar "x" (some (.scalar .float64)) (.float ⟨0x3FF8000000000000⟩ none)], rfl, ?_,
    ⟨_, rfl⟩, _, rfl, rfl⟩
  intro d hd
  rw [List.mem_singleton.1 hd]
  rfl

end Declaration
end TypedParams
