import Mathlib.Data.List.Perm.Subperm
import TypedParams.Config.Build
import TypedParams.Proofs.Config.Reading
import TypedParams.Proofs.Parameters.Entries

/-! The names of parameters built from declarations. Main statement: each declaration has its own
parameter exactly when the declared names are distinct, as in a configuration they are. -/
namespace TypedParams.Declaration
open Parameters (keys typedEntry)

/-- The entry of a declaration, its typed value made in any way. -/
def named (make : Declaration → Except Error TypedValue) (d : Declaration) :
    Except Error (Value × Value) := (make d).map fun tv => (.str d.name, .typed tv)

theorem build_eq_bind (r : Registry) (vars : Template.Bindings) (ds : List Declaration) :
    build r vars ds = (ds.mapM (named (typedValue r vars))).bind fun es =>
      Parameters.ofEntries r (Value.putAll es []) := rfl

theorem typedEntries_of_mapM {make : Declaration → Except Error TypedValue} {ds : List Declaration}
    {es : List (Value × Value)} (h : ds.mapM (named make) = .ok es) :
    ∃ new, es = List.map typedEntry new ∧ new.map (·.1) = ds.map fun d => .plain d.name := by
  rw [mapM_eq_ok_iff] at h
  induction h with
  | nil => exact ⟨[], rfl, rfl⟩
  | @cons d e ds es hd _ ih =>
    obtain ⟨tv, -, rfl⟩ := map_eq_ok_iff.1 hd
    obtain ⟨new, rfl, hnew⟩ := ih
    refine ⟨(.plain d.name, tv) :: new, rfl, ?_⟩
    rw [List.map_cons, List.map_cons, hnew]

theorem keys_of_map_eq {new : List (Text × TypedValue)} {ds : List Declaration}
    (h : new.map (·.1) = ds.map fun d => .plain d.name) : keys new = ds.map name := by
  have hcontent : keys new = (new.map (·.1)).map Text.content := by
    rw [List.map_map]
    rfl
  rw [hcontent, h, List.map_map]
  rfl

theorem keys_of_build {r : Registry} {vars : Template.Bindings} {ds : List Declaration}
    {p : Parameters} (h : build r vars ds = .ok p) : keys p.entries = (ds.map name).eraseDups := by
  obtain ⟨es, hes, hp⟩ := bind_eq_ok_iff.1 h
  obtain ⟨new, rfl, hnew⟩ := typedEntries_of_mapM hes
  rw [Parameters.keys_of_ofEntries_putAll hp, keys_of_map_eq hnew]

/-- The parameters built have the declared names, each once and in the order of their first
declarations: one for each declaration exactly when no name is repeated. -/
theorem buildOver_names {r : Registry} {defaults : Template.Bindings} {run : Value}
    {ds : List Declaration} {p : Parameters} (h : buildOver r defaults run ds = .ok p) :
    keys p.entries = (ds.map name).eraseDups ∧
    (p.size = ds.length ↔ (ds.map name).Nodup) ∧
    ∀ v, readConfig v = .ok ds → p.size = ds.length ∧ keys p.entries = ds.map name := by
  obtain ⟨vars, -, hbuild⟩ := bind_eq_ok_iff.1 h
  have hkeys := keys_of_build hbuild
  have hsize : p.size = (keys p.entries).length := (List.length_map _).symm
  have hdistinct : (ds.map name).Nodup → p.size = ds.length ∧ keys p.entries = ds.map name := by
    intro hnodup
    rw [hsize, hkeys, eraseDups_eq_self hnodup, List.length_map]
    exact ⟨rfl, rfl⟩
  refine ⟨hkeys, ⟨?_, fun hnodup => (hdistinct hnodup).1⟩, ?_⟩
  · -- names among the declared ones and as many as these: a permutation without repetition
    intro hlength
    have hsubset : keys p.entries ⊆ ds.map name := by
      intro n hn
      rwa [hkeys, List.mem_eraseDups] at hn
    have hle : (ds.map name).length ≤ (keys p.entries).length := by
      rw [List.length_map, ← hsize]
      exact Nat.le_of_eq hlength.symm
    have hperm := (List.subperm_of_subset p.distinct hsubset).perm_of_length_le hle
    exact hperm.nodup_iff.1 p.distinct
  · intro v hv
    exact hdistinct (entries_of_readConfig hv).2

/-- Three declarations of two names, written as an application would list them. -/
def repeatedEntries : List Value :=
  [.mapping [(.str "kind", .str "scalar"), (.str "name", .str "x"), (.str "value", .int 1 none)],
    .mapping [(.str "kind", .str "array"), (.str "name", .str "y"),
      (.str "values", .list [.bool true] none)],
    .mapping [(.str "kind", .str "scalar"), (.str "name", .str "x"), (.str "value", .int 2 none)]]

def repeatedDeclarations : List Declaration :=
  [.scalar "x" none (.int 1 none), .array "y" none [.bool true], .scalar "x" none (.int 2 none)]

/-- The first two of the entries, as a configuration. -/
def distinctConfig : Value := .mapping [(.str "parameters", .list (repeatedEntries.take 2) none)]

theorem buildOver_names_repeated :
    (∃ p, buildOver .builtIn [] .null repeatedDeclarations = .ok p ∧
      keys p.entries = ["x", "y"] ∧ p.size ≠ 3) ∧
    ∃ ds p, readConfig distinctConfig = .ok ds ∧ buildOver .builtIn [] .null ds = .ok p ∧
      p.size = 2 ∧ keys p.entries = ["x", "y"] := by
  constructor
  · have hbuild : ∃ p, buildOver .builtIn [] .null repeatedDeclarations = .ok p := ⟨_, rfl⟩
    obtain ⟨p, hp⟩ := hbuild
    have hrepeated : ¬(repeatedDeclarations.map name).Nodup := by decide
    have hnames := buildOver_names hp
    exact ⟨p, hp, hnames.1, fun hsize => hrepeated (hnames.2.1.1 hsize)⟩
  · have hread : readConfig distinctConfig = .ok (repeatedDeclarations.take 2) := rfl
    have hbuild : ∃ p, buildOver .builtIn [] .null (repeatedDeclarations.take 2) = .ok p := ⟨_, rfl⟩
    obtain ⟨p, hp⟩ := hbuild
    have hnames := (buildOver_names hp).2.2 distinctConfig hread
    exact ⟨_, p, hread, hp, hnames⟩

/-- Declarations that come one by one may repeat a name, and then one of them is lost. -/
theorem buildOver_loses_declaration :
    ∃ ds p, readEach repeatedEntries = .ok ds ∧ buildOver .builtIn [] .null ds = .ok p ∧
      ds.map name = ["x", "y", "x"] ∧ keys p.entries = ["x", "y"] :=
  ⟨repeatedDeclarations, _, rfl, rfl, rfl, rfl⟩

end TypedParams.Declaration
