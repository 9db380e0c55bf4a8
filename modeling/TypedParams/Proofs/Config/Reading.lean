import TypedParams.Config.Basic
import TypedParams.Proofs.Checked

/-! What a configuration that reads holds. Main statement: its declarations have distinct names and
literals of the native kinds, which are those of its entries. -/
namespace TypedParams

namespace Value

/-- What stands under a key of a mapping. -/
def at? (v : Value) (key : String) : Option Value := v.entries?.bind fun es => field? es key

/-- The items listed under a key; none where nothing stands there. -/
def itemsAt (v : Value) (key : String) : List Value :=
  ((v.at? key).bind fun x => (Checked.list x).toOption).getD []

theorem itemsAt_of_list {v x : Value} {key : String} {xs : List Value} (h : v.at? key = some x)
    (hx : Checked.list x = .ok xs) : v.itemsAt key = xs := by
  rw [itemsAt, h, Option.bind_some, hx]
  rfl

theorem itemsAt_of_none {v : Value} {key : String} (h : v.at? key = none) : v.itemsAt key = [] := by
  rw [itemsAt, h]
  rfl

/-- The literals of configurations: scalar values of the native kinds, without an application class
unless they are byte strings. -/
inductive IsLiteral : Value → Prop
  | bool (b : Bool) : IsLiteral (.bool b)
  | int (n : Int) : IsLiteral (.int n none)
  | float (x : Binary64) : IsLiteral (.float x none)
  | str (s : String) : IsLiteral (.str s)
  | bytes (bs : List UInt8) (g : Option Guise) : IsLiteral (.bytes bs g)

end Value

theorem Checked.isLiteral_of_literal {x v : Value} (h : literal x = .ok v) : v.IsLiteral := by
  unfold literal at h
  split at h
  · cases h; exact .bool _
  · cases h; exact .int _
  · cases h; exact .float _
  · split_ifs at h
    · cases h
    · cases h; exact .str _
  · cases h; exact .bytes _ _
  · cases h; exact .float _
  · cases h

namespace Declaration

def literals : Declaration → List Value
  | .scalar _ _ v => [v]
  | .array _ _ vs => vs

/-- A declaration with literals that are read as those of another. -/
inductive ReadAs : Declaration → Declaration → Prop
  | scalar {n : String} {t : Option LogicalType} {x v : Value} (h : Checked.literal x = .ok v) :
      ReadAs (.scalar n t x) (.scalar n t v)
  | array {n : String} {t : Option LogicalType} {xs vs : List Value}
      (h : List.Forall₂ (fun x v => Checked.literal x = .ok v) xs vs) :
      ReadAs (.array n t xs) (.array n t vs)

theorem ReadAs.name_eq {w d : Declaration} (h : w.ReadAs d) : w.name = d.name := by
  cases h <;> rfl

theorem ReadAs.isLiteral {w d : Declaration} (h : w.ReadAs d) : ∀ v ∈ d.literals, v.IsLiteral := by
  intro v hv
  cases h with
  | scalar h =>
    rw [literals, List.mem_singleton] at hv
    rw [hv]
    exact Checked.isLiteral_of_literal h
  | array h =>
    obtain ⟨x, -, hx⟩ := exists_of_mem_right h hv
    exact Checked.isLiteral_of_literal hx

/-- A declaration with the literals as its entry gives them. -/
def asWritten (item : Value) : Declaration → Declaration
  | .scalar n t _ => .scalar n t ((item.at? "value").getD .null)
  | .array n t _ => .array n t (item.itemsAt "values")

theorem readLiterals_eq_ok_iff {x : Value} {vs : List Value} : readLiterals x = .ok vs ↔
    ∃ xs, Checked.list x = .ok xs ∧ List.Forall₂ (fun x v => Checked.literal x = .ok v) xs vs := by
  rw [readLiterals, bind_eq_ok_iff]
  simp only [Checked.all_map_eq_ok_iff]

theorem readAs_of_readScalar {item : Value} {es : List (Value × Value)} {d : Declaration}
    (hes : item.entries? = some es) (h : readScalar es = .ok d) : (asWritten item d).ReadAs d := by
  obtain ⟨hdeclared, -⟩ := Checked.ensure_eq_ok_iff.1 h
  obtain ⟨⟨n, t, v⟩, hfields, rfl⟩ := map_eq_ok_iff.1 hdeclared
  obtain ⟨-, hrest⟩ := Checked.both_eq_ok_iff.1 hfields
  obtain ⟨-, hvalue⟩ := Checked.both_eq_ok_iff.1 hrest
  obtain ⟨x, hx, hread⟩ := Checked.required_eq_ok_iff.1 hvalue
  have hat : item.at? "value" = some x := by rw [Value.at?, hes, Option.bind_some, hx]
  rw [asWritten, hat]
  exact .scalar hread

theorem readAs_of_readArray {item : Value} {es : List (Value × Value)} {d : Declaration}
    (hes : item.entries? = some es) (h : readArray es = .ok d) : (asWritten item d).ReadAs d := by
  obtain ⟨hdeclared, -⟩ := Checked.ensure_eq_ok_iff.1 h
  obtain ⟨⟨n, t, vs⟩, hfields, rfl⟩ := map_eq_ok_iff.1 hdeclared
  obtain ⟨-, hrest⟩ := Checked.both_eq_ok_iff.1 hfields
  obtain ⟨-, hvalues⟩ := Checked.both_eq_ok_iff.1 hrest
  have hat : item.at? "values" = Value.field? es "values" := by
    rw [Value.at?, hes, Option.bind_some]
  rcases Checked.optional_eq_ok_iff.1 hvalues with ⟨hnone, hnil⟩ | ⟨x, hx, hread⟩
  · obtain rfl : vs = [] := hnil
    rw [asWritten, Value.itemsAt_of_none (hat.trans hnone)]
    exact .array .nil
  · obtain ⟨xs, hxs, hread⟩ := readLiterals_eq_ok_iff.1 hread
    rw [asWritten, Value.itemsAt_of_list (hat.trans hx) hxs]
    exact .array hread

/-- An entry that reads is read by the rules of one kind. -/
theorem entries_of_read {item : Value} {d : Declaration} (h : read item = .ok d) :
    ∃ es, item.entries? = some es ∧ (readScalar es = .ok d ∨ readArray es = .ok d) := by
  unfold read at h
  cases hes : item.entries? with
  | none =>
    rw [hes] at h
    cases h
  | some es =>
    rw [hes] at h
    refine ⟨es, rfl, ?_⟩
    simp only [readEntries] at h
    split at h
    · cases h
    · split at h
      · exact .inl (Checked.under_eq_ok_iff.1 h)
      · exact .inr (Checked.under_eq_ok_iff.1 h)
      · cases h

theorem readAs_of_read {item : Value} {d : Declaration} (h : read item = .ok d) :
    (asWritten item d).ReadAs d := by
  obtain ⟨es, hes, hscalar | harray⟩ := entries_of_read h
  · exact readAs_of_readScalar hes hscalar
  · exact readAs_of_readArray hes harray

theorem repeated?_eq_none_iff {seen : List String} {ds : List Declaration} :
    repeated? seen ds = none ↔ (∀ d ∈ ds, d.name ∉ seen) ∧ (ds.map name).Nodup := by
  induction ds generalizing seen with
  | nil => simp [repeated?]
  | cons d ds ih =>
    rw [repeated?]
    by_cases hd : d.name ∈ seen
    · simp [hd]
    · have hcontains : ¬seen.contains d.name = true := by simpa using hd
      rw [if_neg hcontains, ih, List.map_cons, List.nodup_cons, List.forall_mem_cons]
      simp only [List.mem_cons, not_or, List.mem_map, not_exists, not_and, hd, not_false_eq_true,
        true_and]
      constructor
      · intro h
        exact ⟨fun e he => (h.1 e he).2, fun e he => (h.1 e he).1, h.2⟩
      · intro h
        exact ⟨fun e he => ⟨h.2.1 e he, h.1 e he⟩, h.2.2⟩

theorem uniqueRule_eq_none_iff {ds : List Declaration} :
    uniqueRule ds = none ↔ (ds.map name).Nodup := by
  rw [uniqueRule, Option.map_eq_none_iff, repeated?_eq_none_iff]
  simp

/-- A configuration that reads lists an entry for each declaration, under distinct names. -/
theorem entries_of_readConfig {v : Value} {ds : List Declaration} (h : readConfig v = .ok ds) :
    List.Forall₂ (fun item d => read item = .ok d) (v.itemsAt "parameters") ds ∧
      (ds.map name).Nodup := by
  unfold readConfig at h
  cases hes : v.entries? with
  | none =>
    rw [hes] at h
    cases h
  | some es =>
    rw [hes] at h
    obtain ⟨hitems, hunique⟩ := Checked.ensure_eq_ok_iff.1 h
    refine ⟨?_, uniqueRule_eq_none_iff.1 hunique⟩
    have hat : v.at? "parameters" = Value.field? es "parameters" := by
      rw [Value.at?, hes, Option.bind_some]
    rcases Checked.optional_eq_ok_iff.1 hitems with ⟨hnone, rfl⟩ | ⟨x, hx, hread⟩
    · rw [Value.itemsAt_of_none (hat.trans hnone)]
      exact .nil
    · obtain ⟨items, hlist, hread⟩ := bind_eq_ok_iff.1 hread
      rw [Value.itemsAt_of_list (hat.trans hx) hlist]
      exact Checked.all_map_eq_ok_iff.1 hread

/-- The declarations of a configuration with their literals as its entries give them. -/
def allAsWritten (v : Value) (ds : List Declaration) : List Declaration :=
  List.zipWith asWritten (v.itemsAt "parameters") ds

theorem readAs_of_readConfig {v : Value} {ds : List Declaration} (h : readConfig v = .ok ds) :
    List.Forall₂ ReadAs (allAsWritten v ds) ds := by
  obtain ⟨hread, -⟩ := entries_of_readConfig h
  clear h
  unfold allAsWritten
  generalize v.itemsAt "parameters" = items at hread
  induction hread with
  | nil => exact .nil
  | cons hitem _ ih => exact .cons (readAs_of_read hitem) ih

end Declaration
end TypedParams
