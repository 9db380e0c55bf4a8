import TypedParams.Proofs.Success
import TypedParams.Wire.Reader

/-! When validated readings succeed, and when what they find wrong can be quoted. -/
namespace TypedParams

namespace Value

theorem entriesQuotable_iff {es : List (Value × Value)} :
    entriesQuotable es = true ↔ ∀ e ∈ es, e.1.isQuotable = true ∧ e.2.isQuotable = true := by
  induction es with
  | nil => simp [entriesQuotable]
  | cons e es ih => simp [entriesQuotable, ih]

theorem isQuotable_of_field? {es : List (Value × Value)} {name : String} {v : Value}
    (hes : (mapping es).isQuotable = true) (h : field? es name = some v) : v.isQuotable = true := by
  obtain ⟨e, he, rfl⟩ := Option.map_eq_some_iff.1 h
  exact (entriesQuotable_iff.1 hes e (List.mem_of_find?_eq_some he)).2

/-- What a value is as a mapping can be quoted where the value itself can. -/
theorem isQuotable_of_entries? {v : Value} {es : List (Value × Value)} (h : v.entries? = some es)
    (hv : v.isQuotable = true) : (mapping es).isQuotable = true := by
  cases v <;> cases h
  case mapping => exact hv
  case parameters p =>
    apply entriesQuotable_iff.2
    intro e he
    obtain ⟨x, -, rfl⟩ := List.mem_map.1 he
    exact ⟨rfl, rfl⟩

end Value

theorem Error.withIssues_cases (refusal : List Issue → Error) (is : List Issue) :
    (∀ i ∈ is, i.quotable = true) ∧ withIssues refusal is = refusal is ∨
      (∃ i ∈ is, i.quotable = false) ∧ withIssues refusal is = .unwritableNumber := by
  unfold withIssues
  split_ifs with hall
  · exact .inl ⟨List.all_eq_true.1 hall, rfl⟩
  · simp only [List.all_eq_true, not_forall, Bool.not_eq_true] at hall
    obtain ⟨i, hi, hnot⟩ := hall
    exact .inr ⟨⟨i, hi, hnot⟩, rfl⟩

namespace Checked

theorem under_eq_ok_iff {s : Step} {c : Checked α} {a : α} : c.under s = .ok a ↔ c = .ok a :=
  mapError_eq_ok_iff

theorem both_eq_ok_iff {x : Checked α} {y : Checked β} {p : α × β} :
    both x y = .ok p ↔ x = .ok p.1 ∧ y = .ok p.2 := by
  cases x <;> cases y <;> simp [both, Prod.ext_iff]

theorem ensure_eq_ok_iff {c : Checked α} {quotable : Bool} {broken : α → Option String} {a : α} :
    c.ensure quotable broken = .ok a ↔ c = .ok a ∧ broken a = none := by
  rw [ensure, bind_eq_ok_iff]
  constructor
  · intro h
    obtain ⟨b, hc, hb⟩ := h
    cases hrule : broken b with
    | none =>
      rw [hrule] at hb
      cases hb
      exact ⟨hc, hrule⟩
    | some text =>
      rw [hrule] at hb
      cases hb
  · intro h
    refine ⟨a, h.1, ?_⟩
    rw [h.2]

theorem required_eq_ok_iff {entries : List (Value × Value)} {name : String}
    {read : Value → Checked α} {a : α} : required entries name read = .ok a ↔
      ∃ v, Value.field? entries name = some v ∧ read v = .ok a := by
  unfold required
  cases Value.field? entries name with
  | none => simp [under_eq_ok_iff, refuse, fail]
  | some v => simp [under_eq_ok_iff]

theorem optional_eq_ok_iff {entries : List (Value × Value)} {name : String} {default : α}
    {read : Value → Checked α} {a : α} : optional entries name default read = .ok a ↔
      Value.field? entries name = none ∧ a = default ∨
        ∃ v, Value.field? entries name = some v ∧ read v = .ok a := by
  unfold optional
  cases Value.field? entries name with
  | none => simp [eq_comm]
  | some v => simp [under_eq_ok_iff]

theorem allFrom_eq_ok_iff {i : Nat} {cs : List (Checked α)} {as : List α} :
    allFrom i cs = .ok as ↔ cs = as.map .ok := by
  induction cs generalizing i as with
  | nil => cases as <;> simp [allFrom]
  | cons c cs ih =>
    rw [allFrom, map_eq_ok_iff]
    simp only [both_eq_ok_iff, under_eq_ok_iff, ih, Prod.exists]
    constructor
    · intro h
      obtain ⟨a, as, ⟨rfl, rfl⟩, rfl⟩ := h
      rfl
    · intro h
      cases as with
      | nil => cases h
      | cons a as =>
        obtain ⟨rfl, rfl⟩ := List.cons.inj h
        exact ⟨a, as, ⟨rfl, rfl⟩, rfl⟩

theorem all_map_eq_ok_iff {f : α → Checked β} {xs : List α} {ys : List β} :
    all (xs.map f) = .ok ys ↔ List.Forall₂ (fun x y => f x = .ok y) xs ys := by
  rw [all, allFrom_eq_ok_iff, ← List.forall₂_eq_eq_eq, List.forall₂_map_left_iff,
    List.forall₂_map_right_iff]

/-! ### Issues that can be quoted -/

/-- All that was found wrong, if anything was, can be quoted. -/
def Quotes (c : Checked α) : Prop := ∀ is, c = .error is → ∀ i ∈ is, i.quotable = true

theorem quotes_refuse {v : Value} (h : v.isQuotable = true) (f : Fault) :
    (refuse v f : Checked α).Quotes := by
  intro is his i hi
  cases his
  rw [List.mem_singleton.1 hi]
  exact h

theorem Quotes.under {c : Checked α} (h : c.Quotes) (s : Step) : (c.under s).Quotes := by
  cases c with
  | ok a => exact nofun
  | error is =>
    intro js hjs j hj
    cases hjs
    obtain ⟨i, hi, rfl⟩ := List.mem_map.1 hj
    exact h is rfl i hi

theorem Quotes.ensure {c : Checked α} (h : c.Quotes) (broken : α → Option String) :
    (c.ensure true broken).Quotes := by
  cases c with
  | ok a =>
    intro is his i hi
    simp only [Checked.ensure, Except.bind] at his
    split at his
    · cases his
    · cases his
      rw [List.mem_singleton.1 hi]
  | error is => exact h

theorem Quotes.map {c : Checked α} (h : c.Quotes) (f : α → β) : Quotes (c.map f) := by
  cases c with
  | ok a => exact nofun
  | error is =>
    intro js hjs
    cases hjs
    exact h is rfl

theorem Quotes.both {x : Checked α} {y : Checked β} (hx : x.Quotes) (hy : y.Quotes) :
    (both x y).Quotes := by
  cases x with
  | ok a =>
    cases y with
    | ok b => exact nofun
    | error js =>
      intro ks hks
      cases hks
      exact hy js rfl
  | error is =>
    cases y with
    | ok b =>
      intro ks hks
      cases hks
      exact hx is rfl
    | error js =>
      intro ks hks k hk
      cases hks
      rcases List.mem_append.1 hk with hi | hj
      · exact hx is rfl k hi
      · exact hy js rfl k hj

theorem quotes_required {es : List (Value × Value)} (hes : (Value.mapping es).isQuotable = true)
    (name : String) {read : Value → Checked α} (h : ∀ v, v.isQuotable = true → (read v).Quotes) :
    (required es name read).Quotes := by
  unfold required
  cases hfield : Value.field? es name with
  | none => exact (quotes_refuse hes _).under _
  | some v => exact (h v (Value.isQuotable_of_field? hes hfield)).under _

theorem quotes_optional {es : List (Value × Value)} (hes : (Value.mapping es).isQuotable = true)
    (name : String) (default : α) {read : Value → Checked α}
    (h : ∀ v, v.isQuotable = true → (read v).Quotes) : (optional es name default read).Quotes := by
  unfold optional
  cases hfield : Value.field? es name with
  | none => exact nofun
  | some v => exact (h v (Value.isQuotable_of_field? hes hfield)).under _

theorem quotes_string {v : Value} (h : v.isQuotable = true) : (string v).Quotes := by
  unfold string
  split
  · split_ifs
    · exact quotes_refuse h _
    · exact nofun
  · split
    · exact nofun
    · exact quotes_refuse h _
  · split
    · exact nofun
    · exact quotes_refuse h _
  · exact quotes_refuse h _

theorem quotes_list {v : Value} (h : v.isQuotable = true) : (list v).Quotes := by
  unfold list
  split
  · exact quotes_refuse h _
  · exact quotes_refuse h _
  · exact quotes_refuse h _
  · exact quotes_refuse h _
  · exact quotes_refuse h _
  · split
    · exact nofun
    · exact quotes_refuse h _

end Checked
end TypedParams
