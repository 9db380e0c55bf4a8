import Mathlib.Tactic.SplitIfs
import TypedParams.Value.Access

/-! Entries by name. Main statement: of entries put one after the other among others, the last of a
name is found under it, and where there is none, what was there before. -/
namespace TypedParams.Value

theorem sameKey_text_left {t : Text} {v : Value} :
    sameKey (.text t) v = true ↔ ∃ t', v = .text t' ∧ t.content = t'.content := by
  cases v with
  | text t' => simp [sameKey, Text.beq_iff]
  | _ => simp [sameKey, numberKey?]

theorem sameKey_text_right {t : Text} {v : Value} :
    sameKey v (.text t) = true ↔ ∃ t', v = .text t' ∧ t'.content = t.content := by
  cases v with
  | text t' => simp [sameKey, Text.beq_iff]
  | document d =>
    have hdiffer : sameKey (.document d) (.text t) = false := by
      obtain ⟨name, type, payload⟩ := d
      cases payload <;> rfl
    simp [hdiffer]
  | _ => simp [sameKey, numberKey?]

/-- Whether a key is the text `name`. -/
def isNamed (k : Value) (name : String) : Bool := k.text?.any (·.content = name)

theorem isNamed_iff {k : Value} {name : String} :
    k.isNamed name = true ↔ ∃ t, k = .text t ∧ t.content = name := by
  cases k with
  | text t => simp [isNamed, text?]
  | _ => simp [isNamed, text?]

theorem isNamed_str {k name : String} : (str k).isNamed name = true ↔ k = name := by
  change decide (k = name) = true ↔ k = name
  exact decide_eq_true_iff

theorem isNamed_of_sameKey {k l : Value} {name : String} (h : sameKey k l = true) :
    k.isNamed name = true ↔ l.isNamed name = true := by
  rw [isNamed_iff, isNamed_iff]
  constructor
  · intro hx
    obtain ⟨t, rfl, rfl⟩ := hx
    obtain ⟨t', rfl, ht⟩ := sameKey_text_left.1 h
    exact ⟨t', rfl, ht.symm⟩
  · intro hx
    obtain ⟨t, rfl, rfl⟩ := hx
    obtain ⟨t', rfl, ht⟩ := sameKey_text_right.1 h
    exact ⟨t', rfl, ht⟩

theorem sameKey_of_isNamed {k l : Value} {name : String} (hk : k.isNamed name = true)
    (hl : l.isNamed name = true) : sameKey k l = true := by
  obtain ⟨t, rfl, ht⟩ := isNamed_iff.1 hk
  obtain ⟨t', rfl, ht'⟩ := isNamed_iff.1 hl
  exact sameKey_text_left.2 ⟨t', rfl, ht.trans ht'.symm⟩

theorem field?_cons (e : Value × α) (es : List (Value × α)) (name : String) :
    field? (e :: es) name = if e.1.isNamed name then some e.2 else field? es name := by
  unfold field?
  rw [List.find?_cons]
  cases h : e.1.isNamed name with
  | true =>
    have hany : e.1.text?.any (·.content = name) = true := h
    rw [hany]
    rfl
  | false =>
    have hany : e.1.text?.any (·.content = name) = false := h
    rw [hany]
    rfl

@[simp] theorem field?_nil (name : String) : field? ([] : List (Value × α)) name = none := rfl

@[simp] theorem field?_cons_str (k name : String) (a : α) (es : List (Value × α)) :
    field? ((str k, a) :: es) name = if k = name then some a else field? es name := by
  rw [field?_cons]
  simp only [isNamed_str]

theorem field?_append (es fs : List (Value × α)) (name : String) :
    field? (es ++ fs) name = (field? es name).or (field? fs name) := by
  induction es with
  | nil => rfl
  | cons e es ih =>
    rw [List.cons_append, field?_cons, field?_cons, ih]
    split_ifs <;> rfl

theorem field?_upsertEntry (k v : Value) (es : List (Value × Value)) (name : String) :
    field? (upsertEntry k v es) name = if k.isNamed name then some v else field? es name := by
  induction es with
  | nil => rw [upsertEntry, field?_cons]
  | cons e es ih =>
    rw [upsertEntry]
    by_cases hsame : sameKey e.1 k = true
    · rw [if_pos hsame, field?_cons, field?_cons]
      by_cases hk : k.isNamed name = true
      · have he := (isNamed_of_sameKey hsame).2 hk
        rw [if_pos he, if_pos hk]
      · have he : ¬e.1.isNamed name = true := fun he => hk ((isNamed_of_sameKey hsame).1 he)
        rw [if_neg he, if_neg hk, if_neg he]
    · rw [if_neg hsame, field?_cons, field?_cons, ih]
      split_ifs with he hk
      · exact absurd (sameKey_of_isNamed he hk) hsame
      · rfl
      · rfl
      · rfl

/-- Of the entries put one after the other the last of a name wins over those before it, and over
what was there. -/
theorem field?_putAll (new es : List (Value × Value)) (name : String) :
    field? (putAll new es) name = (field? new.reverse name).or (field? es name) := by
  induction new generalizing es with
  | nil => rfl
  | cons e new ih =>
    change field? (putAll new (upsertEntry e.1 e.2 es)) name = _
    rw [ih, field?_upsertEntry, List.reverse_cons, field?_append, field?_cons, Option.or_assoc]
    split_ifs <;> rfl

theorem isSome_field?_reverse (es : List (Value × α)) (name : String) :
    (field? es.reverse name).isSome = (field? es name).isSome := by
  rw [Bool.eq_iff_iff]
  simp [field?]

/-- What counts as not given has no entries to put over others. -/
theorem entries?_of_not_truthy {v : Value} (h : v.isTruthy = false) :
    v.entries?.getD [] = [] := by
  cases v with
  | mapping es => simpa [isTruthy, entries?] using h
  | parameters p =>
    have hsize : p.size = 0 := by simpa [isTruthy] using h
    have hnone : p.entries = [] := List.length_eq_zero_iff.1 hsize
    rw [entries?, parameterEntries, hnone]
    rfl
  | _ => rfl

end TypedParams.Value
