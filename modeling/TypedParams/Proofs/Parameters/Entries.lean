import Mathlib.Data.List.Nodup
import TypedParams.Parameters.Build
import TypedParams.Proofs.Success
import TypedParams.Proofs.Value.Entries

/-! Typed values put under names one after the other. Main statement: a name keeps its first place,
so the names that result are the distinct ones in order. -/
namespace TypedParams

theorem eraseDups_eq_self {α : Type} [BEq α] [LawfulBEq α] {xs : List α} (h : xs.Nodup) :
    xs.eraseDups = xs := by
  induction xs with
  | nil => rfl
  | cons x xs ih =>
    obtain ⟨hx, hxs⟩ := List.nodup_cons.1 h
    have hfilter : xs.filter (fun y => !y == x) = xs := by
      rw [List.filter_eq_self]
      intro y hy
      simpa using ne_of_mem_of_not_mem hy hx
    rw [List.eraseDups_cons, hfilter, ih hxs]

namespace Parameters

theorem eq_of_entries_eq {p q : Parameters} (h : p.entries = q.entries) : p = q := by
  cases p
  cases q
  congr

def keys (es : List (Text × TypedValue)) : List String := es.map (·.1.content)

/-- Put typed values under names, one after the other. -/
def upsertAll (new es : List (Text × TypedValue)) : List (Text × TypedValue) :=
  new.foldl (fun es e => upsert e.1 e.2 es) es

def typedEntry (e : Text × TypedValue) : Value × Value := (.text e.1, .typed e.2)

theorem keys_upsert (name : Text) (v : TypedValue) (es : List (Text × TypedValue)) :
    keys (upsert name v es) =
      if name.content ∈ keys es then keys es else keys es ++ [name.content] :=
  content_upsert name v es

theorem nodup_upsert {name : Text} {es : List (Text × TypedValue)} (v : TypedValue)
    (h : (keys es).Nodup) : (keys (upsert name v es)).Nodup := by
  rw [keys_upsert]
  split_ifs with hmem
  · exact h
  · rw [← List.concat_eq_append]
    exact h.concat hmem

theorem nodup_upsertAll {new es : List (Text × TypedValue)} (h : (keys es).Nodup) :
    (keys (upsertAll new es)).Nodup := by
  induction new generalizing es with
  | nil => exact h
  | cons e new ih => exact ih (nodup_upsert e.2 h)

theorem upsert_of_not_mem {name : Text} {es : List (Text × TypedValue)} (v : TypedValue)
    (h : name.content ∉ keys es) : upsert name v es = es ++ [(name, v)] := by
  induction es with
  | nil => rfl
  | cons e es ih =>
    rw [keys, List.map_cons, List.mem_cons, not_or] at h
    rw [upsert, if_neg (Ne.symm h.1), ih h.2, List.cons_append]

theorem upsertAll_of_nodup {new es : List (Text × TypedValue)} (h : (keys (es ++ new)).Nodup) :
    upsertAll new es = es ++ new := by
  induction new generalizing es with
  | nil => rw [List.append_nil]; rfl
  | cons e new ih =>
    have hmem : e.1.content ∉ keys es := by
      rw [keys, List.map_append] at h
      intro he
      exact (List.nodup_append.1 h).2.2 _ he _ List.mem_cons_self rfl
    change upsertAll new (upsert e.1 e.2 es) = _
    rw [upsert_of_not_mem e.2 hmem, ih (by simpa using h), List.append_assoc, List.singleton_append]

/-- A name that is there already is passed over. -/
theorem keys_upsertAll {new es : List (Text × TypedValue)} (h : (keys es).Nodup) :
    keys (upsertAll new es) = (keys es ++ keys new).eraseDups := by
  induction new generalizing es with
  | nil =>
    rw [show keys [] = [] from rfl, List.append_nil, eraseDups_eq_self h]
    rfl
  | cons e new ih =>
    change keys (upsertAll new (upsert e.1 e.2 es)) =
      (keys es ++ e.1.content :: keys new).eraseDups
    rw [ih (nodup_upsert e.2 h), keys_upsert]
    split_ifs with hmem
    · -- the name stands among the old ones, so removing these from the new ones removes it too
      have hremove : (e.1.content :: keys new).removeAll (keys es) =
          (keys new).removeAll (keys es) := by simp [List.removeAll, hmem]
      rw [List.eraseDups_append, ← hremove, ← List.eraseDups_append]
    · rw [List.append_assoc, List.singleton_append]

theorem mem_names_upsert {name : Text} {v : TypedValue} {es : List (Text × TypedValue)}
    {e : Text × TypedValue} (h : e ∈ upsert name v es) : e.1 = name ∨ e.1 ∈ es.map (·.1) := by
  induction es with
  | nil =>
    rw [upsert, List.mem_singleton] at h
    exact .inl (by rw [h])
  | cons d es ih =>
    rw [upsert] at h
    split_ifs at h
    · rcases List.mem_cons.1 h with rfl | h
      · exact .inr List.mem_cons_self
      · exact .inr (List.mem_map_of_mem (List.mem_cons_of_mem _ h))
    · rcases List.mem_cons.1 h with rfl | h
      · exact .inr List.mem_cons_self
      · exact (ih h).imp_right (List.mem_cons_of_mem _)

/-- Names that result are spelled as one of the given ones. -/
theorem mem_names_upsertAll {new es : List (Text × TypedValue)} {e : Text × TypedValue}
    (h : e ∈ upsertAll new es) : e.1 ∈ new.map (·.1) ∨ e.1 ∈ es.map (·.1) := by
  induction new generalizing es with
  | nil => exact .inr (List.mem_map_of_mem h)
  | cons d new ih =>
    rcases ih h with hnew | hes
    · exact .inl (List.mem_cons_of_mem _ hnew)
    · obtain ⟨e', he', hname⟩ := List.mem_map.1 hes
      rw [← hname, List.map_cons, List.mem_cons]
      rcases mem_names_upsert he' with hd | hold
      · exact .inl (.inl hd)
      · exact .inr hold

theorem nodup_upsertAll_nil (new : List (Text × TypedValue)) : (keys (upsertAll new [])).Nodup :=
  nodup_upsertAll List.nodup_nil

theorem keys_upsertAll_nil (new : List (Text × TypedValue)) :
    keys (upsertAll new []) = (keys new).eraseDups := by
  have hnil : (keys []).Nodup := List.nodup_nil
  rw [keys_upsertAll hnil]
  rfl

/-! ### Mappings and parameter sets -/

theorem upsertEntry_typedEntry (name : Text) (v : TypedValue) (es : List (Text × TypedValue)) :
    Value.upsertEntry (.text name) (.typed v) (es.map typedEntry) =
      (upsert name v es).map typedEntry := by
  induction es with
  | nil => rfl
  | cons e es ih =>
    have hkey : Value.sameKey (.text e.1) (.text name) = true ↔ e.1.content = name.content := by
      rw [Value.sameKey, Text.beq_iff]
    rw [List.map_cons, typedEntry, Value.upsertEntry, upsert]
    by_cases h : e.1.content = name.content
    · rw [if_pos (hkey.2 h), if_pos h]
      rfl
    · rw [if_neg (fun hc => h (hkey.1 hc)), if_neg h, ih]
      rfl

theorem putAll_typedEntry (new es : List (Text × TypedValue)) :
    Value.putAll (new.map typedEntry) (es.map typedEntry) = (upsertAll new es).map typedEntry := by
  induction new generalizing es with
  | nil => rfl
  | cons e new ih => exact (congrArg _ (upsertEntry_typedEntry e.1 e.2 es)).trans (ih _)

theorem putAll_typedEntry_nil (new : List (Text × TypedValue)) :
    Value.putAll (new.map typedEntry) [] = (upsertAll new []).map typedEntry :=
  putAll_typedEntry new []

theorem addAll_typedEntry_eq_ok_iff {r : Registry} {p q : Parameters}
    {new : List (Text × TypedValue)} :
    addAll r p (new.map typedEntry) = .ok q ↔
      (∀ e ∈ new, Text.isIdentifier e.1.content = true) ∧ q.entries = upsertAll new p.entries := by
  induction new generalizing p with
  | nil =>
    rw [List.map_nil, addAll, Except.ok.injEq]
    constructor
    · intro h
      exact ⟨by simp, by rw [h]; rfl⟩
    · intro h
      exact (eq_of_entries_eq h.2).symm
  | cons e new ih =>
    have hadd : addAll r p ((e :: new).map typedEntry) =
        (p.add (.text e.1) e.2).bind fun p' => addAll r p' (new.map typedEntry) := rfl
    rw [hadd, List.forall_mem_cons]
    by_cases hid : Text.isIdentifier e.1.content = true
    · have hp : p.add (.text e.1) e.2 = .ok (p.insert e.1 e.2 hid) := dif_pos hid
      rw [hp]
      change addAll r (p.insert e.1 e.2 hid) _ = _ ↔ _
      rw [ih]
      simp only [hid, true_and]
      rfl
    · have hp : p.add (.text e.1) e.2 = .error (.badName (Value.text e.1).quoted) := dif_neg hid
      rw [hp]
      constructor
      · intro h
        cases h
      · intro h
        exact absurd h.1.1 hid

/-- Typed values are refused for a name only, one that is no identifier. -/
theorem addAll_typedEntry_eq_error {r : Registry} {p : Parameters} {new : List (Text × TypedValue)}
    {err : Error} (h : addAll r p (new.map typedEntry) = .error err) :
    ∃ e ∈ new, Text.isIdentifier e.1.content = false ∧ err = .badName (Value.text e.1).quoted := by
  induction new generalizing p with
  | nil => cases h
  | cons e new ih =>
    have hadd : (p.add (.text e.1) e.2).bind (fun p' => addAll r p' (new.map typedEntry)) =
        .error err := h
    rcases bind_eq_error_iff.1 hadd with hname | ⟨p', -, hrest⟩
    · have hid : ¬Text.isIdentifier e.1.content = true := by
        intro hid
        have hp : p.add (.text e.1) e.2 = .ok (p.insert e.1 e.2 hid) := dif_pos hid
        rw [hp] at hname
        cases hname
      have hp : p.add (.text e.1) e.2 = .error (.badName (Value.text e.1).quoted) := dif_neg hid
      rw [hp, Except.error.injEq] at hname
      exact ⟨e, List.mem_cons_self, by simpa using hid, hname.symm⟩
    · obtain ⟨e', he', hbad⟩ := ih hrest
      exact ⟨e', List.mem_cons_of_mem _ he', hbad⟩

/-- An empty mapping counts as not given, and makes the same as its entries. -/
theorem ofValue_of_entries? {r : Registry} {given : Value} {es : List (Value × Value)}
    (h : given.entries? = some es) : ofValue r given = ofEntries r es := by
  unfold ofValue
  cases htruthy : given.isTruthy with
  | false =>
    have hnone := Value.entries?_of_not_truthy htruthy
    rw [h, Option.getD_some] at hnone
    rw [hnone]
    rfl
  | true =>
    rw [h]
    rfl

theorem ofValue_mapping (r : Registry) (es : List (Value × Value)) :
    ofValue r (.mapping es) = ofEntries r es := ofValue_of_entries? rfl

/-- The names of a parameter set made from a mapping of typed values. -/
theorem keys_of_ofEntries_putAll {r : Registry} {new : List (Text × TypedValue)} {p : Parameters}
    (h : ofEntries r (Value.putAll (new.map typedEntry) []) = .ok p) :
    keys p.entries = (keys new).eraseDups := by
  rw [ofEntries, putAll_typedEntry_nil, addAll_typedEntry_eq_ok_iff] at h
  -- the mapping has distinct keys already, so adding its entries changes nothing more
  have hentries : p.entries = upsertAll new [] :=
    h.2.trans (upsertAll_of_nodup (nodup_upsertAll_nil new))
  rw [hentries, keys_upsertAll_nil]

end Parameters
end TypedParams
