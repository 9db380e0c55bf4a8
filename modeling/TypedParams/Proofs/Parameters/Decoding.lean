import TypedParams.Proofs.Parameters.Encoding
import TypedParams.Proofs.Parameters.Entries

/-! Parameter sets from documents. Main statement: reading succeeds when every document reads and
the names are distinct identifiers. -/
namespace TypedParams.Parameters

/-- A document that an input is read as, with the value its pair stands for. -/
def ReadFrom (e : Document Value × TypedValue) (v : Value) : Prop :=
  e.2.WrittenAs (.ofPayload e.1.payload) e.1.type ∧ readDocument v = .ok e.1

theorem result_decodeDocuments_cons (seen : List (String × TypedValue)) (v : Value)
    (vs : List Value) :
    (decodeDocuments seen (v :: vs)).result = (readDocument v).bind fun d =>
      if d.name ∈ seen.map (·.1) then .error (.duplicateName d.name)
      else (TypedValue.decode (.ofPayload d.payload) d.type).result.bind fun tv =>
        (decodeDocuments (seen ++ [(d.name, tv)]) vs).result := by
  simp only [decodeDocuments, Traced.result_bind, Traced.result_liftM]
  congr 1
  funext d
  by_cases h : d.name ∈ seen.map (·.1)
  · have hany : (seen.any fun e => e.1 = d.name) = true := by simpa using h
    rw [if_pos hany, if_pos h, Traced.result_lift]
  · have hany : ¬(seen.any fun e => e.1 = d.name) = true := by simpa using h
    rw [if_neg hany, if_neg h, Traced.result_bind]

/-- Decoding onto values seen before, whose names are distinct, succeeds when every document reads
and no name comes twice, among the old ones included. -/
theorem result_decodeDocuments_eq_ok_iff {seen out : List (String × TypedValue)} {vs : List Value}
    (hseen : (seen.map (·.1)).Nodup) :
    (decodeDocuments seen vs).result = .ok out ↔ ∃ new, List.Forall₂ ReadFrom new vs ∧
      out = seen ++ new.map (fun e => (e.1.name, e.2)) ∧
      (seen.map (·.1) ++ new.map (·.1.name)).Nodup := by
  induction vs generalizing seen with
  | nil =>
    rw [decodeDocuments, Traced.result_pure, Except.ok.injEq]
    constructor
    · intro h
      exact ⟨[], .nil, by simpa using h.symm, by simpa using hseen⟩
    · intro h
      obtain ⟨new, hnew, rfl, -⟩ := h
      rw [List.forall₂_nil_right_iff.1 hnew]
      simp
  | cons v vs ih =>
    rw [result_decodeDocuments_cons, bind_eq_ok_iff]
    have hstep : ∀ (d : Document Value) (tv : TypedValue), d.name ∉ seen.map (·.1) →
        ((seen ++ [(d.name, tv)]).map (·.1)).Nodup := by
      intro d tv hd
      rw [List.map_append, List.map_singleton, ← List.concat_eq_append]
      exact hseen.concat hd
    constructor
    · intro h
      obtain ⟨d, hd, h⟩ := h
      split_ifs at h with hmem
      obtain ⟨tv, htv, h⟩ := bind_eq_ok_iff.1 h
      obtain ⟨new, hnew, rfl, hnodup⟩ := (ih (hstep d tv hmem)).1 h
      refine ⟨(d, tv) :: new, .cons ⟨TypedValue.result_decode_eq_ok_iff.1 htv, hd⟩ hnew, ?_, ?_⟩
      · simp
      · simpa using hnodup
    · intro h
      obtain ⟨new, hnew, rfl, hnodup⟩ := h
      cases hnew with
      | @cons e _ new _ he hnew =>
        obtain ⟨d, tv⟩ := e
        have hmem : d.name ∉ seen.map (·.1) := by
          intro hd
          exact (List.nodup_append.1 hnodup).2.2 _ hd _ List.mem_cons_self rfl
        refine ⟨d, he.2, ?_⟩
        rw [if_neg hmem, TypedValue.result_decode_eq_ok_iff.2 he.1]
        refine (ih (hstep d tv hmem)).2 ⟨new, hnew, ?_, ?_⟩
        · simp
        · simpa using hnodup

theorem map_str_typed (new : List (String × TypedValue)) :
    (new.map fun e => (Value.str e.1, Value.typed e.2)) =
      (new.map fun e => (Text.plain e.1, e.2)).map typedEntry := by
  rw [List.map_map]
  rfl

/-- Typed values under new and distinct names are all added, in order, if each name is an
identifier. -/
theorem addAll_typed_eq_ok_iff {r : Registry} {p q : Parameters}
    {new : List (String × TypedValue)}
    (hnew : (p.entries.map (·.1.content) ++ new.map (·.1)).Nodup) :
    addAll r p (new.map fun e => (.str e.1, .typed e.2)) = .ok q ↔
      (∀ e ∈ new, Text.isIdentifier e.1 = true) ∧
        q.entries = p.entries ++ new.map fun e => (.plain e.1, e.2) := by
  have hkeys : (keys (p.entries ++ new.map fun e => (.plain e.1, e.2))).Nodup := by
    simpa [keys, Function.comp_def] using hnew
  rw [map_str_typed, addAll_typedEntry_eq_ok_iff, upsertAll_of_nodup hkeys, List.forall_mem_map]
  rfl

theorem ofWire_of_items (r : Registry) {documents : Value} {vs : List Value}
    (h : documents.items? = some vs) :
    ofWire r documents = (decodeDocuments [] vs).result.bind fun decoded =>
      ofEntries r (decoded.map fun e => (.str e.1, .typed e.2)) := by
  simp only [ofWire, ofWireTraced, h, Traced.result_bind]
  rfl

/-- The parameters of documents: each reads, and the names are distinct identifiers. -/
theorem ofWire_eq_ok_iff {r : Registry} {documents : Value} {vs : List Value}
    (h : documents.items? = some vs) {p : Parameters} :
    ofWire r documents = .ok p ↔ ∃ new, List.Forall₂ ReadFrom new vs ∧
      (new.map (·.1.name)).Nodup ∧ (∀ e ∈ new, Text.isIdentifier e.1.name = true) ∧
      p.entries = new.map fun e => (.plain e.1.name, e.2) := by
  have hadd : ∀ new : List (Document Value × TypedValue), (new.map (·.1.name)).Nodup →
      (ofEntries r ((new.map fun e => (e.1.name, e.2)).map fun e => (.str e.1, .typed e.2)) =
          .ok p ↔
        (∀ e ∈ new, Text.isIdentifier e.1.name = true) ∧
          p.entries = new.map fun e => (.plain e.1.name, e.2)) := by
    intro new hnew
    rw [ofEntries, addAll_typed_eq_ok_iff (by simpa [empty, Function.comp_def] using hnew),
      List.forall_mem_map, List.map_map]
    rfl
  have hnil : (([] : List (String × TypedValue)).map (·.1)).Nodup := List.nodup_nil
  rw [ofWire_of_items r h, bind_eq_ok_iff]
  constructor
  · intro h
    obtain ⟨decoded, hdecoded, h⟩ := h
    obtain ⟨new, hnew, rfl, hnodup⟩ := (result_decodeDocuments_eq_ok_iff hnil).1 hdecoded
    exact ⟨new, hnew, hnodup, (hadd new hnodup).1 h⟩
  · intro h
    obtain ⟨new, hnew, hnodup, hentries⟩ := h
    exact ⟨_, (result_decodeDocuments_eq_ok_iff hnil).2 ⟨new, hnew, rfl, hnodup⟩,
      (hadd new hnodup).2 hentries⟩

/-- The parameter set of documents read. -/
def ofRead (new : List (Document Value × TypedValue))
    (identifiers : ∀ e ∈ new, Text.isIdentifier e.1.name = true)
    (distinct : (new.map (·.1.name)).Nodup) : Parameters where
  entries := new.map fun e => (.plain e.1.name, e.2)
  identifiers := by
    intro e he
    obtain ⟨e', he', rfl⟩ := List.mem_map.1 he
    exact identifiers e' he'
  distinct := by
    rw [List.map_map]
    exact distinct

theorem ofWire_eq_ofRead (r : Registry) {documents : Value} {vs : List Value}
    (h : documents.items? = some vs) {new : List (Document Value × TypedValue)}
    (hnew : List.Forall₂ ReadFrom new vs)
    (identifiers : ∀ e ∈ new, Text.isIdentifier e.1.name = true)
    (distinct : (new.map (·.1.name)).Nodup) :
    ofWire r documents = .ok (ofRead new identifiers distinct) :=
  (ofWire_eq_ok_iff h).2 ⟨new, hnew, distinct, identifiers, rfl⟩

end TypedParams.Parameters
