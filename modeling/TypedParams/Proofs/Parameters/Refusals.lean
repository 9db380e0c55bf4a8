import TypedParams.Proofs.Parameters.Acceptance
import TypedParams.Proofs.Wire.Acceptance

/-! How documents are refused. Main statement: a list of documents is refused as an invalid
parameter or for an unknown type, unless the decoding stops at an input of which no mapping can be
made. -/
namespace TypedParams

namespace Value

/-- Only what is no mapping fails to make one, for its form or for that of an item. -/
theorem kind_of_toEntries {v : Value} {e : Error} (h : v.toEntries = .error e) :
    v.entries? = none ∧ (e.kind = .wrongType ∨ e.kind = .wrongValue) := by
  unfold toEntries at h
  split at h
  · cases h
  next hentries _ =>
    refine ⟨hentries, ?_⟩
    rcases bind_eq_error_iff.1 h with hpairs | ⟨pairs, -, hok⟩
    · obtain ⟨x, -, hx⟩ := exists_of_mapM_eq_error hpairs
      unfold toPair at hx
      split at hx
      · cases hx
        exact .inl rfl
      · split_ifs at hx
        cases hx
        exact .inl rfl
      · cases hx
        exact .inr rfl
    · cases hok
  next hentries _ =>
    cases h
    exact ⟨hentries, .inl rfl⟩

end Value

namespace Parameters

/-! ### One document -/

theorem readDocument_eq_bind {v : Value} (h : ∀ d, v ≠ .document d) :
    readDocument v = v.toEntries.bind fun es =>
      (Document.read (.mapping es)).mapError (Error.withIssues .malformedDocument) := by
  cases v with
  | document d => exact absurd rfl (h d)
  | _ => rfl

theorem exists_toEntries_document (d : Document Value) :
    ∃ es, (Value.document d).toEntries = .ok es := ⟨_, rfl⟩

theorem toEntries_ne_error {v : Value} (h : IsDocumentLike v) (e : Error) :
    v.toEntries ≠ .error e := by
  intro he
  rcases h with hentries | ⟨d, rfl⟩
  · rw [(Value.kind_of_toEntries he).1] at hentries
    cases hentries
  · obtain ⟨es, hes⟩ := exists_toEntries_document d
    rw [hes] at he
    cases he

theorem readDocument_of_toEntries {v : Value} {e : Error} (h : v.toEntries = .error e) :
    readDocument v = .error e := by
  have hread : ∀ d, v ≠ .document d := by
    rintro d rfl
    exact toEntries_ne_error (.inr ⟨d, rfl⟩) e h
  rw [readDocument_eq_bind hread, h]
  rfl

/-- A mapping, or what makes one, with an integer in it that is too long to be quoted. -/
def IsUnquotable (v : Value) : Prop :=
  ∃ es, v.toEntries = .ok es ∧ (Value.mapping es).isQuotable = false

theorem error_of_read {es : List (Value × Value)} {e : Error}
    (h : (Document.read (.mapping es)).mapError (Error.withIssues .malformedDocument) = .error e) :
    e.kind = .invalidParameter ∨ e = .unwritableNumber ∧ (Value.mapping es).isQuotable = false := by
  cases hdoc : Document.read (.mapping es) with
  | ok d =>
    rw [hdoc] at h
    cases h
  | error is =>
    rw [hdoc] at h
    cases h
    rcases Error.withIssues_cases .malformedDocument is with ⟨-, he⟩ | ⟨⟨i, hi, hnot⟩, he⟩
    · rw [he]
      exact .inl rfl
    · refine .inr ⟨he, ?_⟩
      by_contra hquotable
      rw [Bool.not_eq_false] at hquotable
      rw [Document.quotes_read_mapping hquotable is hdoc i hi] at hnot
      cases hnot

theorem error_of_readDocument {v : Value} {e : Error} (h : readDocument v = .error e) :
    e.kind = .invalidParameter ∨ v.toEntries = .error e ∨
      e = .unwritableNumber ∧ IsUnquotable v := by
  by_cases hv : ∃ d, v = .document d
  · obtain ⟨d, rfl⟩ := hv
    cases h
  · rw [readDocument_eq_bind (not_exists.1 hv)] at h
    rcases bind_eq_error_iff.1 h with hentries | ⟨es, hes, hread⟩
    · exact .inr (.inl hentries)
    · rcases error_of_read hread with hkind | ⟨he, hquotable⟩
      · exact .inl hkind
      · exact .inr (.inr ⟨he, es, hes, hquotable⟩)

/-! ### Lists of documents -/

/-- Families in which documents are to be refused. -/
def IsForeseen (k : ErrorKind) : Prop := k = .invalidParameter ∨ k = .unknownType

theorem isForeseen_of_decode {payload : Value} {d : Descriptor} {e : Error}
    (h : (TypedValue.decode payload d).result = .error e) : IsForeseen e.kind := by
  rcases TypedValue.kind_of_decode h with hunknown | hinvalid
  · exact .inr hunknown.1
  · exact .inl hinvalid.1

theorem result_decodeDocuments_append (seen : List (String × TypedValue)) (pre vs : List Value) :
    (decodeDocuments seen (pre ++ vs)).result =
      (decodeDocuments seen pre).result.bind fun out => (decodeDocuments out vs).result := by
  induction pre generalizing seen with
  | nil => rfl
  | cons v pre ih =>
    rw [List.cons_append, result_decodeDocuments_cons, result_decodeDocuments_cons]
    cases readDocument v with
    | error e => rfl
    | ok d =>
      by_cases hname : d.name ∈ seen.map (·.1)
      · simp only [Except.bind, if_pos hname]
      · simp only [Except.bind, if_neg hname]
        cases (TypedValue.decode (.ofPayload d.payload) d.type).result with
        | error e => rfl
        | ok tv => exact ih _

/-- The documents before an input decode onto those seen, and of the input no mapping can be made.
-/
def StopsAfter (seen : List (String × TypedValue)) (vs : List Value) (e : Error) : Prop :=
  ∃ pre v post out, vs = pre ++ v :: post ∧ (decodeDocuments seen pre).result = .ok out ∧
    v.toEntries = .error e

theorem decodeDocuments_of_stopsAfter {seen : List (String × TypedValue)} {vs : List Value}
    {e : Error} (h : StopsAfter seen vs e) : (decodeDocuments seen vs).result = .error e := by
  obtain ⟨pre, v, post, out, rfl, hpre, hv⟩ := h
  rw [result_decodeDocuments_append, hpre]
  change (decodeDocuments out (v :: post)).result = _
  rw [result_decodeDocuments_cons, readDocument_of_toEntries hv]
  rfl

theorem kind_of_stopsAfter {seen : List (String × TypedValue)} {vs : List Value} {e : Error}
    (h : StopsAfter seen vs e) : e.kind = .wrongType ∨ e.kind = .wrongValue := by
  obtain ⟨-, v, -, -, -, -, hv⟩ := h
  exact (Value.kind_of_toEntries hv).2

theorem refusals_of_decodeDocuments {seen : List (String × TypedValue)} {vs : List Value}
    {e : Error} (h : (decodeDocuments seen vs).result = .error e) :
    IsForeseen e.kind ∨ StopsAfter seen vs e ∨
      e = .unwritableNumber ∧ ∃ v ∈ vs, IsUnquotable v := by
  induction vs generalizing seen with
  | nil => cases h
  | cons v vs ih =>
    rw [result_decodeDocuments_cons] at h
    rcases bind_eq_error_iff.1 h with hread | ⟨d, hd, hrest⟩
    · rcases error_of_readDocument hread with hkind | hentries | ⟨he, hlong⟩
      · exact .inl (.inl hkind)
      · exact .inr (.inl ⟨[], v, vs, seen, rfl, rfl, hentries⟩)
      · exact .inr (.inr ⟨he, v, List.mem_cons_self, hlong⟩)
    · split_ifs at hrest with hname
      · cases hrest
        exact .inl (.inl rfl)
      · rcases bind_eq_error_iff.1 hrest with hdecode | ⟨tv, htv, hvs⟩
        · exact .inl (isForeseen_of_decode hdecode)
        · rcases ih hvs with hkind | ⟨pre, w, post, out, rfl, hpre, hw⟩ | ⟨he, w, hw, hlong⟩
          · exact .inl hkind
          · refine .inr (.inl ⟨v :: pre, w, post, out, rfl, ?_, hw⟩)
            rw [result_decodeDocuments_cons, hd]
            change (if _ then _ else _) = _
            rw [if_neg hname, htv]
            exact hpre
          · exact .inr (.inr ⟨he, w, List.mem_cons_of_mem _ hw, hlong⟩)

theorem isForeseen_of_ofEntries {r : Registry} {decoded : List (String × TypedValue)} {e : Error}
    (h : ofEntries r (decoded.map fun e => (.str e.1, .typed e.2)) = .error e) :
    IsForeseen e.kind := by
  rw [ofEntries, map_str_typed] at h
  obtain ⟨-, -, -, rfl⟩ := addAll_typedEntry_eq_error h
  exact .inl rfl

/-- A list of whatever values is refused as an invalid parameter or for an unknown type, except
where the decoding comes to an input of which no mapping can be made: this is refused as that
conversion is, for a wrong type or a wrong value, and it never happens for mappings and documents.
Only an integer too long to be quoted, somewhere in the documents, can keep a refusal from being
worded. -/
theorem ofWire_refuses_unless_stopped (r : Registry) (vs : List Value) (cls : Option Guise) :
    (∀ e, ofWire r (.list vs cls) = .error e →
      IsForeseen e.kind ∧ ¬StopsAfter [] vs e ∨
        (e.kind = .wrongType ∨ e.kind = .wrongValue) ∧ StopsAfter [] vs e ∨
        e = .unwritableNumber ∧ ∃ v ∈ vs, IsUnquotable v) ∧
    (∀ e, StopsAfter [] vs e → ofWire r (.list vs cls) = .error e) ∧
    ((∀ v ∈ vs, IsDocumentLike v) → ∀ e, ¬StopsAfter [] vs e) := by
  have hitems : (Value.list vs cls).items? = some vs := rfl
  rw [ofWire_of_items r hitems]
  refine ⟨?_, ?_, ?_⟩
  · intro e h
    have hcases : IsForeseen e.kind ∨ StopsAfter [] vs e ∨
        e = .unwritableNumber ∧ ∃ v ∈ vs, IsUnquotable v := by
      rcases bind_eq_error_iff.1 h with hdecode | ⟨decoded, -, hentries⟩
      · exact refusals_of_decodeDocuments hdecode
      · exact .inl (isForeseen_of_ofEntries hentries)
    by_cases hstop : StopsAfter [] vs e
    · exact .inr (.inl ⟨kind_of_stopsAfter hstop, hstop⟩)
    · rcases hcases with hkind | hstops | hlong
      · exact .inl ⟨hkind, hstop⟩
      · exact absurd hstops hstop
      · exact .inr (.inr hlong)
  · intro e h
    rw [decodeDocuments_of_stopsAfter h]
    rfl
  · intro h e hstop
    obtain ⟨pre, v, post, -, rfl, -, hv⟩ := hstop
    exact toEntries_ne_error (h v (by simp)) e hv

/-- A null among the documents is refused outside of the library's own families. -/
theorem ofWire_lets_null_escape :
    ofWire .builtIn (.list [.null] none) = .error .notIterable ∧
      Error.notIterable.kind.isOwn = false := ⟨rfl, rfl⟩

end Parameters
end TypedParams
