import Mathlib.Data.List.Perm.Basic
import TypedParams.Proofs.Parameters.Decoding

/-! Which lists of documents are accepted, in whatever order they come, and their way back: what is
accepted is encoded to the very documents again. -/
namespace TypedParams.Parameters

/-- Inputs that are documents already, or mappings to be read as such. -/
def IsDocumentLike (v : Value) : Prop := v.entries?.isSome ∨ ∃ d, v = .document d

theorem readDocument_eq_ok_iff {v : Value} (h : IsDocumentLike v) {d : Document Value} :
    readDocument v = .ok d ↔ Document.read v = .ok d := by
  rcases h with h | h
  · obtain ⟨es, hes⟩ := Option.isSome_iff_exists.1 h
    have hread : readDocument v =
        (Document.read (.mapping es)).mapError (Error.withIssues .malformedDocument) := by
      cases v <;> cases hes <;> rfl
    rw [hread, mapError_eq_ok_iff, Document.read_mapping_eq_ok_iff,
      Document.read_eq_ok_iff_of_entries? hes]
  · obtain ⟨d', rfl⟩ := h
    rw [readDocument, Document.read, Except.ok.injEq, Except.ok.injEq]

theorem forall₂_readDocument_iff {ds : List (Document Value)} {vs : List Value}
    (h : ∀ v ∈ vs, IsDocumentLike v) :
    List.Forall₂ (fun d v => readDocument v = .ok d) ds vs ↔
      List.Forall₂ (fun d v => Document.read v = .ok d) ds vs := by
  induction vs generalizing ds with
  | nil => rw [List.forall₂_nil_right_iff, List.forall₂_nil_right_iff]
  | cons v vs ih =>
    obtain ⟨hv, hvs⟩ := List.forall_mem_cons.1 h
    simp only [List.forall₂_cons_right_iff, readDocument_eq_ok_iff hv, ih hvs]

/-- What is asked of the documents of a parameter set, none of it of their order. -/
structure Acceptable (ds : List (Document Value)) : Prop where
  pairs : ∀ d ∈ ds, ∃ tv, TypedValue.ofWire (.ofPayload d.payload) (.descriptor d.type) = .ok tv
  identifiers : ∀ d ∈ ds, Text.isIdentifier d.name = true
  distinct : (ds.map (·.name)).Nodup

theorem Acceptable.perm {ds ds' : List (Document Value)} (h : Acceptable ds) (hp : ds.Perm ds') :
    Acceptable ds' where
  pairs d hd := h.pairs d (hp.mem_iff.2 hd)
  identifiers d hd := h.identifiers d (hp.mem_iff.2 hd)
  distinct := (hp.map _).nodup_iff.1 h.distinct

/-- Documents whose pairs are all accepted carry a value each. -/
theorem exists_values {ds : List (Document Value)}
    (h : ∀ d ∈ ds, ∃ tv, TypedValue.ofWire (.ofPayload d.payload) (.descriptor d.type) = .ok tv) :
    ∃ new : List (Document Value × TypedValue), new.map (·.1) = ds ∧
      ∀ e ∈ new, e.2.WrittenAs (.ofPayload e.1.payload) e.1.type := by
  induction ds with
  | nil => exact ⟨[], rfl, by simp⟩
  | cons d ds ih =>
    obtain ⟨⟨tv, htv⟩, hds⟩ := List.forall_mem_cons.1 h
    rw [TypedValue.ofWire_descriptor, TypedValue.result_decode_eq_ok_iff] at htv
    obtain ⟨new, hnew, hwritten⟩ := ih hds
    exact ⟨(d, tv) :: new, by rw [List.map_cons, hnew], List.forall_mem_cons.2 ⟨htv, hwritten⟩⟩

theorem ofWire_toWire {r : Registry} {documents : Value} {vs : List Value}
    (h : documents.items? = some vs) {p : Parameters} (hp : ofWire r documents = .ok p) :
    ∃ ds, List.Forall₂ (fun d v => readDocument v = .ok d) ds vs ∧ Acceptable ds ∧
      p.toWire = .ok ds := by
  obtain ⟨new, hnew, hnodup, hid, hentries⟩ := (ofWire_eq_ok_iff h).1 hp
  obtain ⟨hwritten, hread⟩ := (List.forall₂_and_left _ _).1 hnew
  refine ⟨new.map (·.1), List.forall₂_map_left_iff.2 hread, ⟨?_, ?_, ?_⟩, ?_⟩
  · rw [List.forall_mem_map]
    intro e he
    rw [TypedValue.ofWire_descriptor]
    exact ⟨e.2, TypedValue.result_decode_eq_ok_iff.2 (hwritten e he)⟩
  · rw [List.forall_mem_map]
    exact hid
  · rw [List.map_map]
    exact hnodup
  · rw [toWire_eq_ok_iff, IsEncodable, hentries, List.map_map, List.forall_mem_map]
    refine ⟨fun e he => (hwritten e he).isEncodable, List.map_congr_left fun e he => ?_⟩
    exact (Document.ofTyped_of_writtenAs (hwritten e he)).symm

theorem exists_ofWire_iff (r : Registry) {documents : Value} {vs : List Value}
    (h : documents.items? = some vs) :
    (∃ p, ofWire r documents = .ok p) ↔
      ∃ ds, List.Forall₂ (fun d v => readDocument v = .ok d) ds vs ∧ Acceptable ds := by
  constructor
  · intro hp
    obtain ⟨p, hp⟩ := hp
    obtain ⟨ds, hds, hok, -⟩ := ofWire_toWire h hp
    exact ⟨ds, hds, hok⟩
  · intro hds
    obtain ⟨ds, hread, hok⟩ := hds
    obtain ⟨new, rfl, hwritten⟩ := exists_values hok.pairs
    have hid : ∀ e ∈ new, Text.isIdentifier e.1.name = true := List.forall_mem_map.1 hok.identifiers
    have hnodup : (new.map (·.1.name)).Nodup := by simpa [Function.comp_def] using hok.distinct
    have hnew : List.Forall₂ ReadFrom new vs :=
      (List.forall₂_and_left _ _).2 ⟨hwritten, List.forall₂_map_left_iff.1 hread⟩
    exact ⟨_, ofWire_eq_ofRead r h hnew hid hnodup⟩

/-- Acceptance looks at the documents one by one and at their names as a whole. -/
theorem exists_ofWire_of_perm {r : Registry} {documents documents' : Value} {vs vs' : List Value}
    (h : documents.items? = some vs) (h' : documents'.items? = some vs') (hp : vs.Perm vs')
    (haccepted : ∃ p, ofWire r documents = .ok p) : ∃ p, ofWire r documents' = .ok p := by
  obtain ⟨ds, hds, hok⟩ := (exists_ofWire_iff r h).1 haccepted
  have hcomp : Relation.Comp (List.Forall₂ fun d v => readDocument v = .ok d) List.Perm ds vs' :=
    ⟨vs, hds, hp⟩
  rw [List.forall₂_comp_perm_eq_perm_comp_forall₂] at hcomp
  obtain ⟨ds', hperm, hds'⟩ := hcomp
  exact (exists_ofWire_iff r h').2 ⟨ds', hds', hok.perm hperm⟩

/-- Documents are accepted exactly when each reads, each pair stands for a value, and the names are
distinct identifiers; so their order does not matter. What is accepted is encoded again to the
documents read, in their order. -/
theorem ofWire_accepts_documents (r : Registry) {documents : Value} {vs : List Value}
    (h : documents.items? = some vs) (hvs : ∀ v ∈ vs, IsDocumentLike v) :
    ((∃ p, ofWire r documents = .ok p) ↔
      ∃ ds, List.Forall₂ (fun d v => Document.read v = .ok d) ds vs ∧ Acceptable ds) ∧
    (∀ documents' vs', documents'.items? = some vs' → vs.Perm vs' →
      ((∃ p, ofWire r documents = .ok p) ↔ ∃ p, ofWire r documents' = .ok p)) ∧
    ∀ p, ofWire r documents = .ok p →
      ∃ ds, List.Forall₂ (fun d v => Document.read v = .ok d) ds vs ∧ p.toWire = .ok ds := by
  refine ⟨?_, ?_, ?_⟩
  · simp only [exists_ofWire_iff r h, forall₂_readDocument_iff hvs]
  · intro documents' vs' h' hp
    exact ⟨exists_ofWire_of_perm h h' hp, exists_ofWire_of_perm h' h hp.symm⟩
  · intro p hp
    obtain ⟨ds, hds, -, hwire⟩ := ofWire_toWire h hp
    exact ⟨ds, (forall₂_readDocument_iff hvs).1 hds, hwire⟩

/-- An empty array in a mapping, its field names spelled in two ways, beside a document. -/
def idsAndCountry : List Value :=
  [.mapping [(.str "name", .str "ids"), (.str "parameter_type", .descriptor ⟨"ARRAY", ["INT64"]⟩),
      (.str "parameterValue", .tuple [] none)],
    .document ⟨"country", ⟨"STRING", []⟩, .text "FR"⟩]

theorem ofWire_accepts_mapping_beside_document :
    (∀ v ∈ idsAndCountry, IsDocumentLike v) ∧
      ∃ p, ofWire .builtIn (.list idsAndCountry none) = .ok p := by
  have hlike : ∀ v ∈ idsAndCountry, IsDocumentLike v := by
    intro v hv
    rcases List.mem_pair.1 hv with rfl | rfl
    · exact .inl rfl
    · exact .inr ⟨_, rfl⟩
  have hds : Acceptable [⟨"ids", ⟨"ARRAY", ["INT64"]⟩, .items []⟩,
      ⟨"country", ⟨"STRING", []⟩, .text "FR"⟩] := by
    refine ⟨?_, by decide, by decide⟩
    intro d hd
    rcases List.mem_pair.1 hd with rfl | rfl
    · exact ⟨.array .int64 [], rfl⟩
    · exact ⟨.scalar .string (.plain "FR"), rfl⟩
  have hitems : (Value.list idsAndCountry none).items? = some idsAndCountry := rfl
  have haccepts := (ofWire_accepts_documents .builtIn hitems hlike).1
  exact ⟨hlike, haccepts.2 ⟨_, .cons rfl (.cons rfl .nil), hds⟩⟩

end TypedParams.Parameters
