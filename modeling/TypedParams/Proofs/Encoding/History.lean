import Mathlib.Data.List.Induction
import Mathlib.Data.List.Nodup
import TypedParams.Encoding.History
import TypedParams.Proofs.Encoding.Acceptance

/-! The table of encoders over whole histories. Main statement: a type goes by the encoder that the
latest operations on it have left, and a copy put back brings back the table it was taken of. -/
namespace TypedParams.Registry

/-! ### Tables -/

/-- The types with an entry, in the order of registration. -/
def types (ds : List (ScalarType × Encoder)) : List ScalarType := ds.map (·.1)

theorem types_put (t : ScalarType) (e : Encoder) (ds : List (ScalarType × Encoder)) :
    types (put t e ds) = if t ∈ types ds then types ds else types ds ++ [t] := by
  induction ds with
  | nil => simp [types, put]
  | cons d ds ih =>
    unfold types at ih ⊢
    by_cases hd : d.1 = t
    · simp [put, hd]
    · have ht : ¬t = d.1 := fun h => hd h.symm
      simp only [put, hd, if_false, List.map_cons, ih, List.mem_cons, ht, false_or]
      split_ifs <;> rfl

theorem nodup_put {t : ScalarType} {ds : List (ScalarType × Encoder)} (e : Encoder)
    (h : (types ds).Nodup) : (types (put t e ds)).Nodup := by
  rw [types_put]
  split_ifs with ht
  · exact h
  · rw [← List.concat_eq_append]
    exact h.concat ht

theorem put_of_not_mem {t : ScalarType} {ds : List (ScalarType × Encoder)} (e : Encoder)
    (h : t ∉ types ds) : put t e ds = ds ++ [(t, e)] := by
  induction ds with
  | nil => rfl
  | cons d ds ih =>
    rw [types, List.map_cons, List.mem_cons, not_or] at h
    rw [put, if_neg (Ne.symm h.1), ih h.2, List.cons_append]

theorem foldl_put_of_nodup {new ds : List (ScalarType × Encoder)} (h : (types (ds ++ new)).Nodup) :
    new.foldl (fun ds d => put d.1 d.2 ds) ds = ds ++ new := by
  induction new generalizing ds with
  | nil => simp
  | cons d new ih =>
    have hd : d.1 ∉ types ds := by
      rw [types, List.map_append] at h
      intro hmem
      exact (List.nodup_append.1 h).2.2 _ hmem _ List.mem_cons_self rfl
    have hnext : (types (ds ++ [d] ++ new)).Nodup := by simpa using h
    rw [List.foldl_cons, put_of_not_mem d.2 hd, ih hnext, List.append_assoc,
      List.singleton_append]

/-- A table has one entry for a type. -/
def Distinct (r : Registry) : Prop := (types r.table).Nodup

theorem Distinct.restore_eq {r : Registry} (h : r.Distinct) : r.restore = r := by
  have hfold : r.table.foldl (fun ds d => put d.1 d.2 ds) [] = [] ++ r.table :=
    foldl_put_of_nodup h
  unfold restore clear
  rw [hfold]
  rfl

theorem distinct_builtIn : builtIn.Distinct := by
  unfold Distinct
  decide

/-- A type that is free or may be overwritten is registered. -/
theorem register_scalar_of_allowed {r : Registry} {t : ScalarType} {overwrite : Bool} (e : Encoder)
    (h : r.find? t = none ∨ overwrite = true) :
    r.register (.scalar t) e overwrite = .ok ⟨put t e r.table⟩ := by
  simp only [register, LogicalType.scalar?]
  rcases h with h | rfl
  · rw [h]
  · cases r.find? t <;> rfl

theorem register_scalar_of_taken {r : Registry} {t : ScalarType} {holder : Encoder} (e : Encoder)
    (h : r.find? t = some holder) :
    r.register (.scalar t) e false = .error (.encoderTaken (.scalar t) holder.name) := by
  simp only [register, LogicalType.scalar?, h]

theorem register_of_isComposite (r : Registry) {t : LogicalType} (e : Encoder) (overwrite : Bool)
    (h : t.isComposite = true) : r.register t e overwrite = .error (.compositeEncoder t) := by
  cases t with
  | scalar t => cases h
  | array => rfl
  | struct => rfl

/-- A registration either enters a scalar type or is refused. -/
theorem register_cases (r : Registry) (t : LogicalType) (e : Encoder) (overwrite : Bool) :
    (∃ u, t = .scalar u ∧ (r.find? u = none ∨ overwrite = true) ∧
      r.register t e overwrite = .ok ⟨put u e r.table⟩) ∨
    (t.isComposite = true ∨ overwrite = false ∧ ∃ u holder, t = .scalar u ∧
      r.find? u = some holder) ∧ ∃ err, r.register t e overwrite = .error err := by
  rcases t.isComposite_or_scalar with hc | ⟨u, rfl⟩
  · exact .inr ⟨.inl hc, _, register_of_isComposite r e overwrite hc⟩
  by_cases hallowed : r.find? u = none ∨ overwrite = true
  · exact .inl ⟨u, rfl, hallowed, register_scalar_of_allowed e hallowed⟩
  · obtain ⟨hfind, hover⟩ := not_or.1 hallowed
    obtain ⟨holder, hholder⟩ := Option.ne_none_iff_exists'.1 hfind
    have hfalse : overwrite = false := by simpa using hover
    subst hfalse
    exact .inr ⟨.inr ⟨rfl, u, holder, rfl, hholder⟩, _, register_scalar_of_taken e hholder⟩

theorem kind_of_register {r : Registry} {t : LogicalType} {e : Encoder} {overwrite : Bool}
    {err : Error} (h : r.register t e overwrite = .error err) : err.kind = .encoderRegistry := by
  unfold register at h
  split at h
  · cases h
    rfl
  · split at h
    · cases h
      rfl
    · cases h

/-- A registration is refused for a composite type, or for an occupied one without permission. -/
theorem register_eq_error_iff {r : Registry} {u : LogicalType} {e : Encoder} {overwrite : Bool} :
    (∃ err, r.register u e overwrite = .error err) ↔
      u.isComposite = true ∨
        overwrite = false ∧ ∃ t holder, u = .scalar t ∧ r.find? t = some holder := by
  rcases r.register_cases u e overwrite with ⟨t, rfl, hallowed, hok⟩ | ⟨hrefused, herr⟩
  · constructor
    · intro h
      obtain ⟨err, herr⟩ := h
      rw [hok] at herr
      cases herr
    · intro h
      rcases h with hc | ⟨rfl, t, holder, ht, hholder⟩
      · cases hc
      · cases ht
        rw [hholder] at hallowed
        simp at hallowed
  · exact iff_of_true herr hrefused

theorem tryGet_of_isComposite (r : Registry) {t : LogicalType} (h : t.isComposite = true) :
    r.tryGet t = none := by
  cases t with
  | scalar t => cases h
  | array => rfl
  | struct => rfl

/-! ### Look-up and encoding -/

/-- Look-up and encoding both go by the encoder of a type, or are both refused for want of one. -/
def GoesBy (r : Registry) (t : ScalarType) : Option Encoder → Prop
  | some e => r.get (.scalar t) = .ok e ∧
      ∀ v type, type.Names (.scalar t) → encodeScalar r v type = e.run v
  | none => r.get (.scalar t) = .error (.noEncoder (.scalar t)) ∧
      ∀ v type, type.Names (.scalar t) → encodeScalar r v type = .error (.noEncoder (.scalar t))

theorem get_scalar_eq_ok_iff {r : Registry} {t : ScalarType} {e : Encoder} :
    r.get (.scalar t) = .ok e ↔ r.find? t = some e := by
  change (match r.find? t with | some e => _ | none => _) = _ ↔ _
  cases r.find? t <;> simp

theorem get_scalar_eq_error_iff {r : Registry} {t : ScalarType} :
    r.get (.scalar t) = .error (.noEncoder (.scalar t)) ↔ r.find? t = none := by
  change (match r.find? t with | some e => _ | none => _) = _ ↔ _
  cases r.find? t <;> simp

theorem encodeScalar_of_names {r : Registry} {type : Value} {t : ScalarType}
    (h : type.Names (.scalar t)) (v : Value) :
    encodeScalar r v type = (r.get (.scalar t)).bind fun e => e.run v := by
  rw [encodeScalar, LogicalType.ofValue_eq_ok_iff.2 h]
  rfl

theorem goesBy_iff {r : Registry} {t : ScalarType} {o : Option Encoder} :
    r.GoesBy t o ↔ r.find? t = o := by
  cases o with
  | some e =>
    constructor
    · intro h
      exact get_scalar_eq_ok_iff.1 h.1
    · intro h
      have hget := get_scalar_eq_ok_iff.2 h
      refine ⟨hget, ?_⟩
      intro v type htype
      rw [encodeScalar_of_names htype, hget]
      rfl
  | none =>
    constructor
    · intro h
      exact get_scalar_eq_error_iff.1 h.1
    · intro h
      have hget := get_scalar_eq_error_iff.2 h
      refine ⟨hget, ?_⟩
      intro v type htype
      rw [encodeScalar_of_names htype, hget]
      rfl

theorem mem_missing_iff {r : Registry} {t : ScalarType} : t ∈ r.missing ↔ r.GoesBy t none := by
  rw [goesBy_iff, missing, List.mem_filter, Option.isNone_iff_eq_none]
  exact and_iff_right t.mem_all

namespace History

/-! ### One operation -/

theorem find?_next_register (h : History) (u : LogicalType) (e : Encoder) (overwrite : Bool)
    (t : ScalarType) :
    (h.next (.register u e overwrite)).now.find? t =
      if u = .scalar t ∧ (h.now.find? t = none ∨ overwrite = true) then some e
      else h.now.find? t := by
  rcases h.now.register_cases u e overwrite with
    ⟨u, rfl, hallowed, hok⟩ | ⟨hrefused, err, herr⟩
  · have hnext : (h.next (.register (.scalar u) e overwrite)).now = ⟨put u e h.now.table⟩ := by
      simp only [next, step, hok]
      rfl
    rw [hnext, find?_put]
    by_cases hut : u = t
    · subst hut
      rw [if_pos rfl, if_pos ⟨rfl, hallowed⟩]
    · have hne : ¬(LogicalType.scalar u = .scalar t ∧
          (h.now.find? t = none ∨ overwrite = true)) := by
        intro hc
        exact hut (LogicalType.scalar.inj hc.1)
      rw [if_neg hut, if_neg hne]
  · have hnext : h.next (.register u e overwrite) = h := by
      simp only [next, step, herr]
      rfl
    have hne : ¬(u = .scalar t ∧ (h.now.find? t = none ∨ overwrite = true)) := by
      rintro ⟨rfl, hallowed⟩
      rcases hrefused with hc | ⟨rfl, u, holder, hu, hholder⟩
      · cases hc
      · cases hu
        rw [hholder] at hallowed
        simp at hallowed
    rw [hnext, if_neg hne]

/-- A table with one entry for a type, and copies of such. -/
def Sound (h : History) : Prop := h.now.Distinct ∧ ∀ r ∈ h.copies, r.Distinct

theorem Sound.next {h : History} (hs : h.Sound) (op : Operation) : (h.next op).Sound := by
  obtain ⟨hnow, hcopies⟩ := hs
  cases op with
  | register t e overwrite =>
    rcases h.now.register_cases t e overwrite with ⟨u, rfl, -, hok⟩ | ⟨-, err, herr⟩
    · simp only [History.next, step, hok]
      exact ⟨nodup_put e hnow, hcopies⟩
    · simp only [History.next, step, herr]
      exact ⟨hnow, hcopies⟩
  | clear => exact ⟨List.nodup_nil, hcopies⟩
  | snapshot =>
    refine ⟨hnow, ?_⟩
    intro r hr
    rcases List.mem_append.1 hr with hr | hr
    · exact hcopies r hr
    · rw [List.mem_singleton.1 hr]
      exact hnow
  | restore copy =>
    cases hcopy : h.copies[copy]? with
    | none =>
      simp only [History.next, step, hcopy]
      exact ⟨hnow, hcopies⟩
    | some r =>
      have hr : r.Distinct := hcopies r (List.mem_of_getElem? hcopy)
      simp only [History.next, step, hcopy, hr.restore_eq]
      exact ⟨hr, hcopies⟩

/-- Copies are only added to, and only by taking one. -/
theorem copies_next (h : History) (op : Operation) :
    (h.next op).copies = h.copies ++ if op.isSnapshot then [h.now] else [] := by
  cases op with
  | register t e overwrite =>
    simp only [next, step, Operation.isSnapshot]
    cases h.now.register t e overwrite <;> simp [Except.map]
  | clear => exact (List.append_nil _).symm
  | snapshot => rfl
  | restore copy =>
    simp only [next, step, Operation.isSnapshot]
    cases h.copies[copy]? <;> simp

/-! ### Histories -/

theorem run_concat (ops : List Operation) (op : Operation) :
    run (ops ++ [op]) = (run ops).next op := by
  rw [run, List.foldl_append]
  rfl

theorem run_append (ops more : List Operation) : run (ops ++ more) = more.foldl next (run ops) := by
  rw [run, List.foldl_append]
  rfl

theorem sound_run (ops : List Operation) : (run ops).Sound := by
  induction ops using List.reverseRecOn with
  | nil => exact ⟨distinct_builtIn, by simp [run, start]⟩
  | append_singleton ops op ih =>
    rw [run_concat]
    exact ih.next op

/-- No operation touches a copy once it is taken. -/
theorem copies_foldl_next (h : History) (ops : List Operation) :
    h.copies <+: (ops.foldl next h).copies := by
  induction ops generalizing h with
  | nil => exact List.prefix_refl _
  | cons op ops ih =>
    have hstep : h.copies <+: (h.next op).copies := by
      rw [copies_next]
      exact List.prefix_append _ _
    exact hstep.trans (ih (h.next op))

/-- How many copies operations take. -/
def taken (ops : List Operation) : Nat := ops.countP Operation.isSnapshot

theorem length_copies_run (ops : List Operation) : (run ops).copies.length = taken ops := by
  induction ops using List.reverseRecOn with
  | nil => rfl
  | append_singleton ops op ih =>
    rw [run_concat, copies_next, List.length_append, ih, taken, taken, List.countP_append,
      List.countP_singleton]
    cases op.isSnapshot <;> rfl

/-- A copy stays the table it was taken of. -/
theorem copies_run_snapshot (ops more : List Operation) :
    (run (ops ++ .snapshot :: more)).copies[taken ops]? = some (run ops).now := by
  have hcopies : ((run ops).next .snapshot).copies = (run ops).copies ++ [(run ops).now] :=
    copies_next _ _
  have hlast : taken ops < ((run ops).next .snapshot).copies.length := by
    rw [hcopies, List.length_append, length_copies_run]
    exact Nat.lt_succ_self _
  obtain ⟨rest, hrest⟩ := copies_foldl_next ((run ops).next .snapshot) more
  rw [run_append, List.foldl_cons, ← hrest, List.getElem?_append_left hlast, hcopies,
    ← length_copies_run, List.getElem?_concat_length]

/-- A copy put back is the table it was taken of, whatever came between. -/
theorem now_run_restore (ops between : List Operation) :
    (run (ops ++ .snapshot :: between ++ [.restore (taken ops)])).now = (run ops).now := by
  have hcopy := copies_run_snapshot ops between
  have hdistinct : (run ops).now.Distinct := (sound_run ops).1
  rw [run_concat, next, step, hcopy]
  exact hdistinct.restore_eq

theorem next_restore_of_taken_le {ops : List Operation} {i : Nat} (h : taken ops ≤ i) :
    (run ops).next (.restore i) = run ops := by
  have hcopy : (run ops).copies[i]? = none := by
    rw [List.getElem?_eq_none_iff, length_copies_run]
    exact h
  rw [next, step, hcopy]

theorem exists_snapshot_of_lt_taken {ops : List Operation} {i : Nat} (h : i < taken ops) :
    ∃ pre between, ops = pre ++ .snapshot :: between ∧ taken pre = i := by
  induction ops generalizing i with
  | nil => cases h
  | cons op ops ih =>
    rw [taken, List.countP_cons] at h
    by_cases hop : op.isSnapshot = true
    · have hsnapshot : op = .snapshot := by
        cases op with
        | snapshot => rfl
        | _ => cases hop
      subst hsnapshot
      cases i with
      | zero => exact ⟨[], ops, rfl, rfl⟩
      | succ i =>
        rw [if_pos hop] at h
        obtain ⟨pre, between, rfl, hpre⟩ := ih (Nat.lt_of_succ_lt_succ h)
        refine ⟨.snapshot :: pre, between, rfl, ?_⟩
        rw [← hpre]
        exact List.countP_cons_of_pos hop
    · obtain ⟨pre, between, rfl, hpre⟩ := ih (by rwa [if_neg hop] at h)
      refine ⟨op :: pre, between, rfl, ?_⟩
      rw [← hpre]
      exact List.countP_cons_of_neg hop

/-- What operations leave for a type: they begin with the built-in encoder. -/
inductive Leaves (t : ScalarType) : List Operation → Option Encoder → Prop
  | start : Leaves t [] (some (Encoder.builtIn t))
  /-- A free type takes any encoder, an occupied one only where that is allowed. -/
  | registered {ops : List Operation} {o : Option Encoder} {e : Encoder} {overwrite : Bool}
      (h : Leaves t ops o) (allowed : o = none ∨ overwrite = true) :
      Leaves t (ops ++ [.register (.scalar t) e overwrite]) (some e)
  | refused {ops : List Operation} {holder e : Encoder} (h : Leaves t ops (some holder)) :
      Leaves t (ops ++ [.register (.scalar t) e false]) (some holder)
  | other {ops : List Operation} {o : Option Encoder} {u : LogicalType} {e : Encoder}
      {overwrite : Bool} (h : Leaves t ops o) (hu : u ≠ .scalar t) :
      Leaves t (ops ++ [.register u e overwrite]) o
  | cleared (ops : List Operation) : Leaves t (ops ++ [.clear]) none
  | snapshot {ops : List Operation} {o : Option Encoder} (h : Leaves t ops o) :
      Leaves t (ops ++ [.snapshot]) o
  /-- What was left when the copy was taken, whatever came between. -/
  | restored {ops : List Operation} {o : Option Encoder} (between : List Operation)
      (h : Leaves t ops o) :
      Leaves t (ops ++ .snapshot :: between ++ [.restore (taken ops)]) o
  | missed {ops : List Operation} {o : Option Encoder} {i : Nat} (h : Leaves t ops o)
      (hi : taken ops ≤ i) : Leaves t (ops ++ [.restore i]) o

theorem Leaves.find?_eq {t : ScalarType} {ops : List Operation} {o : Option Encoder}
    (h : Leaves t ops o) : (run ops).now.find? t = o := by
  induction h with
  | start => exact get_scalar_eq_ok_iff.1 (get_builtIn t)
  | registered h allowed ih =>
    rw [run_concat, find?_next_register, if_pos ⟨rfl, by rwa [ih]⟩]
  | refused h ih =>
    rw [run_concat, find?_next_register, if_neg (by simp [ih]), ih]
  | other h hu ih =>
    rw [run_concat, find?_next_register, if_neg (fun hc => hu hc.1), ih]
  | cleared ops => rw [run_concat]; rfl
  | snapshot h ih => rw [run_concat]; exact ih
  | restored between h ih => rw [now_run_restore, ih]
  | missed h hi ih => rw [run_concat, next_restore_of_taken_le hi, ih]

/-- Every history leaves something for every type. A copy put back calls on the history before it,
so the statement is about all beginnings of a history at once. -/
theorem exists_leaves_of_prefix (t : ScalarType) (ops : List Operation) :
    ∀ pre, pre <+: ops → ∃ o, Leaves t pre o := by
  induction ops using List.reverseRecOn with
  | nil =>
    intro pre hpre
    rw [List.prefix_nil.1 hpre]
    exact ⟨_, .start⟩
  | append_singleton ops op ih =>
    intro pre hpre
    rcases List.prefix_concat_iff.1 hpre with rfl | hpre
    · obtain ⟨o, ho⟩ := ih ops (List.prefix_refl ops)
      cases op with
      | register u e overwrite =>
        by_cases hu : u = .scalar t
        · subst hu
          cases overwrite with
          | true => exact ⟨_, ho.registered (.inr rfl)⟩
          | false =>
            cases o with
            | none => exact ⟨_, ho.registered (.inl rfl)⟩
            | some holder => exact ⟨_, ho.refused⟩
        · exact ⟨_, ho.other hu⟩
      | clear => exact ⟨_, .cleared ops⟩
      | snapshot => exact ⟨_, ho.snapshot⟩
      | restore i =>
        by_cases hi : i < taken ops
        · obtain ⟨before, between, rfl, rfl⟩ := exists_snapshot_of_lt_taken hi
          obtain ⟨o', ho'⟩ := ih before (List.prefix_append _ _)
          exact ⟨_, ho'.restored between⟩
        · exact ⟨_, ho.missed (Nat.le_of_not_lt hi)⟩
    · exact ih pre hpre

theorem leaves_iff {t : ScalarType} {ops : List Operation} {o : Option Encoder} :
    Leaves t ops o ↔ (run ops).now.GoesBy t o := by
  rw [goesBy_iff]
  constructor
  · intro h
    exact h.find?_eq
  · intro h
    obtain ⟨o', ho'⟩ := exists_leaves_of_prefix t ops ops (List.prefix_refl ops)
    rw [← h, ho'.find?_eq]
    exact ho'

theorem run_register_of_error {ops : List Operation} {t : LogicalType} {e : Encoder}
    {overwrite : Bool} {err : Error} (h : (run ops).now.register t e overwrite = .error err) :
    run (ops ++ [.register t e overwrite]) = run ops := by
  rw [run_concat, next, step, h]
  rfl

/-- After any history, composite types have no encoder, and a scalar type goes by what the
operations have left for it, whatever is registered for others. The missing types are those refused
for want of an encoder, in their order. A refused registration changes nothing. A copy stays the
table it was taken of, and put back it is that table again. -/
theorem run_goesBy_left (ops : List Operation) :
    (∀ t : LogicalType, t.isComposite = true → (run ops).now.tryGet t = none) ∧
    ((∀ t, ∃ o, Leaves t ops o) ∧ ∀ t o, Leaves t ops o ↔ (run ops).now.GoesBy t o) ∧
    (∀ t o u e overwrite, u ≠ .scalar t → (run ops).now.GoesBy t o →
      (run (ops ++ [.register u e overwrite])).now.GoesBy t o) ∧
    ((run ops).now.missing.Sublist ScalarType.all ∧
      ∀ t, t ∈ (run ops).now.missing ↔ (run ops).now.GoesBy t none) ∧
    (∀ u e overwrite,
      ((∃ err, (run ops).now.register u e overwrite = .error err) ↔
        u.isComposite = true ∨
          overwrite = false ∧ ∃ t holder, u = .scalar t ∧ (run ops).now.GoesBy t (some holder)) ∧
      ∀ err, (run ops).now.register u e overwrite = .error err →
        err.kind = .encoderRegistry ∧ run (ops ++ [.register u e overwrite]) = run ops) ∧
    ∀ between, (run (ops ++ .snapshot :: between)).copies[taken ops]? = some (run ops).now ∧
      (run (ops ++ .snapshot :: between ++ [.restore (taken ops)])).now = (run ops).now := by
  refine ⟨fun t => tryGet_of_isComposite _, ⟨?_, fun t o => leaves_iff⟩, ?_,
    ⟨List.filter_sublist, fun t => mem_missing_iff⟩, ?_, ?_⟩
  · intro t
    exact exists_leaves_of_prefix t ops ops (List.prefix_refl ops)
  · intro t o u e overwrite hu h
    exact leaves_iff.1 ((leaves_iff.2 h).other hu)
  · intro u e overwrite
    constructor
    · simp only [goesBy_iff]
      exact register_eq_error_iff
    · intro err h
      exact ⟨kind_of_register h, run_register_of_error h⟩
  · intro between
    exact ⟨copies_run_snapshot ops between, now_run_restore ops between⟩

end History
end TypedParams.Registry
