import TypedParams.Proofs.Template.Mentioned

/-! The pieces of a text, put together again. Main statement: resolving changes nothing where no
placeholder is bound. -/
namespace TypedParams.Template

theorem after?_suffix {closing cs rest : List Char} (h : after? closing cs = some rest) :
    rest <:+ cs := by
  rw [after?_eq_some_iff.1 h]
  exact List.suffix_append _ _

theorem named?_suffix {closing : List Char} {skip : List Char → List Char}
    (hskip : ∀ cs, skip cs <:+ cs) {cs name rest : List Char}
    (h : named? closing skip cs = some (name, rest)) : rest <:+ cs := by
  obtain ⟨⟨n, r⟩, hid, h⟩ := Option.bind_eq_some_iff.1 h
  obtain ⟨r', hr, h⟩ := Option.map_eq_some_iff.1 h
  cases h
  have hrest : r <:+ skip cs := by
    rw [← Text.identifier?_append hid]
    exact List.suffix_append _ _
  exact (((after?_suffix hr).trans (hskip r)).trans hrest).trans (hskip cs)

theorem placeholder?_suffix {cs name rest : List Char} (h : placeholder? cs = some (name, rest)) :
    rest <:+ cs := by
  rcases Option.or_eq_some_iff.1 h with h | ⟨-, h⟩
  · obtain ⟨cs', hcs, h⟩ := Option.bind_eq_some_iff.1 h
    exact (named?_suffix (fun _ => List.dropWhile_suffix _) h).trans (after?_suffix hcs)
  · obtain ⟨cs', hcs, h⟩ := Option.bind_eq_some_iff.1 h
    exact (named?_suffix (fun cs => List.suffix_refl cs) h).trans (after?_suffix hcs)

/-- Scanning loses no character. -/
theorem flatMap_spelling_scan (cs : List Char) : (scan cs).flatMap Piece.spelling = cs := by
  fun_induction scan cs with
  | case1 => rfl
  | case2 c cs' name rest h ih =>
    -- the spelling of a placeholder is what stands before the rest
    have hsplit := List.suffix_iff_eq_append.1 (placeholder?_suffix h)
    rw [List.flatMap_cons, ih]
    exact hsplit
  | case3 c cs' h ih =>
    rw [List.flatMap_cons, ih]
    rfl

theorem substituteChars_nil (cs : List Char) : substituteChars [] cs = cs := by
  have hpiece : ∀ p, renderPiece [] p = p.spelling := by
    intro p
    cases p <;> rfl
  rw [substituteChars, funext hpiece, flatMap_spelling_scan]

theorem substituteChars_eq_self {vars : Bindings} {cs : List Char}
    (h : ∀ n ∈ placeholderNames cs, insertion? vars n = none) : substituteChars vars cs = cs :=
  (substituteChars_congr (W := []) h).trans (substituteChars_nil cs)

theorem substitute_eq_self {vars : Bindings} {s : String}
    (h : ∀ n ∈ placeholderNames s.toList, insertion? vars n = none) : substitute vars s = s := by
  unfold substitute
  split_ifs
  · rw [substituteChars_eq_self h, String.ofList_toList]
  · rfl

theorem substituteText_plain (vars : Bindings) (s : String) :
    substituteText vars (.plain s) = .plain (substitute vars s) := by
  unfold substituteText
  split_ifs with h
  · rfl
  · rw [Text.content_plain] at h
    rw [substitute, if_neg h]

theorem resolve_str_eq_self {vars : Bindings} {s : String}
    (h : ∀ n ∈ names (.str s), insertion? vars n = none) : resolve vars (.str s) = .str s := by
  rw [Value.str, resolve, substituteText_plain, substitute_eq_self]
  rwa [Value.str, names] at h

end TypedParams.Template
