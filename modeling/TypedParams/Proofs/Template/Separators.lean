import TypedParams.Proofs.Template.Substitution
import TypedParams.Proofs.Value.Entries

/-! Separators. Main statement: exactly the characters that no placeholder has in it take a text
apart into two that can be substituted by themselves. -/
namespace TypedParams.Template
open Text

/-- A character with no part in a placeholder: no brace, dollar sign, blank or part of an
identifier. -/
structure IsSeparator (c : Char) : Prop where
  not_opening : c ≠ '{'
  not_closing : c ≠ '}'
  not_dollar : c ≠ '$'
  not_blank : isBlank c = false
  not_part : isIdentifierPart c = false

/-- Each character that is no separator stands in some placeholder. -/
theorem exists_spells_of_not_isSeparator {c : Char} (hc : ¬IsSeparator c) :
    ∃ p name, Spells p name ∧ c ∈ p := by
  have hx : isIdentifierChars ['x'] = true := by decide
  have hnone : ∀ d ∈ ([] : List Char), isBlank d = true := by simp
  have hplain : Spells "\x7b\x7bx\x7d\x7d".toList ['x'] := .braced hnone hx hnone
  by_cases hopening : c = '{'
  · exact ⟨_, _, hplain, by simp [hopening]⟩
  by_cases hclosing : c = '}'
  · exact ⟨_, _, hplain, by simp [hclosing]⟩
  by_cases hdollar : c = '$'
  · exact ⟨_, _, .dollar hx, by simp [hdollar]⟩
  by_cases hblank : isBlank c = true
  · have hgap : ∀ d ∈ [c], isBlank d = true := by simpa using hblank
    exact ⟨_, _, .braced hgap hx hnone, by simp⟩
  by_cases hpart : isIdentifierPart c = true
  · have hname : isIdentifierChars ['x', c] = true := by simp [isIdentifierChars, hpart]; decide
    exact ⟨_, _, .dollar hname, by simp⟩
  exact absurd ⟨hopening, hclosing, hdollar, by simpa using hblank, by simpa using hpart⟩ hc

theorem IsSeparator.not_mem {c : Char} (hc : IsSeparator c) {p name : List Char}
    (hp : Spells p name) : c ∉ p := by
  obtain ⟨d, inner, rfl, hd, -, hinner⟩ := hp.exists_inner
  intro hmem
  rcases List.mem_cons.1 hmem with rfl | hmem
  · rcases hd with hopening | hdollar
    · exact hc.not_opening hopening
    · exact hc.not_dollar hdollar
  rcases List.mem_cons.1 hmem with hopening | hmem
  · exact hc.not_opening hopening
  rcases hinner c hmem with hblank | hpart | hclosing
  · rw [hc.not_blank] at hblank
    cases hblank
  · rw [hc.not_part] at hpart
    cases hpart
  · exact hc.not_closing hclosing

/-- A placeholder in front of a separator ends before it. -/
theorem IsSeparator.exists_eq_append {c : Char} (hc : IsSeparator c) {p name rest as bs : List Char}
    (hp : Spells p name) (h : as ++ c :: bs = p ++ rest) :
    ∃ between, as = p ++ between ∧ rest = between ++ c :: bs := by
  rcases List.append_eq_append_iff.1 h with ⟨front, hfront, hrest⟩ | ⟨between, has, hrest⟩
  · cases front with
    | nil => exact ⟨[], by simpa using hfront.symm, hrest.symm⟩
    | cons d front =>
      have hd : c = d := (List.cons.inj hrest).1
      have hmem : c ∈ p := by simp [hfront, hd]
      exact absurd hmem (hc.not_mem hp)
  · exact ⟨between, has, hrest⟩

theorem IsSeparator.begins_iff {c : Char} (hc : IsSeparator c) (as bs : List Char) :
    Begins (as ++ c :: bs) ↔ Begins as := by
  constructor
  · intro h
    obtain ⟨p, name, rest, hp, hsplit⟩ := h
    obtain ⟨between, has, -⟩ := hc.exists_eq_append hp hsplit
    exact ⟨p, name, between, hp, has⟩
  · intro h
    obtain ⟨p, name, rest, hp, rfl⟩ := h
    exact ⟨p, name, rest ++ c :: bs, hp, List.append_assoc p rest _⟩

/-- No piece of a text reaches over a separator. -/
theorem IsSeparator.scan_append {c : Char} (hc : IsSeparator c) (as bs : List Char) :
    scan (as ++ c :: bs) = scan as ++ .char c :: scan bs := by
  fun_induction scan as with
  | case1 =>
    have hnone : ¬Begins (c :: bs) := mt (hc.begins_iff [] bs).1 not_begins_nil
    exact scan_of_not_begins hnone
  | case2 x as name rest h ih =>
    obtain ⟨p, hp, hsplit⟩ := placeholder?_eq_some_iff.1 h
    rw [take_spelling hsplit, hsplit, List.append_assoc, scan_of_spells hp, ih, List.cons_append]
  | case3 x as h ih =>
    have hnone : ¬Begins (x :: as) := placeholder?_eq_none_iff.1 h
    have hwhole : ¬Begins (x :: (as ++ c :: bs)) := mt (hc.begins_iff (x :: as) bs).1 hnone
    rw [List.cons_append, scan_of_not_begins hwhole, ih, List.cons_append]

theorem IsSeparator.substitute_append {c : Char} (hc : IsSeparator c) (vars : Bindings)
    (a b : String) : substitute vars (a ++ String.singleton c ++ b) =
      substitute vars a ++ String.singleton c ++ substitute vars b := by
  have hchars : substituteChars vars (a.toList ++ c :: b.toList) =
      substituteChars vars a.toList ++ c :: substituteChars vars b.toList := by
    unfold substituteChars
    rw [hc.scan_append, List.flatMap_append, List.flatMap_cons]
    rfl
  have hlist : (a ++ String.singleton c ++ b).toList = a.toList ++ c :: b.toList := by simp
  rw [substitute_eq_ofList, substitute_eq_ofList vars a, substitute_eq_ofList vars b, hlist, hchars]
  simp [String.ext_iff]

/-- At a separator, and at no other character, every text may be taken apart: substitution in the
whole is substitution in the two parts, whatever the variables, and however many openings without an
end the parts have. -/
theorem isSeparator_iff_substitute_append (c : Char) :
    IsSeparator c ↔ ∀ vars a b, substitute vars (a ++ String.singleton c ++ b) =
      substitute vars a ++ String.singleton c ++ substitute vars b := by
  constructor
  · intro hc vars a b
    exact hc.substitute_append vars a b
  · intro h
    by_contra hc
    obtain ⟨p, name, hp, hmem⟩ := exists_spells_of_not_isSeparator hc
    obtain ⟨as, bs, rfl⟩ := List.append_of_mem hmem
    obtain ⟨vars, hfield⟩ : ∃ vars : Bindings,
        Value.field? vars (String.ofList name) = some (.str "") :=
      ⟨[(.str (String.ofList name), .str "")], by rw [Value.field?_cons_str, if_pos rfl]⟩
    -- where the placeholder stands for nothing, only the parts keep the character
    have hwhole : substitute vars (String.ofList (as ++ c :: bs)) = "" :=
      substitute_of_spells hp hfield rfl
    have hparts := h vars (String.ofList as) (String.ofList bs)
    have hlist : String.ofList as ++ String.singleton c ++ String.ofList bs =
        String.ofList (as ++ c :: bs) := by simp [String.ext_iff]
    have hkept : c ∈ (substitute vars (String.ofList as) ++ String.singleton c ++
        substitute vars (String.ofList bs)).toList := by simp
    rw [← hparts, hlist, hwhole] at hkept
    cases hkept

end TypedParams.Template
