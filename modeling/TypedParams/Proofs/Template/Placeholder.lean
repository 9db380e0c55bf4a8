import Mathlib.Data.List.TakeWhile
import TypedParams.Template.Scan

/-! The spellings of placeholders. Main statement: scanning finds a placeholder at the front of a
text where one is spelt there, and then there is only one. -/
namespace TypedParams

namespace Text

theorem isBlank_bounds {c : Char} (h : isBlank c = true) : c.toNat ≤ 0x20 ∨ 0x85 ≤ c.toNat := by
  obtain ⟨r, hr, hleast, hgreatest⟩ := Ranges.holds_iff.1 h
  have hranges : ∀ r ∈ blanks, r.2 ≤ 0x20 ∨ 0x85 ≤ r.1 := by decide
  rcases hranges r hr with hlow | hhigh
  · exact .inl (by omega)
  · exact .inr (by omega)

theorem not_isBlank_of_isIdentifierPart {c : Char} (h : isIdentifierPart c = true) :
    isBlank c = false := by
  by_contra hblank
  rw [Bool.not_eq_false] at hblank
  have hpart := isIdentifierPart_bounds h
  have hbounds := isBlank_bounds hblank
  omega

/-- An identifier is read up to the first character that cannot be a part of it. -/
theorem identifier?_append_cons {name : List Char} (hname : isIdentifierChars name = true)
    {d : Char} (hd : isIdentifierPart d = false) (rest : List Char) :
    identifier? (name ++ d :: rest) = some (name, d :: rest) := by
  cases name with
  | nil => cases hname
  | cons c cs =>
    rw [isIdentifierChars, Bool.and_eq_true, List.all_eq_true] at hname
    have hstop : ¬isIdentifierPart d = true := by simp [hd]
    rw [List.cons_append, identifier?, if_pos hname.1, List.takeWhile_append_of_pos hname.2,
      List.dropWhile_append_of_pos hname.2, List.takeWhile_cons_of_neg hstop,
      List.dropWhile_cons_of_neg hstop, List.append_nil]

theorem isIdentifierChars_of_identifier? {cs name rest : List Char}
    (h : identifier? cs = some (name, rest)) : isIdentifierChars name = true := by
  cases cs with
  | nil => cases h
  | cons c cs =>
    simp only [identifier?] at h
    split at h
    next hstart =>
      cases h
      rw [isIdentifierChars, hstart, Bool.true_and, List.all_eq_true]
      exact fun x hx => List.mem_takeWhile_imp hx
    next => cases h

end Text

namespace Template
open Text

/-- How a name is spelt as a placeholder: between double braces, where blanks may stand around it,
or between braces behind a dollar sign. -/
inductive Spells : List Char → List Char → Prop
  | braced {before name after : List Char} (hbefore : ∀ c ∈ before, isBlank c = true)
      (hname : isIdentifierChars name = true) (hafter : ∀ c ∈ after, isBlank c = true) :
      Spells (['{', '{'] ++ (before ++ (name ++ (after ++ ['}', '}'])))) name
  | dollar {name : List Char} (hname : isIdentifierChars name = true) :
      Spells (['$', '{'] ++ (name ++ ['}'])) name

/-- A reader of names finds those with gaps around them, where a gap, an identifier and the first of
the closing characters have nothing in common. -/
theorem named?_eq_some_iff {isGap : Char → Bool} {skip : List Char → List Char} {d : Char}
    {ds : List Char} (hskip : ∀ cs, skip cs = cs.dropWhile isGap)
    (hgap : ∀ c, isIdentifierPart c = true → isGap c = false) (hd : isIdentifierPart d = false)
    (hdgap : isGap d = false) {cs name rest : List Char} :
    named? (d :: ds) skip cs = some (name, rest) ↔ ∃ before after, (∀ c ∈ before, isGap c = true) ∧
      isIdentifierChars name = true ∧ (∀ c ∈ after, isGap c = true) ∧
      cs = before ++ (name ++ (after ++ (d :: ds ++ rest))) := by
  constructor
  · intro h
    obtain ⟨⟨n, r⟩, hid, h⟩ := Option.bind_eq_some_iff.1 h
    obtain ⟨r', hr, h⟩ := Option.map_eq_some_iff.1 h
    cases h
    rw [after?_eq_some_iff, hskip] at hr
    refine ⟨cs.takeWhile isGap, r.takeWhile isGap, fun c hc => List.mem_takeWhile_imp hc,
      isIdentifierChars_of_identifier? hid, fun c hc => List.mem_takeWhile_imp hc, ?_⟩
    rw [← hr, List.takeWhile_append_dropWhile, identifier?_append hid, hskip,
      List.takeWhile_append_dropWhile]
  · intro h
    obtain ⟨before, after, hbefore, hname, hafter, rfl⟩ := h
    have hskipBefore : skip (before ++ (name ++ (after ++ (d :: ds ++ rest)))) =
        name ++ (after ++ (d :: ds ++ rest)) := by
      rw [hskip, List.dropWhile_append_of_pos hbefore]
      cases name with
      | nil => cases hname
      | cons c name =>
        have hc := hgap c (isIdentifierPart_of_mem hname c List.mem_cons_self)
        exact List.dropWhile_cons_of_neg (by simp [hc])
    have hid : identifier? (name ++ (after ++ (d :: ds ++ rest))) =
        some (name, after ++ (d :: ds ++ rest)) := by
      cases after with
      | nil => exact identifier?_append_cons hname hd _
      | cons c after =>
        refine identifier?_append_cons hname ?_ _
        by_contra hc
        rw [Bool.not_eq_false] at hc
        have hmem := hafter c List.mem_cons_self
        rw [hgap c hc] at hmem
        cases hmem
    have hskipAfter : skip (after ++ (d :: ds ++ rest)) = d :: ds ++ rest := by
      rw [hskip, List.dropWhile_append_of_pos hafter]
      exact List.dropWhile_cons_of_neg (by simp [hdgap])
    rw [named?, hskipBefore, hid, Option.bind_some, hskipAfter, after?_eq_some_iff.2 rfl]
    rfl

theorem braced?_eq_some_iff {cs name rest : List Char} :
    braced? cs = some (name, rest) ↔ ∃ before after, (∀ c ∈ before, isBlank c = true) ∧
      isIdentifierChars name = true ∧ (∀ c ∈ after, isBlank c = true) ∧
      cs = ['{', '{'] ++ (before ++ (name ++ (after ++ ['}', '}']))) ++ rest := by
  rw [braced?, Option.bind_eq_some_iff]
  have hskip : ∀ cs, skipBlanks cs = cs.dropWhile isBlank := fun _ => rfl
  simp only [after?_eq_some_iff, named?_eq_some_iff hskip
    (fun _ => not_isBlank_of_isIdentifierPart) (by decide : isIdentifierPart '}' = false)
    (by decide : isBlank '}' = false)]
  constructor
  · intro h
    obtain ⟨cs', rfl, before, after, hbefore, hname, hafter, rfl⟩ := h
    exact ⟨before, after, hbefore, hname, hafter, by simp⟩
  · intro h
    obtain ⟨before, after, hbefore, hname, hafter, rfl⟩ := h
    exact ⟨_, rfl, before, after, hbefore, hname, hafter, by simp⟩

theorem dollar?_eq_some_iff {cs name rest : List Char} :
    dollar? cs = some (name, rest) ↔
      isIdentifierChars name = true ∧ cs = ['$', '{'] ++ (name ++ ['}']) ++ rest := by
  have hskip : ∀ cs : List Char, id cs = cs.dropWhile fun _ => false := by
    intro cs
    cases cs <;> rfl
  rw [dollar?, Option.bind_eq_some_iff]
  simp only [after?_eq_some_iff, named?_eq_some_iff hskip (fun _ _ => rfl)
    (by decide : isIdentifierPart '}' = false) rfl]
  constructor
  · intro h
    obtain ⟨cs', rfl, before, after, hbefore, hname, hafter, rfl⟩ := h
    have hempty : ∀ {gap : List Char}, (∀ c ∈ gap, false = true) → gap = [] := by
      intro gap hgap
      exact List.eq_nil_iff_forall_not_mem.2 fun c hc => Bool.false_ne_true (hgap c hc)
    rw [hempty hbefore, hempty hafter]
    exact ⟨hname, by simp⟩
  · intro h
    obtain ⟨hname, rfl⟩ := h
    exact ⟨_, rfl, [], [], by simp, hname, by simp, by simp⟩

/-- A placeholder is found at the front where one is spelt there. -/
theorem placeholder?_eq_some_iff {cs name rest : List Char} :
    placeholder? cs = some (name, rest) ↔ ∃ p, Spells p name ∧ cs = p ++ rest := by
  rw [placeholder?, Option.or_eq_some_iff, dollar?_eq_some_iff]
  constructor
  · intro h
    rcases h with hbraced | ⟨-, hname, hcs⟩
    · obtain ⟨before, after, hbefore, hname, hafter, hcs⟩ := braced?_eq_some_iff.1 hbraced
      exact ⟨_, .braced hbefore hname hafter, hcs⟩
    · exact ⟨_, .dollar hname, hcs⟩
  · intro h
    obtain ⟨p, hp, rfl⟩ := h
    cases hp with
    | braced hbefore hname hafter =>
      exact .inl (braced?_eq_some_iff.2 ⟨_, _, hbefore, hname, hafter, rfl⟩)
    | dollar hname => exact .inr ⟨rfl, hname, rfl⟩

/-- A text begins with at most one placeholder. -/
theorem Spells.unique {p q name name' rest rest' : List Char} (hp : Spells p name)
    (hq : Spells q name') (h : p ++ rest = q ++ rest') : p = q ∧ name = name' ∧ rest = rest' := by
  have hfirst : placeholder? (p ++ rest) = some (name, rest) :=
    placeholder?_eq_some_iff.2 ⟨p, hp, rfl⟩
  have hsecond : placeholder? (p ++ rest) = some (name', rest') :=
    placeholder?_eq_some_iff.2 ⟨q, hq, h⟩
  rw [hfirst, Option.some.injEq, Prod.mk.injEq] at hsecond
  obtain ⟨hname, rfl⟩ := hsecond
  exact ⟨List.append_cancel_right h, hname, rfl⟩

/-- A text with a placeholder at the front. -/
def Begins (cs : List Char) : Prop := ∃ p name rest, Spells p name ∧ cs = p ++ rest

theorem placeholder?_eq_none_iff {cs : List Char} : placeholder? cs = none ↔ ¬Begins cs := by
  constructor
  · intro h hbegins
    obtain ⟨p, name, rest, hp, hcs⟩ := hbegins
    rw [placeholder?_eq_some_iff.2 ⟨p, hp, hcs⟩] at h
    cases h
  · intro h
    rw [Option.eq_none_iff_forall_ne_some]
    intro x hx
    obtain ⟨p, hp, hcs⟩ := placeholder?_eq_some_iff.1 hx
    exact h ⟨p, x.1, x.2, hp, hcs⟩

/-- Behind its two opening characters a placeholder has blanks, parts of an identifier and closing
braces. -/
theorem Spells.exists_inner {p name : List Char} (hp : Spells p name) :
    ∃ c inner, p = c :: '{' :: inner ∧ (c = '{' ∨ c = '$') ∧ inner ≠ [] ∧
      ∀ d ∈ inner, isBlank d = true ∨ isIdentifierPart d = true ∨ d = '}' := by
  cases hp with
  | @braced before name after hbefore hname hafter =>
    refine ⟨'{', before ++ (name ++ (after ++ ['}', '}'])), rfl, .inl rfl, by simp, ?_⟩
    intro d hd
    simp only [List.mem_append] at hd
    rcases hd with hd | hd | hd | hd
    · exact .inl (hbefore d hd)
    · exact .inr (.inl (isIdentifierPart_of_mem hname d hd))
    · exact .inl (hafter d hd)
    · exact .inr (.inr (by simpa using hd))
  | dollar hname =>
    refine ⟨'$', name ++ ['}'], rfl, .inr rfl, by simp, ?_⟩
    intro d hd
    rcases List.mem_append.1 hd with hd | hd
    · exact .inr (.inl (isIdentifierPart_of_mem hname d hd))
    · exact .inr (.inr (List.mem_singleton.1 hd))

/-- Placeholders open with two characters of which the second is a brace. -/
theorem Begins.opening {cs : List Char} (h : Begins cs) :
    ∃ c rest, cs = c :: '{' :: rest ∧ (c = '{' ∨ c = '$') := by
  obtain ⟨p, name, rest, hp, rfl⟩ := h
  obtain ⟨c, inner, rfl, hc, -⟩ := hp.exists_inner
  exact ⟨c, inner ++ rest, rfl, hc⟩

theorem not_begins_nil : ¬Begins [] := by
  intro h
  obtain ⟨c, rest, hnil, -⟩ := h.opening
  cases hnil

/-- No placeholder begins at a brace that no other brace follows, or behind it, whatever follows. -/
theorem eq_nil_of_begins_append {cs t rest : List Char} (hne : cs ≠ [])
    (hcs : ∀ c ∈ cs, c ≠ '{' ∧ c ≠ '$') (ht : t <:+ '{' :: cs) (h : Begins (t ++ rest)) :
    t = [] := by
  obtain ⟨d, rest', hopening, hd⟩ := h.opening
  rcases List.suffix_cons_iff.1 ht with rfl | ht
  · cases cs with
    | nil => exact absurd rfl hne
    | cons c cs =>
      have hc : c = '{' := (List.cons.inj (List.cons.inj hopening).2).1
      exact absurd hc (hcs c List.mem_cons_self).1
  · cases t with
    | nil => rfl
    | cons c t =>
      have hc : c = d := (List.cons.inj hopening).1
      have hmem := hcs c (ht.subset List.mem_cons_self)
      rcases hd with rfl | rfl
      · exact absurd hc hmem.1
      · exact absurd hc hmem.2

/-! ### Scanning by spellings -/

/-- What scanning consumes of a text is the spelling in front of the rest. -/
theorem take_spelling {c : Char} {cs p rest : List Char} (h : c :: cs = p ++ rest) :
    (c :: cs).take (cs.length + 1 - rest.length) = p := by
  have hlength : cs.length + 1 = p.length + rest.length := by
    rw [← List.length_cons, h, List.length_append]
  rw [hlength, Nat.add_sub_cancel, h, List.take_left]

theorem scan_of_spells {p name : List Char} (hp : Spells p name) (rest : List Char) :
    scan (p ++ rest) = .placeholder name p :: scan rest := by
  have hfirst : placeholder? (p ++ rest) = some (name, rest) :=
    placeholder?_eq_some_iff.2 ⟨p, hp, rfl⟩
  cases hcs : p ++ rest with
  | nil =>
    rw [hcs] at hfirst
    cases hfirst
  | cons c cs =>
    rw [hcs] at hfirst
    rw [scan]
    split
    next name' rest' h =>
      rw [hfirst, Option.some.injEq, Prod.mk.injEq] at h
      obtain ⟨rfl, rfl⟩ := h
      rw [take_spelling hcs.symm]
    next h =>
      rw [hfirst] at h
      cases h

theorem scan_of_not_begins {c : Char} {cs : List Char} (h : ¬Begins (c :: cs)) :
    scan (c :: cs) = .char c :: scan cs := by
  have hnone : placeholder? (c :: cs) = none := placeholder?_eq_none_iff.2 h
  rw [scan]
  split
  next hsome =>
    rw [hnone] at hsome
    cases hsome
  next => rfl

end Template
end TypedParams
