import TypedParams.Proofs.Template.Identity
import TypedParams.Proofs.Template.Placeholder

/-! Substitution. Main statement: a text splits in one way at its placeholders, found from left to
right, and substitution puts values in place of those that are bound and changes nothing else. -/
namespace TypedParams.Template

/-- A stretch of text without placeholders, and the placeholder behind it. -/
structure Stretch where
  text : List Char
  spelling : List Char
  name : List Char

/-- What stands in place of the placeholder: the text of the value that its name is bound to, and
its own spelling where there is none or a null. -/
def Stretch.replacement (vars : Bindings) (x : Stretch) : List Char :=
  match Value.field? vars (String.ofList x.name) with
  | some v => if v.isNull then x.spelling else v.shown.toList
  | none => x.spelling

/-- A text as stretches and the tail behind them, with no placeholder passed over: none begins in
the tail, and none before the end of a stretch. -/
inductive Splits : List Char → List Stretch → List Char → Prop
  | tail {cs : List Char} (h : ∀ t, t <:+ cs → ¬Begins t) : Splits cs [] cs
  | stretch {text p name rest tail : List Char} {xs : List Stretch} (hp : Spells p name)
      (hfirst : ∀ t, t ≠ [] → t <:+ text → ¬Begins (t ++ (p ++ rest))) (h : Splits rest xs tail) :
      Splits (text ++ (p ++ rest)) (⟨text, p, name⟩ :: xs) tail

/-- Of two texts before a placeholder neither ends before the other. -/
theorem length_le_of_split {text p name rest text' cs : List Char} (hp : Spells p name)
    (hfirst : ∀ t, t ≠ [] → t <:+ text' → ¬Begins (t ++ cs))
    (h : text ++ (p ++ rest) = text' ++ cs) : text'.length ≤ text.length := by
  by_contra hlt
  obtain ⟨t, rfl, ht⟩ : ∃ t, text' = text ++ t ∧ p ++ rest = t ++ cs := by
    rcases List.append_eq_append_iff.1 h with ⟨t, htext, hrest⟩ | ⟨t, htext, -⟩
    · exact ⟨t, htext, hrest⟩
    · rw [htext, List.length_append] at hlt
      omega
  have hne : t ≠ [] := by
    rintro rfl
    simp at hlt
  exact hfirst t hne (List.suffix_append text t) ⟨p, name, rest, hp, ht.symm⟩

theorem Splits.unique {cs : List Char} {xs xs' : List Stretch} {tail tail' : List Char}
    (h : Splits cs xs tail) (h' : Splits cs xs' tail') : xs' = xs ∧ tail' = tail := by
  induction h generalizing xs' tail' with
  | @tail cs hnone =>
    cases h' with
    | tail => exact ⟨rfl, rfl⟩
    | @stretch text p name rest tail xs hp hfirst hrest =>
      exact absurd ⟨p, name, rest, hp, rfl⟩ (hnone (p ++ rest) (List.suffix_append text _))
  | @stretch text p name rest tail xs hp hfirst hrest ih =>
    generalize hcs : text ++ (p ++ rest) = cs at h'
    cases h' with
    | tail hnone =>
      rw [← hcs] at hnone
      exact absurd ⟨p, name, rest, hp, rfl⟩ (hnone (p ++ rest) (List.suffix_append text _))
    | @stretch text' p' name' rest' tail' xs' hp' hfirst' hrest' =>
      -- the longer of two stretches would pass over the placeholder behind the shorter
      have hlength : text.length = text'.length :=
        Nat.le_antisymm (length_le_of_split hp' hfirst hcs.symm) (length_le_of_split hp hfirst' hcs)
      obtain ⟨rfl, hplaceholder⟩ := List.append_inj hcs hlength
      obtain ⟨rfl, rfl, rfl⟩ := hp.unique hp' hplaceholder
      obtain ⟨rfl, rfl⟩ := ih hrest'
      exact ⟨rfl, rfl⟩

/-- Stretches with their placeholders replaced, and the tail. -/
def filled (vars : Bindings) (xs : List Stretch) (tail : List Char) : List Char :=
  xs.flatMap (fun x => x.text ++ x.replacement vars) ++ tail

theorem replacement_eq (vars : Bindings) (x : Stretch) :
    x.replacement vars = (insertion? vars x.name).getD x.spelling := by
  unfold Stretch.replacement insertion?
  cases Value.field? vars (String.ofList x.name) with
  | none => rfl
  | some v => cases v <;> rfl

/-- A character at which no placeholder begins joins the text behind it. -/
theorem Splits.cons {c : Char} {cs tail : List Char} {xs : List Stretch} (h : Splits cs xs tail)
    (hc : ¬Begins (c :: cs)) : ∃ ys tail', Splits (c :: cs) ys tail' ∧
      ∀ vars, filled vars ys tail' = c :: filled vars xs tail := by
  cases h with
  | tail hnone =>
    refine ⟨[], c :: cs, .tail ?_, fun vars => rfl⟩
    intro t ht
    rcases List.suffix_cons_iff.1 ht with rfl | ht
    · exact hc
    · exact hnone t ht
  | @stretch text p name rest tail xs hp hfirst hrest =>
    have hlonger : ∀ t, t ≠ [] → t <:+ c :: text → ¬Begins (t ++ (p ++ rest)) := by
      intro t hne ht
      rcases List.suffix_cons_iff.1 ht with rfl | ht
      · exact hc
      · exact hfirst t hne ht
    exact ⟨⟨c :: text, p, name⟩ :: xs, tail, .stretch hp hlonger hrest, fun vars => rfl⟩

/-- The pieces that scanning finds, put together to stretches. -/
theorem exists_splits (cs : List Char) : ∃ xs tail, Splits cs xs tail ∧
    ∀ vars, substituteChars vars cs = filled vars xs tail := by
  unfold substituteChars
  fun_induction scan cs with
  | case1 =>
    refine ⟨[], [], .tail ?_, fun vars => rfl⟩
    intro t ht
    rw [List.suffix_nil.1 ht]
    exact not_begins_nil
  | case2 c cs' name rest h ih =>
    obtain ⟨xs, tail, hsplits, hfilled⟩ := ih
    obtain ⟨p, hp, hcs⟩ := placeholder?_eq_some_iff.1 h
    have hnone : ∀ t, t ≠ [] → t <:+ [] → ¬Begins (t ++ (p ++ rest)) :=
      fun t hne ht => absurd (List.suffix_nil.1 ht) hne
    rw [take_spelling hcs, hcs]
    refine ⟨⟨[], p, name⟩ :: xs, tail, .stretch hp hnone hsplits, ?_⟩
    intro vars
    rw [List.flatMap_cons, hfilled, renderPiece, filled, filled, List.flatMap_cons, replacement_eq,
      List.nil_append, List.append_assoc]
  | case3 c cs' h ih =>
    obtain ⟨xs, tail, hsplits, hfilled⟩ := ih
    obtain ⟨ys, tail', hsplits', hfilled'⟩ := hsplits.cons (placeholder?_eq_none_iff.1 h)
    refine ⟨ys, tail', hsplits', ?_⟩
    intro vars
    rw [List.flatMap_cons, hfilled, hfilled']
    rfl

/-- A text in which no placeholder begins anywhere stays as it is. -/
theorem substituteChars_of_not_begins {cs : List Char} (h : ∀ t, t <:+ cs → ¬Begins t)
    (vars : Bindings) : substituteChars vars cs = cs := by
  obtain ⟨xs, tail, hsplits, hfilled⟩ := exists_splits cs
  obtain ⟨rfl, rfl⟩ := (Splits.tail h).unique hsplits
  exact hfilled vars

theorem hasOpening_of_suffix {t cs : List Char} (h : t <:+ cs) (ht : hasOpening t = true) :
    hasOpening cs = true := by
  induction cs with
  | nil => rwa [List.suffix_nil.1 h] at ht
  | cons c cs ih =>
    rcases List.suffix_cons_iff.1 h with rfl | h
    · exact ht
    · unfold hasOpening
      split
      next => rfl
      next => rfl
      next heq =>
        obtain ⟨rfl, rfl⟩ := List.cons.inj heq
        exact ih h
      next heq => cases heq

/-- The early return changes nothing: a text without an opening has no placeholder. -/
theorem substitute_eq_ofList (vars : Bindings) (s : String) :
    substitute vars s = String.ofList (substituteChars vars s.toList) := by
  unfold substitute
  split_ifs with hopening
  · rfl
  · have hnone : ∀ t, t <:+ s.toList → ¬Begins t := by
      intro t ht hbegins
      obtain ⟨c, rest, rfl, hc⟩ := hbegins.opening
      refine hopening (hasOpening_of_suffix ht ?_)
      rcases hc with rfl | rfl <;> rfl
    rw [substituteChars_of_not_begins hnone, String.ofList_toList]

/-- A text that is one placeholder becomes the text of the value that its name is bound to. -/
theorem substitute_of_spells {vars : Bindings} {p name : List Char} {v : Value} (hp : Spells p name)
    (hfield : Value.field? vars (String.ofList name) = some v) (hv : v.isNull = false) :
    substitute vars (String.ofList p) = v.shown := by
  have hscan : scan p = [.placeholder name p] := by
    have hrest := scan_of_spells hp []
    rwa [List.append_nil, scan] at hrest
  have hname : insertion? vars name = some v.shown.toList := by
    unfold insertion?
    rw [hfield]
    cases v with
    | null => cases hv
    | _ => rfl
  rw [substitute_eq_ofList, String.toList_ofList, substituteChars, hscan, List.flatMap_singleton,
    renderPiece, hname, Option.getD_some, String.ofList_toList]

/-- An opening and its closing with neither braces nor dollar signs between them. -/
inductive Resembles : List Char → Prop
  | braced {body : List Char} (h : ∀ c ∈ body, c ≠ '{' ∧ c ≠ '}' ∧ c ≠ '$') :
      Resembles ('{' :: '{' :: (body ++ ['}', '}']))
  | dollar {body : List Char} (h : ∀ c ∈ body, c ≠ '{' ∧ c ≠ '}' ∧ c ≠ '$') :
      Resembles ('$' :: '{' :: (body ++ ['}']))

/-- What stands before the first closing brace. -/
theorem eq_of_append_brace {body body' rest rest' : List Char} (h : '}' ∉ body) (h' : '}' ∉ body')
    (heq : body ++ '}' :: rest = body' ++ '}' :: rest') : body = body' := by
  have hbefore : ∀ {cs : List Char}, '}' ∉ cs →
      ∀ cs', (cs ++ '}' :: cs').takeWhile (· ≠ '}') = cs := by
    intro cs hcs cs'
    have hall : ∀ c ∈ cs, decide (c ≠ '}') = true :=
      fun c hc => decide_eq_true fun hbrace => hcs (hbrace ▸ hc)
    rw [List.takeWhile_append_of_pos hall, List.takeWhile_cons_of_neg (by decide), List.append_nil]
  rw [← hbefore h rest, heq, hbefore h']

/-- What begins a placeholder and ends at the first closing brace is one. -/
theorem Resembles.exists_spells {p : List Char} (hp : Resembles p) (h : Begins p) :
    ∃ name, Spells p name := by
  obtain ⟨q, name, rest, hq, hsplit⟩ := h
  have hnotin : ∀ {name : List Char}, Text.isIdentifierChars name = true → '}' ∉ name :=
    fun hname hc => Bool.false_ne_true (Text.isIdentifierPart_of_mem hname _ hc)
  have hblank : ∀ {gap : List Char}, (∀ c ∈ gap, Text.isBlank c = true) → '}' ∉ gap :=
    fun hgap hc => Bool.false_ne_true (hgap _ hc)
  cases hp with
  | @braced body hbody =>
    have hbrace : '}' ∉ body := fun hc => (hbody _ hc).2.1 rfl
    cases hq with
    | @braced before name after hbefore hname hafter =>
      have hinner : '}' ∉ before ++ (name ++ after) := by
        simp [hnotin hname, hblank hbefore, hblank hafter]
      have hbodies : body ++ '}' :: ['}'] = (before ++ (name ++ after)) ++ '}' :: '}' :: rest := by
        simpa using hsplit
      obtain rfl := eq_of_append_brace hbrace hinner hbodies
      have hspells := Spells.braced hbefore hname hafter
      exact ⟨name, by simpa using hspells⟩
    | dollar hname => cases hsplit
  | @dollar body hbody =>
    have hbrace : '}' ∉ body := fun hc => (hbody _ hc).2.1 rfl
    cases hq with
    | braced hbefore hname hafter => cases hsplit
    | @dollar name hname =>
      have hbodies : body ++ '}' :: [] = name ++ '}' :: rest := by
        simpa using hsplit
      obtain rfl := eq_of_append_brace hbrace (hnotin hname) hbodies
      exact ⟨_, .dollar hname⟩

theorem Resembles.not_begins_of_suffix {p t : List Char} (hp : Resembles p) (ht : t <:+ p)
    (hne : t ≠ p) : ¬Begins t := by
  have hbehind : ∀ {body closing : List Char}, (∀ c ∈ body, c ≠ '{' ∧ c ≠ '}' ∧ c ≠ '$') →
      closing ≠ [] → (∀ c ∈ closing, c = '}') → t <:+ '{' :: (body ++ closing) → ¬Begins t := by
    intro body closing hbody hclosing hall ht hbegins
    have hnone : ∀ c ∈ body ++ closing, c ≠ '{' ∧ c ≠ '$' := by
      intro c hc
      rcases List.mem_append.1 hc with hc | hc
      · exact ⟨(hbody c hc).1, (hbody c hc).2.2⟩
      · obtain rfl := hall c hc
        decide
    rw [← List.append_nil t] at hbegins
    obtain rfl := eq_nil_of_begins_append (by simp [hclosing]) hnone ht hbegins
    exact not_begins_nil hbegins
  cases hp with
  | braced hbody =>
    exact hbehind hbody (by simp) (by simp) ((List.suffix_cons_iff.1 ht).resolve_left hne)
  | dollar hbody =>
    exact hbehind hbody (by simp) (by simp) ((List.suffix_cons_iff.1 ht).resolve_left hne)

theorem Resembles.substitute_eq_self {p : List Char} (hp : Resembles p)
    (hnone : ∀ name, ¬Spells p name) (vars : Bindings) :
    substitute vars (String.ofList p) = String.ofList p := by
  have hbegins : ∀ t, t <:+ p → ¬Begins t := by
    intro t ht
    by_cases heq : t = p
    · rw [heq]
      intro hbegins
      obtain ⟨name, hname⟩ := hp.exists_spells hbegins
      exact hnone name hname
    · exact hp.not_begins_of_suffix ht heq
  rw [substitute_eq_ofList, String.toList_ofList, substituteChars_of_not_begins hbegins]

/-- Behind a brace too many the search starts one character later, and what was put in is left
alone. -/
example : substitute [(.str "a", .str "$\x7ba\x7d")] "\x7b\x7b\x7ba\x7d\x7d\x7d" =
    "\x7b$\x7ba\x7d\x7d" := by
  decide +kernel

end TypedParams.Template
