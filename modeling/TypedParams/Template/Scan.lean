import TypedParams.Text.Identifier
import TypedParams.Text.Ranges

/-! Placeholders in text: which there are, found from left to right. -/
namespace TypedParams.Template

/-- A piece of a text: a character that stands for itself, or a placeholder as it was spelt. -/
inductive Piece where
  | char (c : Char)
  | placeholder (name : List Char) (spelling : List Char)

namespace Piece

def spelling : Piece → List Char
  | .char c => [c]
  | .placeholder _ s => s

def name? : Piece → Option (List Char)
  | .char _ => none
  | .placeholder n _ => some n

end Piece

/-- What follows `closing` at the front. -/
def after? : (closing cs : List Char) → Option (List Char)
  | [], cs => some cs
  | _ :: _, [] => none
  | d :: ds, c :: cs => if c = d then after? ds cs else none

/-- An identifier and, behind what `skip` passes over, the closing characters. -/
def named? (closing : List Char) (skip : List Char → List Char) (cs : List Char) :
    Option (List Char × List Char) :=
  (Text.identifier? (skip cs)).bind fun p =>
    (after? closing (skip p.2)).map fun rest => (p.1, rest)

def skipBlanks (cs : List Char) : List Char := cs.dropWhile Text.isBlank

/-- An identifier between double braces, with blanks around it or without. -/
def braced? (cs : List Char) : Option (List Char × List Char) :=
  (after? ['{', '{'] cs).bind (named? ['}', '}'] skipBlanks)

/-- An identifier between braces behind a dollar sign. -/
def dollar? (cs : List Char) : Option (List Char × List Char) :=
  (after? ['$', '{'] cs).bind (named? ['}'] id)

/-- The name of a placeholder at the front, and what follows it. -/
def placeholder? (cs : List Char) : Option (List Char × List Char) := (braced? cs).or (dollar? cs)

theorem after?_eq_some_iff {closing cs rest : List Char} :
    after? closing cs = some rest ↔ cs = closing ++ rest := by
  induction closing generalizing cs with
  | nil => simp [after?]
  | cons d ds ih =>
    cases cs with
    | nil => simp [after?]
    | cons c cs =>
      by_cases h : c = d
      · simp [after?, h, ih]
      · simp [after?, h]

theorem length_skipBlanks_le (cs : List Char) : (skipBlanks cs).length ≤ cs.length :=
  (List.dropWhile_suffix _).sublist.length_le

theorem length_named? {closing : List Char} {skip : List Char → List Char}
    (hskip : ∀ cs, (skip cs).length ≤ cs.length) {cs name rest : List Char}
    (h : named? closing skip cs = some (name, rest)) : rest.length ≤ cs.length := by
  obtain ⟨⟨n, r⟩, hid, h⟩ := Option.bind_eq_some_iff.1 h
  obtain ⟨r', hr, h⟩ := Option.map_eq_some_iff.1 h
  cases h
  have h₁ := congrArg List.length (Text.identifier?_append hid)
  have h₂ := congrArg List.length (after?_eq_some_iff.1 hr)
  have h₃ := hskip cs
  have h₄ := hskip r
  simp only [List.length_append] at h₁ h₂
  omega

theorem length_braced? {cs name rest : List Char} (h : braced? cs = some (name, rest)) :
    rest.length < cs.length := by
  obtain ⟨cs', hcs, h⟩ := Option.bind_eq_some_iff.1 h
  have h₁ := length_named? length_skipBlanks_le h
  rw [after?_eq_some_iff.1 hcs]
  simp only [List.length_append, List.length_cons]
  omega

theorem length_dollar? {cs name rest : List Char} (h : dollar? cs = some (name, rest)) :
    rest.length < cs.length := by
  obtain ⟨cs', hcs, h⟩ := Option.bind_eq_some_iff.1 h
  have h₁ := length_named? (fun _ => Nat.le_refl _) h
  rw [after?_eq_some_iff.1 hcs]
  simp only [List.length_append, List.length_cons]
  omega

theorem length_placeholder? {cs name rest : List Char} (h : placeholder? cs = some (name, rest)) :
    rest.length < cs.length := by
  rcases Option.or_eq_some_iff.1 h with h | ⟨_, h⟩
  · exact length_braced? h
  · exact length_dollar? h

/-- The pieces of a text. A placeholder found is not scanned again. -/
def scan (cs : List Char) : List Piece :=
  match cs with
  | [] => []
  | c :: cs' =>
    match h : placeholder? (c :: cs') with
    | some (name, rest) =>
      .placeholder name ((c :: cs').take (cs'.length + 1 - rest.length)) :: scan rest
    | none => .char c :: scan cs'
termination_by cs.length
decreasing_by
  · exact length_placeholder? h
  · simp

end TypedParams.Template
