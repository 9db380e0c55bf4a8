import TypedParams.Text.Identifier
import TypedParams.TypedValue.Basic

/-! Parameter sets: ordered, with distinct identifiers for names. -/
namespace TypedParams

/-- Named values in the order given. -/
structure Parameters where
  entries : List (Text × TypedValue)
  identifiers : ∀ e ∈ entries, Text.isIdentifier e.1.content = true
  distinct : (entries.map (·.1.content)).Nodup

namespace Parameters

def names (p : Parameters) : List Text := p.entries.map (·.1)

def size (p : Parameters) : Nat := p.entries.length

def get? (p : Parameters) (name : String) : Option TypedValue :=
  (p.entries.find? fun e => e.1.content = name).map (·.2)

def contains (p : Parameters) (name : String) : Bool := (p.get? name).isSome

/-- Parameter sets are equal when each name has equal values in both, in whatever order. -/
instance : BEq Parameters where
  beq p q := p.size = q.size && p.entries.all fun e => q.get? e.1.content == some e.2

def className : ClassName := ⟨"parambricks.parameters", [], "QueryParameters"⟩

def quoted (p : Parameters) : String :=
  let items := p.entries.map fun e => e.1.quotedForm ++ ": " ++ e.2.quoted
  "QueryParameters(\x7b" ++ String.intercalate ", " items ++ "\x7d)"

def empty : Parameters := ⟨[], by simp, by simp⟩

/-- Put a value under a name; a name already there keeps its place and its first spelling. -/
def upsert (name : Text) (v : TypedValue) : List (Text × TypedValue) → List (Text × TypedValue)
  | [] => [(name, v)]
  | e :: es => if e.1.content = name.content then (e.1, v) :: es else e :: upsert name v es

theorem content_upsert (name : Text) (v : TypedValue) (es : List (Text × TypedValue)) :
    (upsert name v es).map (·.1.content) =
      if name.content ∈ es.map (·.1.content) then es.map (·.1.content)
      else es.map (·.1.content) ++ [name.content] := by
  induction es with
  | nil => simp [upsert]
  | cons e es ih =>
    by_cases h : e.1.content = name.content
    · simp [upsert, h]
    · have h' : ¬name.content = e.1.content := fun x => h x.symm
      simp only [upsert, h, if_false, List.map_cons, ih, List.mem_cons, h', false_or]
      split <;> simp

theorem mem_upsert {name : Text} {v : TypedValue} {es : List (Text × TypedValue)}
    {e : Text × TypedValue} (h : e ∈ upsert name v es) :
    e.1.content = name.content ∨ e ∈ es := by
  induction es with
  | nil => simp only [upsert, List.mem_singleton] at h; exact .inl (by rw [h])
  | cons d es ih =>
    simp only [upsert] at h
    split at h
    · rename_i hd
      rcases List.mem_cons.1 h with rfl | h
      · exact .inl hd
      · exact .inr (List.mem_cons_of_mem _ h)
    · rcases List.mem_cons.1 h with rfl | h
      · exact .inr List.mem_cons_self
      · exact (ih h).imp_right (List.mem_cons_of_mem _)

/-- Add or replace a parameter. -/
def insert (p : Parameters) (name : Text) (v : TypedValue)
    (h : Text.isIdentifier name.content = true) : Parameters where
  entries := upsert name v p.entries
  identifiers e he := by
    rcases mem_upsert he with h' | h'
    · rw [h', h]
    · exact p.identifiers e h'
  distinct := by
    rw [content_upsert]
    split
    · exact p.distinct
    · rename_i hn
      exact List.nodup_append.2 ⟨p.distinct, by simp, by
        intro a ha b hb; rw [List.mem_singleton] at hb; rintro rfl; exact hn (hb ▸ ha)⟩

end Parameters
end TypedParams
