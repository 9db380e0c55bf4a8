import TypedParams.Encoding.Registry

/-! The table of encoders as it changes, with copies taken of it and put back. -/
namespace TypedParams.Registry

/-- The table emptied and then filled with the entries of a copy. -/
def restore (copy : Registry) : Registry :=
  ⟨copy.table.foldl (fun ds d => put d.1 d.2 ds) clear.table⟩

inductive Operation where
  | register (t : LogicalType) (e : Encoder) (overwrite : Bool)
  | clear
  | snapshot
  /-- Back to the copy of the given number, counted from zero in the order of taking. -/
  | restore (copy : Nat)

def Operation.isSnapshot : Operation → Bool
  | .snapshot => true
  | _ => false

/-- The table in force, and the copies taken, the oldest first. -/
structure History where
  now : Registry
  copies : List Registry

namespace History

def start : History := ⟨builtIn, []⟩

def step (h : History) : Operation → Except Error History
  | .register t e overwrite => (h.now.register t e overwrite).map fun r => { h with now := r }
  | .clear => .ok { h with now := .clear }
  | .snapshot => .ok { h with copies := h.copies ++ [h.now] }
  | .restore copy =>
    match h.copies[copy]? with
    | some r => .ok { h with now := r.restore }
    | none => .ok h

/-- What an operation leaves. A refused one changes nothing. -/
def next (h : History) (op : Operation) : History :=
  match h.step op with
  | .ok h' => h'
  | .error _ => h

/-- What operations leave, one after the other. -/
def run (ops : List Operation) : History := ops.foldl next start

end History
end TypedParams.Registry
