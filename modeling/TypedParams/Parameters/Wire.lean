import TypedParams.Parameters.Build
import TypedParams.Wire.Decode

/-! Parameter sets to and from lists of wire documents. -/
namespace TypedParams.Parameters

/-- One parameter as a document, read back by the rules for documents. -/
def document (name : Text) (tv : TypedValue) : Except Error (Document Value) :=
  let fields := [(.str "name", .text name), (.str "parameter_type", .descriptor tv.descriptor),
    (.str "parameter_value", tv.payload)]
  (Document.read (.mapping fields)).mapError (.invalidRecord (some Document.className.name))

def toWireTraced (p : Parameters) : Traced (List (Document Value)) := do
  let documents ← Traced.lift (p.entries.mapM fun e => document e.1 e.2)
  Traced.report (.encoded (p.names.map (·.content)))
  pure documents

/-- The documents of a parameter set, in its order. -/
def toWire (p : Parameters) : Except Error (List (Document Value)) := p.toWireTraced.result

def readDocument : Value → Except Error (Document Value)
  | .document d => .ok d
  | v => do
    let entries ← v.toEntries
    (Document.read (.mapping entries)).mapError (Error.withIssues .malformedDocument)

/-- Decodes documents one after the other onto those decoded before. -/
def decodeDocuments (seen : List (String × TypedValue)) :
    List Value → Traced (List (String × TypedValue))
  | [] => pure seen
  | v :: vs => do
    let d ← readDocument v
    if seen.any fun e => e.1 = d.name then Traced.lift (.error (.duplicateName d.name))
    else
      let tv ← TypedValue.decode (.ofPayload d.payload) d.type
      decodeDocuments (seen ++ [(d.name, tv)]) vs

def ofWireTraced (r : Registry) (documents : Value) : Traced Parameters := do
  let some vs := documents.items? | Traced.lift (.error .notIterable)
  let decoded ← decodeDocuments [] vs
  Traced.report (.decoded (decoded.map (·.1)))
  Traced.lift (ofEntries r (decoded.map fun e => (.str e.1, .typed e.2)))

/-- The parameters of a list of documents. Names are checked when all are decoded. -/
def ofWire (r : Registry) (documents : Value) : Except Error Parameters :=
  (ofWireTraced r documents).result

end TypedParams.Parameters
