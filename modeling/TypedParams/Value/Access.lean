import TypedParams.Value.Display

/-! Reading host values: items, keys, entries, and the types they name. -/
namespace TypedParams

namespace Value

/-- Numbers are one key when they are equal as numbers, whatever their kinds. -/
inductive NumberKey where
  | int (n : Int)
  | float (x : Binary64)

def numberKey? : Value → Option NumberKey
  | .bool b => some (.int (if b then 1 else 0))
  | .int n _ => some (.int n)
  | .float x _ => some (.float x)
  | .foreign f _ => f.number.map .float
  | _ => none

def NumberKey.same : NumberKey → NumberKey → Bool
  | .int m, .int n => m = n
  | .int n, .float x | .float x, .int n => x.eqInt n
  | .float x, .float y => x.eq y

mutual

/-- Whether two values are the same key of a mapping. An instance without a quoted form of its own
is equal to no other. -/
def sameKey : Value → Value → Bool
  | .text s, .text t => s == t
  | .null, .null => true
  | .bytes bs _, .bytes bs' _ => bs = bs'
  | .tuple xs _, .tuple ys _ => sameKeys xs ys
  | .typed v, .typed w => v == w
  | .descriptor d, .descriptor e => d = e
  | .document ⟨n, d, .text s⟩, .document ⟨m, e, .text t⟩ => n = m ∧ d = e ∧ s = t
  | .classRef c _, .classRef d _ => c = d
  | .foreign f _, .foreign g _ => f.guise.quoted.isSome && f = g
  | v, w =>
    match v.numberKey?, w.numberKey? with
    | some m, some n => m.same n
    | _, _ => false

def sameKeys : List Value → List Value → Bool
  | [], [] => true
  | x :: xs, y :: ys => sameKey x y && sameKeys xs ys
  | _, _ => false

end

mutual

/-- Values that may be keys; collections that can change may not, nor what holds them. -/
def hashable : Value → Bool
  | .list _ _ | .buffer _ | .mapping _ | .parameters _ => false
  | .tuple xs _ => allHashable xs
  | .document ⟨_, _, .items _⟩ => false
  | .foreign f _ => f.hashable
  | _ => true

def allHashable : List Value → Bool
  | [] => true
  | x :: xs => hashable x && allHashable xs

end

/-- Put a value under a key; a key already there keeps its place and its first spelling. -/
def upsertEntry (k v : Value) : List (Value × Value) → List (Value × Value)
  | [] => [(k, v)]
  | e :: es => if sameKey e.1 k then (e.1, v) :: es else e :: upsertEntry k v es

/-- Put entries one after the other among others. -/
def putAll (new es : List (Value × Value)) : List (Value × Value) :=
  new.foldl (fun es e => upsertEntry e.1 e.2 es) es

/-- The mapping that pairs make. -/
def ofPairs (pairs : List (Value × Value)) : Value := .mapping (putAll pairs [])

def optional (f : α → Value) : Option α → Value
  | none => .null
  | some a => f a

def ofPayload : Payload Value → Value
  | .text s => str s
  | .items xs => .list xs none

/-- The fields of a descriptor under their own names. -/
def descriptorEntries (d : Descriptor) : List (Value × Value) :=
  [(str "type", str d.type), (str "element_type", optional .descriptor d.elementType?)]

def documentEntries (d : Document Value) : List (Value × Value) :=
  [(str "name", str d.name), (str "parameter_type", .descriptor d.type),
   (str "parameter_value", ofPayload d.payload)]

def parameterEntries (p : Parameters) : List (Value × Value) :=
  p.entries.map fun e => (.text e.1, .typed e.2)

def pairItem (e : Value × Value) : Value := .tuple [e.1, e.2] none

/-- The items of a value that can be gone through: characters of a string, bytes as numbers, keys
of a mapping, fields of a descriptor, members of an enumeration. -/
def items? : Value → Option (List Value)
  | .text t => some (t.content.toList.map fun c => str (String.singleton c))
  | .bytes bs _ | .buffer bs => some (bs.map fun b => .int b.toNat none)
  | .list xs _ | .tuple xs _ | .stream xs => some xs
  | .mapping es => some (es.map (·.1))
  | .parameters p => some (p.names.map .text)
  | .descriptor d => some ((descriptorEntries d).map pairItem)
  | .document d => some ((documentEntries d).map pairItem)
  | .classRef _ (m :: ms) => some ((m :: ms).map .text)
  | .foreign _ items => items
  | _ => none

/-- The entries of a mapping, parameter sets included. -/
def entries? : Value → Option (List (Value × Value))
  | .mapping es => some es
  | .parameters p => some (parameterEntries p)
  | _ => none

/-- The class of mappings itself, which is asked for entries in vain. -/
def isMappingClass : Value → Bool
  | .classRef c _ => c.name = .builtin "dict"
  | _ => false

/-- What stands under the key `name`. -/
def field? (entries : List (Value × α)) (name : String) : Option α :=
  (entries.find? fun e => e.1.text?.any (·.content = name)).map (·.2)

/-- The pair an item stands for. -/
def toPair (v : Value) : Except Error (Value × Value) :=
  match v.items? with
  | none => .error .notSequenceOfPairs
  | some [k, v] => if k.hashable then .ok (k, v) else .error .unhashable
  | some _ => .error .wrongPairLength

/-- The entries of a mapping, or of what a sequence of pairs makes one. -/
def toEntries (v : Value) : Except Error (List (Value × Value)) :=
  match v.entries?, v.items? with
  | some es, _ => .ok es
  | none, some xs => do
    let pairs ← xs.mapM toPair
    .ok (putAll pairs [])
  | none, none => .error .notIterable

end Value

/-- A type, or a string that says its token. -/
def LogicalType.ofValue (v : Value) : Except Error LogicalType :=
  match v.text?.bind fun t => ofToken? t.content with
  | some t => .ok t
  | none => .error (v.quoting .unknownType)

/-- As `LogicalType.ofValue`, where the type may be left out. -/
def LogicalType.ofValue? (v : Value) : Except Error (Option LogicalType) :=
  if v.isNull then .ok none else (ofValue v).map some

def Value.ofType (t : LogicalType) : Value := .text (.token t)

end TypedParams
