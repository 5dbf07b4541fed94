/-
  Rendering: the JSON document that a value stands for.

  Undefined, functions and symbols have no document: they are left out of
  objects and are `null` elsewhere.  Numbers beyond the finite ones are
  `null`.  Maps are arrays of pairs, sets and typed arrays are arrays, dates
  and patterns are texts, and wrappers are what they wrap.  A value that is
  its own ancestor, a big integer, and any object not named here cannot be
  rendered.

  * `Heap.renderIn` renders below given ancestors;
  * `Heap.render` renders a whole value.
-/
import ValueGraph.Heap
import ValueGraph.Json
import ValueGraph.Calendar

namespace ValueGraph

/-- Why a value has no document. -/
inductive RenderError where
  | bigInteger
  | cycle
  | object (tag : String)
deriving DecidableEq, Repr

/-- The text of a refusal. -/
def RenderError.message (e : RenderError) : String :=
  "Value cannot be represented: " ++ match e with
    | bigInteger => "bigint"
    | cycle => "cyclic structure"
    | object tag => tag

/-- The document of a number: an integer if it is one below `2 ^ 53` in size,
    `null` if it is not finite. -/
def Binary64.render (x : Binary64) : Json :=
  match x.integer? with
  | some i => .number (.integer i)
  | none => if x.isFinite then .number (.float x) else .null

/-- The document of a value that is no object, or nothing for the values that
    have none. -/
def Value.renderPrimitive? : Value → Except RenderError (Option Json)
  | undefined | function _ | symbol _ => .ok none
  | null => .ok (some .null)
  | bool b => .ok (some (.bool b))
  | number x => .ok (some x.render)
  | bigInt _ => .error .bigInteger
  | string text => .ok (some (.string text))
  | object _ => .ok none

/-- Documents of primitives, `null` for those that have none. -/
def renderAll (vs : List Value) : Except RenderError (List Json) :=
  vs.mapM fun v => do return (← v.renderPrimitive?).getD .null

namespace Heap

mutual

/-- The document of a value below the objects entered in `ancestors`, or
    nothing for the values that have none. -/
def renderIn (h : Heap) (ancestors : IdentityMap h.size Unit) (v : Value) :
    Except RenderError (Option Json) :=
  match v with
  | .object r =>
    if hnew : ancestors.get? r = none then
      match hr : h.get? r with
      | none => .error (.object "")
      | some o => do
        have := IdentityMap.vacant_record (a := ()) (lt_of_get? hr) hnew
        let inner := ancestors.record r ()
        match o with
        | .array items => return some (.array (← renderItems h inner items))
        | .plain p =>
          if o.isStructural then
            return some (.ofMembers (← renderMembers h inner p.entries))
          else .error (.object o.tag)
        | .map m => return some (.array (← renderPairs h inner m.entries))
        | .set s => return some (.array (← renderItems h inner s.items))
        | .date millis =>
          return some (match millis.bind Calendar.timestamp? with
            | some text => .string text
            | none => .null)
        | .pattern p => return some (.string p.text)
        | .boxed b => return some ((← b.primitive.renderPrimitive?).getD .null)
        | .typedArray a => return some (.array (← renderAll a.widen))
        | o => .error (.object o.tag)
    else .error .cycle
  | v => v.renderPrimitive?
termination_by (ancestors.vacant, 0)

/-- The documents of elements, `null` for those that have none. -/
def renderItems (h : Heap) (ancestors : IdentityMap h.size Unit) (items : List Value) :
    Except RenderError (List Json) :=
  match items with
  | [] => .ok []
  | v :: vs => do
    let j ← renderIn h ancestors v
    return j.getD .null :: (← renderItems h ancestors vs)
termination_by (ancestors.vacant, items.length + 1)

/-- The members of an object: the entries with a string key whose values have
    a document. -/
def renderMembers (h : Heap) (ancestors : IdentityMap h.size Unit) (entries : List (Key × Value)) :
    Except RenderError (List (String × Json)) :=
  match entries with
  | [] => .ok []
  | (.symbol _, _) :: es => renderMembers h ancestors es
  | (.name key, v) :: es => do
    let j ← renderIn h ancestors v
    let ms ← renderMembers h ancestors es
    return j.elim ms fun j => (key, j) :: ms
termination_by (ancestors.vacant, entries.length + 1)

/-- The pairs of key and value of a map, each key before its value. -/
def renderPairs (h : Heap) (ancestors : IdentityMap h.size Unit) (entries : List (Value × Value)) :
    Except RenderError (List Json) :=
  match entries with
  | [] => .ok []
  | (k, v) :: es => do
    let key ← renderIn h ancestors k
    let value ← renderIn h ancestors v
    return .array [key.getD .null, value.getD .null] :: (← renderPairs h ancestors es)
termination_by (ancestors.vacant, entries.length + 1)

end

/-- The document of a value; `null` if it has none. -/
def render (h : Heap) (v : Value) : Except RenderError Json := do
  return (← h.renderIn (.empty h.size Unit) v).getD .null

end Heap

end ValueGraph
