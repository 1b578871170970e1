import ThreatModel.Settings.Value
import ThreatModel.Yaml.Node

/-!
# Documents — the value that a document writes

`read` gives the value of a document.  Of two entries of a mapping with equal keys the later value stands, in the place of
the earlier; the entries that `<<` brings in come before a mapping's own.

* `read`: the value of a text; none for a text without content.
-/

namespace ThreatModel.Yaml

open Node (coreTag)

/-- Two keys of a mapping are equal; truth values and numbers compare as numbers. -/
def sameKey : Value → Value → Bool
  | .null, .null       => true
  | .text a, .text b   => a = b
  | .date a, .date b   => a = b
  | .int a, .int b     => a = b
  | a, b               =>
    match number? a, number? b with
    | some x, some y => x = y && x ≠ .nan
    | _, _           => false
where
  /-- The number that a key is. -/
  number? : Value → Option Binary64
    | .bool b  => some (.ofInt (if b then 1 else 0))
    | .int i   => some (.ofInt i)
    | .float x =>
      match x with
      | .finite _ 0 _ => some (.zero false)
      | _             => some x
    | _        => none

/-- Sets the value of a key: in its place, or at the end. -/
def putEntry (k v : Value) : List (Value × Value) → List (Value × Value)
  | []           => [(k, v)]
  | (k', v') :: r => if sameKey k' k then (k', v) :: r else (k', v') :: putEntry k v r

/-- The entries that a mapping has of its own and through `<<`. -/
def flatten : Nat → List (Node × Node) → Except Fault (List (Node × Node))
  | 0, _             => .error .tooDeep
  | fuel + 1, entries => do
    let mut merged := []
    let mut own := []
    for (k, v) in entries do
      match k with
      | .scalar tag text =>
        if tag = coreTag "merge" then
          match v with
          | .mapping _ es     => merged := merged ++ (← flatten fuel es)
          | .sequence _ items =>
            let groups ← items.mapM fun item =>
              match item with
              | .mapping _ es => flatten fuel es
              | .cycle        => pure []
              | _             => throw .badMerge
            merged := merged ++ groups.reverse.flatten
          | .cycle            => pure ()
          | _                 => throw .badMerge
        else if tag = coreTag "value" then own := own ++ [(Node.scalar (coreTag "str") text, v)]
        else own := own ++ [(k, v)]
      | _ => own := own ++ [(k, v)]
    return merged ++ own

/-- A list or mapping, which is no key. -/
def isCollection : Value → Bool
  | .list _ => true
  | .map _  => true
  | _       => false

/-- The value of a scalar. -/
def scalarValue (tag : String) (text : Text.Wide) : Except Fault Value :=
  -- half of a character is as foreign to a number, a word or a date as NUL is
  let s := text.map fun p => p.char?.getD (Char.ofNat 0)
  if tag = coreTag "str" then .ok (.text text)
  else if tag = coreTag "null" then .ok .null
  else if tag = coreTag "bool" then (Plain.truth (String.ofList s)).map .bool
  else if tag = coreTag "int" then (Plain.int s).map .int
  else if tag = coreTag "float" then (Plain.float s).map .float
  else if tag = coreTag "timestamp" then Plain.date s
  else .error .unknownTag

/-- The value of a node. -/
def valueOf : Nat → Node → Except Fault Value
  | 0, _                     => .error .tooDeep
  | _ + 1, .cycle            => .ok (.list [])
  | _ + 1, .scalar tag text  => scalarValue tag text
  | fuel + 1, .sequence tag items =>
    if tag = coreTag "seq" || tag = coreTag "omap" || tag = coreTag "pairs" then
      return .list (← items.mapM (valueOf fuel))
    else .error .unknownTag
  | fuel + 1, .mapping tag entries => do
    if tag = coreTag "map" || tag = coreTag "set" then
      let mut result := []
      for (k, v) in ← flatten fuel entries do
        let key ← valueOf fuel k
        if isCollection key then throw .unhashableKey
        result := putEntry key (← valueOf fuel v) result
      return if tag = coreTag "map" then .map result else .list []
    else throw .unknownTag

/-- The value of a text; none if the text has no content. -/
def read (text : String) : Except Fault (Option Value) := do
  let tokens ← Token.scan text.toList
  match ← Node.ofTokens tokens with
  | some n => return some (← valueOf (2 * tokens.length + 16) n)
  | none   => return none

end ThreatModel.Yaml
