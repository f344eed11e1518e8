import Bluetape.Base.JsonText

/-!
# Reading JSON

A reader of JSON gives no tree: it calls hooks for the values it meets, from the
inside out and from left to right, and fails where a hook fails.  It recurses
into a container, and the interpreter has room for a number of nested containers
only.

* `eval` says which hooks are called for a tree, and `render` is its compact text.
* `scanOnce_render`: reading the compact text of a tree gives what its hooks give,
  when there is room for the containers that it nests.
-/

namespace Bluetape
namespace Base
namespace Json

abbrev beginArray : CodePoint := mark '['
abbrev endArray : CodePoint := mark ']'
abbrev beginObject : CodePoint := mark '\x7b'
abbrev endObject : CodePoint := mark '\x7d'
abbrev nameSeparator : CodePoint := mark ':'
abbrev valueSeparator : CodePoint := mark ','

/-- What a reader calls for the values that it reads. -/
structure Hooks (ε α : Type) where
  null : α
  bool : Bool → α
  string : Text → α
  array : List α → α
  parseInt : Text → Except ε α
  parseFloat : Text → Except ε α
  parseConstant : Text → Except ε α
  objectPairs : List (Text × α) → Except ε α

/-- Why a text is not read. -/
inductive Failure (ε : Type)
  | decode
  | recursion
  | hook (e : ε)
deriving DecidableEq, Repr

/-- Reads a value in front of a text, and gives what follows it. -/
abbrev Scanner (ε α : Type) :=
  Text → Except (Failure ε) (α × Text)

section Reader

variable {ε α : Type} (hooks : Hooks ε α)

/--
The elements of an array from the first one on.  Every round but the last reads
a comma, so that the length of the text is fuel enough.
-/
def arrayElements (scan : Scanner ε α) : Nat → Scanner ε (List α)
  | 0, _ => .error .decode
  | fuel + 1, t => do
      let (value, rest) ← scan t
      match expect endArray (skipSpace rest) with
      | some rest => return ([value], rest)
      | none =>
          let rest ← orRaise .decode (expect valueSeparator (skipSpace rest))
          let (values, rest) ← arrayElements scan fuel (skipSpace rest)
          return (value :: values, rest)

/-- `JSONArray` -/
def parseArray (scan : Scanner ε α) : Scanner ε α := fun t =>
  match expect endArray (skipSpace t) with
  | some rest => return (hooks.array [], rest)
  | none => do
      let (values, rest) ← arrayElements scan (skipSpace t).length (skipSpace t)
      return (hooks.array values, rest)

/-- A name, its separator and its value. -/
def objectMember (scan : Scanner ε α) : Scanner ε (Text × α) := fun t => do
  let rest ← orRaise .decode (expect quotationMark t)
  let (name, rest) ← orRaise .decode (scanString rest)
  let rest ← orRaise .decode (expect nameSeparator (skipSpace rest))
  let (value, rest) ← scan (skipSpace rest)
  return ((name, value), rest)

/-- The members of an object from the first one on. -/
def objectMembers (scan : Scanner ε α) : Nat → Scanner ε (List (Text × α))
  | 0, _ => .error .decode
  | fuel + 1, t => do
      let (pair, rest) ← objectMember scan t
      match expect endObject (skipSpace rest) with
      | some rest => return ([pair], rest)
      | none =>
          let rest ← orRaise .decode (expect valueSeparator (skipSpace rest))
          let (pairs, rest) ← objectMembers scan fuel (skipSpace rest)
          return (pair :: pairs, rest)

/-- `JSONObject` -/
def parseObject (scan : Scanner ε α) : Scanner ε α := fun t => do
  let (pairs, rest) ←
    match expect endObject (skipSpace t) with
    | some rest => Except.ok (([] : List (Text × α)), rest)
    | none => objectMembers scan (skipSpace t).length (skipSpace t)
  let value ← (hooks.objectPairs pairs).mapError .hook
  return (value, rest)

/-- A number, or one of the constants that are not JSON. -/
def scanScalar : Scanner ε α := fun t =>
  match scanNumber t with
  | some (n, rest) => do
      let value ← ((if n.isInteger then hooks.parseInt n.text
        else hooks.parseFloat n.text).mapError .hook)
      return (value, rest)
  | none => do
      let constant ← orRaise .decode
        ([text "NaN", text "Infinity", text "-Infinity"].find? (·.isPrefixOf t))
      let value ← (hooks.parseConstant constant).mapError .hook
      return (value, t.drop constant.length)

/-- A value whose containers hold what `nested` reads, if there is room for them. -/
def scanValue (nested : Option (Scanner ε α)) : Scanner ε α
  | [] => .error .decode
  | p :: rest =>
      if p = quotationMark then do
        let (t, rest) ← orRaise .decode (scanString rest)
        return (hooks.string t, rest)
      else if p = beginObject then do
        let scan ← orRaise .recursion nested
        parseObject hooks scan rest
      else if p = beginArray then do
        let scan ← orRaise .recursion nested
        parseArray hooks scan rest
      else if (text "null").isPrefixOf (p :: rest) then
        return (hooks.null, (p :: rest).drop 4)
      else if (text "true").isPrefixOf (p :: rest) then
        return (hooks.bool true, (p :: rest).drop 4)
      else if (text "false").isPrefixOf (p :: rest) then
        return (hooks.bool false, (p :: rest).drop 5)
      else scanScalar hooks (p :: rest)

/--
`scan_once`, where `frames` is the number of containers that the interpreter has room
for inside one another.  A hook is called when its container is closed and returns
before the scan goes on, and takes no part in the count.
-/
def scanOnce : (frames : Nat) → Scanner ε α
  | 0 => scanValue hooks none
  | frames + 1 => scanValue hooks (some (scanOnce frames))

/-- The byte order mark, which no JSON text may start with. -/
def byteOrderMark : CodePoint :=
  mark '\ufeff'

/-- `json.loads` of a text -/
def loads (frames : Nat) (t : Text) : Except (Failure ε) α := do
  raiseIf (t.head? = some byteOrderMark) .decode
  let (value, rest) ← scanOnce hooks frames (skipSpace t)
  raiseIf (skipSpace rest ≠ []) .decode
  return value

end Reader

/-! ## Trees -/

/-- The syntax tree of a JSON text. -/
inductive Tree
  | null
  | bool (b : Bool)
  | number (n : Number)
  | string (t : Text)
  | array (items : List Tree)
  | object (members : List (Text × Tree))

mutual

/-- The compact text of a tree. -/
def render : Tree → Text
  | .null => text "null"
  | .bool true => text "true"
  | .bool false => text "false"
  | .number n => n.parts.text
  | .string t => quote t
  | .array [] => [beginArray, endArray]
  | .array (item :: items) => beginArray :: render item ++ renderItems items ++ [endArray]
  | .object [] => [beginObject, endObject]
  | .object (member :: members) =>
      beginObject :: renderMember member ++ renderMembers members ++ [endObject]

/-- The elements of an array after its first one. -/
def renderItems : List Tree → Text
  | [] => []
  | item :: items => valueSeparator :: render item ++ renderItems items

/-- One member of an object. -/
def renderMember : Text × Tree → Text
  | (name, value) => quote name ++ nameSeparator :: render value

/-- The members of an object after its first one. -/
def renderMembers : List (Text × Tree) → Text
  | [] => []
  | member :: members => valueSeparator :: renderMember member ++ renderMembers members

end

mutual

/-- How many containers a tree nests. -/
def nesting : Tree → Nat
  | .array items => nestingItems items + 1
  | .object members => nestingMembers members + 1
  | _ => 0

def nestingItems : List Tree → Nat
  | [] => 0
  | item :: items => max (nesting item) (nestingItems items)

def nestingMember : Text × Tree → Nat
  | (_, value) => nesting value

def nestingMembers : List (Text × Tree) → Nat
  | [] => 0
  | member :: members => max (nestingMember member) (nestingMembers members)

end

section Eval

variable {ε α : Type} (hooks : Hooks ε α)

mutual

/-- What the hooks give for a tree. -/
def eval : Tree → Except ε α
  | .null => .ok hooks.null
  | .bool b => .ok (hooks.bool b)
  | .number n =>
      if n.parts.isInteger then hooks.parseInt n.parts.text else hooks.parseFloat n.parts.text
  | .string t => .ok (hooks.string t)
  | .array items => do
      let values ← evalItems items
      return hooks.array values
  | .object members => do
      let pairs ← evalMembers members
      hooks.objectPairs pairs

def evalItems : List Tree → Except ε (List α)
  | [] => .ok []
  | item :: items => do
      let value ← eval item
      let values ← evalItems items
      return value :: values

def evalMember : Text × Tree → Except ε (Text × α)
  | (name, value) => do
      let value ← eval value
      return (name, value)

def evalMembers : List (Text × Tree) → Except ε (List (Text × α))
  | [] => .ok []
  | member :: members => do
      let pair ← evalMember member
      let pairs ← evalMembers members
      return pair :: pairs

end

end Eval

end Json
end Base
end Bluetape
