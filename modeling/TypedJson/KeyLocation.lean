import TypedJson.Json.Quoted
import TypedJson.Position
import TypedJson.Text.Blank

/-! # Where a path of names leads in a text

A path of dotted names is looked up in JSON text by its spelling alone: each name is searched as a
quoted string before a colon, from the end of the name before it on. The text need not be well-formed.
-/

namespace TypedJson.KeyLocation

/-- The text begins with the quoted name, and a colon follows after white space. -/
def isKey (quoted text : List Char) : Bool :=
  quoted.isPrefixOf text && (Text.trimStart (text.drop quoted.length)).head? = some ':'

/-- The number of characters before the first quoted name that is a key. A quoted name that is no key
is passed over as a whole; the number says how much of it is left. -/
def search (quoted : List Char) : Nat → List Char → Option Nat
  | _, [] => none
  | passing + 1, _ :: rest => (search quoted passing rest).map (· + 1)
  | 0, c :: rest =>
    if isKey quoted (c :: rest) then some 0
    else if quoted.isPrefixOf (c :: rest) then (search quoted (quoted.length - 1) rest).map (· + 1)
    else (search quoted 0 rest).map (· + 1)

/-- The places around the first key with a name, from a place in the text on. -/
def find? (text : List Char) (start : Nat) (name : List Char) : Option (Nat × Nat) :=
  let quoted := Quoted.encode name
  (search quoted 0 (text.drop start)).map fun before =>
    (start + before, start + before + quoted.length)

/-- The places around the last of the names that can be found one after the other. -/
def follow (text : List Char) : Option (Nat × Nat) → List (List Char) → Option (Nat × Nat)
  | found, [] => found
  | found, name :: names =>
    match find? text ((found.map (·.2)).getD 0) name with
    | some next => follow text (some next) names
    | none => found

/-- The range of the deepest name of a dotted path that can be found, or of the whole text. -/
def locate (text path : List Char) : Range :=
  match follow text none (if path = [] then [] else path.splitOn '.') with
  | some (start, stop) => .between text start stop
  | none => .whole text

end TypedJson.KeyLocation
