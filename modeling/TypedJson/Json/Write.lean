import TypedJson.Json.Basic

/-! # Writing JSON text

The compact text of a value: no white space, strings quoted, numbers with the fewest digits.
-/

namespace TypedJson.Json

mutual

/-- The compact text of a value. -/
def write : Json → List Char
  | null => ['n', 'u', 'l', 'l']
  | bool true => ['t', 'r', 'u', 'e']
  | bool false => ['f', 'a', 'l', 's', 'e']
  | number value => value.text.toList
  | string value => Quoted.encode value.toList
  | array items => '[' :: writeItems items ++ [']']
  | object members => '\x7b' :: writeMembers members ++ ['\x7d']

def writeItems : List Json → List Char
  | [] => []
  | [last] => last.write
  | item :: rest => item.write ++ ',' :: writeItems rest

def writeMembers : List (String × Json) → List Char
  | [] => []
  | [(name, value)] => Quoted.encode name.toList ++ ':' :: value.write
  | (name, value) :: rest => Quoted.encode name.toList ++ ':' :: value.write ++ ',' :: writeMembers rest

end

end TypedJson.Json
