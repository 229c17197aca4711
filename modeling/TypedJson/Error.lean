import TypedJson.Json.ReadError
import TypedJson.Path

/-! # Errors

What can go wrong in validating a document, with the wording that is shown.
-/

namespace TypedJson

inductive Error where
  | invalidJson (fault : Fault)
  | sourceNotFound (source : Path)
  | typeNotFound (name : String) (source : Path)
  | invalidModule (source : Path) (message : String)
  | checkerFailed (message : String)
  | invalidConfiguration (file : Path) (message : String)
  | system (message : String)

def Error.message : Error → String
  | .invalidJson fault => "document is not valid JSON: " ++ fault.message
  | .sourceNotFound source => "type source not found: " ++ source.text
  | .typeNotFound name source => "type " ++ ticked name ++ " is not exported by " ++ source.text
  | .invalidModule source message => "invalid type module " ++ source.text ++ ": " ++ message
  | .checkerFailed message => "external checker failed: " ++ message
  | .invalidConfiguration file message => "invalid configuration " ++ file.text ++ ": " ++ message
  | .system message => message

end TypedJson
