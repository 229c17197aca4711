import TypedJson.Position

/-! # Completion items

What a language service suggests at a cursor in the artifact, and how that is shaped for the document:
only fields, properties and constants with plain labels are kept, and the name of a field is put
between quotes unless the cursor stands between quotes already.
-/

namespace TypedJson

inductive CompletionKind where
  | field
  | property
  | constant
  | snippet
  | other
  deriving DecidableEq, Repr

inductive CompletionLabel where
  | plain (text : String)
  | detailed (text : String) (description : Option String)
  deriving DecidableEq, Repr

inductive InsertText where
  | plain (text : String)
  | snippet (text : String)
  deriving DecidableEq, Repr

structure CompletionItem where
  label : CompletionLabel
  kind : CompletionKind
  insertText : Option InsertText
  sortText : Option String
  preselect : Bool
  deriving DecidableEq, Repr

def CompletionLabel.text : CompletionLabel → String
  | plain text => text
  | detailed text _ => text

def CompletionLabel.isPlain : CompletionLabel → Bool
  | plain _ => true
  | detailed _ _ => false

/-- The text that is inserted, a snippet's as it is written. -/
def InsertText.text : InsertText → String
  | plain text => text
  | snippet text => text

namespace CompletionItem

/-- The suggestions that make sense in a document. -/
def isKept (item : CompletionItem) : Bool :=
  (item.kind = .field || item.kind = .property || item.kind = .constant) && item.label.isPlain

/-- The text that a suggestion inserts; without one of its own it is the label. -/
def inserted (item : CompletionItem) : String := (item.insertText.map InsertText.text).getD item.label.text

def shaped (surrounded : Bool) (item : CompletionItem) : CompletionItem :=
  let text := if item.kind = .field && !surrounded then "\"" ++ item.inserted ++ "\"" else item.inserted
  ⟨item.label, item.kind, some (.plain text), none, false⟩

/-- The characters around a position stand on the same line and are both quotes. -/
def isSurrounded (text : List Char) (position : Position) : Bool :=
  let row := ((Text.lines text)[position.line.toNat]?).getD []
  let column := position.character.toNat
  0 < column && row[column - 1]? = some '"' && row[column]? = some '"'

def shapeAll (items : List CompletionItem) (text : List Char) (position : Position) : List CompletionItem :=
  (items.filter isKept).map (shaped (isSurrounded text position))

/-- Documents with a schema of their own do not suggest this name. -/
def schemaLabel : String := "$schema"

/-- The suggestion to give a document a type tag. -/
def typeTag : CompletionItem where
  label := .plain "\"$type\""
  kind := .snippet
  insertText := some (.snippet ": \x7b\n\t\"$$from\": \"$1\",\n\t\"$$import\": \"$2\"\n\x7d$3")
  sortText := some "0"
  preselect := true

/-- The suggestions for a document without a tag: a document for which a schema is suggested is
offered a tag instead. -/
def forUntagged (items : List CompletionItem) : List CompletionItem :=
  if items.any (·.label.text = schemaLabel) then [typeTag] else items

end CompletionItem
end TypedJson
