import TypedJson.Json.ReadError

/-! # Reading values of an expected form

Readers for located trees. A tree that does not have the expected form gives an error at the place
where that shows: after a scalar, and before a bracket or brace. Errors come in the order of the text.
-/

namespace TypedJson

abbrev Reads (α : Type) := Except ReadError α

namespace Node

/-- The error for a tree that has another form than the expected one. -/
def refuse {α : Type} (expected : String) : Node → Reads α
  | .scalar _ value stop => .error (.here (.invalidType value.found expected) stop)
  | .array start _ => .error (.here (.invalidType .sequence expected) start)
  | .object start _ => .error (.here (.invalidType .map expected) start)
  | .broken _ _ fault => .error (.ofFault fault)

def expectString (node : Node) : Reads String :=
  match node with
  | .scalar _ (.string value) _ => .ok value
  | other => other.refuse "a string"

/-- Expects a natural number below a bound; the name of its word is for messages. -/
def expectNatural (bound : Nat) (word : String) (node : Node) : Reads Nat :=
  match node with
  | .scalar _ (.number (.natural n)) stop =>
    if n.toNat < bound then .ok n.toNat
    else .error (.here (.invalidValue (.number (.natural n)) word) stop)
  | .scalar _ (.number (.negative n)) stop => .error (.here (.invalidValue (.number (.negative n)) word) stop)
  | other => other.refuse word

/-- The value that a name stands for, from a list of all of them. -/
def lookupVariant {α : Type} (variants : List (String × α)) (name : String) (mark : Mark) : Reads α :=
  match getMember? name variants with
  | some value => .ok value
  | none => .error (.here (.unknownVariant name (variants.map (·.1))) mark)

def expectUnit (node : Node) : Reads Unit :=
  match node with
  | .scalar _ .null _ => .ok ()
  | other => other.refuse "unit"

/-- Expects one of several names, as a string or as the only name of an object whose value is null. -/
def expectVariant {α : Type} (variants : List (String × α)) (node : Node) : Reads α :=
  match node with
  | .scalar _ (.string name) stop => lookupVariant variants name stop
  | .object _ members =>
    match members with
    | .close stop => .error (.here (.syntaxFault .expectedValue) stop)
    | .broken _ found => found.refuse "variant identifier"
    | .unpaired name stop _ fault => do
      let _ ← lookupVariant variants name stop
      .error (.ofFault fault)
    | .member name stop _ value rested rest => do
      let variant ← lookupVariant variants name stop
      value.expectUnit.mapError (.below (.key name))
      match rest with
      | .close _ => .ok variant
      | .broken ⟨.objectEnd, mark⟩ _ => .error (.here (.syntaxFault .objectEnd) mark)
      | _ => .error (.here (.syntaxFault .expectedValue) rested)
  | .broken start (some first) fault =>
    if first = '"' ∨ first = '\x7b' then .error (.ofFault fault)
    else .error (.here (.syntaxFault .expectedValue) (start.afterByte first))
  | .broken _ none fault => .error (.ofFault fault)
  | .scalar start _ _ | .array start _ =>
    .error (.here (.syntaxFault .expectedValue) ⟨start.line, start.column + 1⟩)

end Node

namespace Items

/-- Expects items of one form, the first of which has the given number. -/
def expectAll {α : Type} (expect : Node → Reads α) : Items → Nat → Reads (List α)
  | .close _, _ => .ok []
  | .broken fault, _ => .error (.ofFault fault)
  | .item head rest, number => do
    let value ← (expect head).mapError (.below (.index number))
    let others ← rest.expectAll expect (number + 1)
    .ok (value :: others)

def firstByte : Node → Mark
  | .scalar start _ _ | .array start _ | .object start _ => ⟨start.line, start.column + 1⟩
  | .broken start (some first) _ => start.afterByte first
  | .broken start none _ => start

def expectEnd : Items → Reads Unit
  | .close _ => .ok ()
  | .broken fault =>
    match fault.reason with
    | .listEnd | .trailingComma => .error (.ofFault fault)
    | _ => .error (.here (.syntaxFault .trailingCharacters) fault.mark)
  | .item head _ => .error (.here (.syntaxFault .trailingCharacters) (firstByte head))

/-- Reads one item per reader; readers without an item leave the record as it is, and there may be
no more items than readers. -/
def expectRecord {σ : Type} : List (σ → Node → Reads σ) → Nat → σ → Items → Reads σ
  | [], _, record, items => (items.expectEnd).map fun _ => record
  | _ :: _, _, record, .close _ => .ok record
  | _ :: _, _, _, .broken fault => .error (.ofFault fault)
  | read :: readers, number, record, .item head rest => do
    let record ← (read record head).mapError (.below (.index number))
    expectRecord readers (number + 1) record rest

end Items

def Node.expectList {α : Type} (expect : Node → Reads α) (node : Node) : Reads (List α) :=
  match node with
  | .array _ items => items.expectAll expect 0
  | other => other.refuse "a sequence"

/-- The fields of a record that is read: their names, and how each changes the record. -/
structure FieldReader (σ : Type) where
  name : String
  read : σ → Node → Reads σ

namespace Members

/-- Reads the members of an object into a record. Every name must be one of the fields, and none may
come twice. -/
def expectRecord {σ : Type} (fields : List (FieldReader σ)) : List String → σ → Members → Reads σ
  | _, record, .close _ => .ok record
  | _, _, .broken fault _ => .error ((ReadError.ofFault fault).below .unknown)
  | seen, _, .unpaired name _ settled fault =>
    if !(fields.any (·.name = name)) then
      .error ((ReadError.here (.unknownField name (fields.map (·.name))) settled).below (.key name))
    else if seen.contains name then .error (.here (.duplicateField name) settled)
    else .error (.ofFault fault)
  | seen, record, .member name _ settled value _ rest =>
    match fields.find? (·.name = name) with
    | none => .error ((ReadError.here (.unknownField name (fields.map (·.name))) settled).below (.key name))
    | some field =>
      if seen.contains name then .error (.here (.duplicateField name) settled)
      else do
        let record ← (field.read record value).mapError (.below (.key name))
        expectRecord fields (name :: seen) record rest

end Members

/-- Expects a record, as an object or as an array of its first fields in order. -/
def Node.expectRecord {σ : Type} (title : String) (fields : List (FieldReader σ)) (default : σ)
    (node : Node) : Reads σ :=
  match node with
  | .object _ members => members.expectRecord fields [] default
  | .array _ items => items.expectRecord (fields.map (·.read)) 0 default
  | other => other.refuse title

end TypedJson
