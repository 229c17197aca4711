import TypedJson.Proofs.Decimal.Notation
import TypedJson.Proofs.Description.Alike
import TypedJson.Proofs.StringLiteral
import TypedJson.Proofs.TypeTag

/-! # What the description of a type tells

A description is read from its first character on: a word goes on as far as its characters do, a string literal
ends at its quote, and parentheses, braces and separators close and divide the rest. So its text tells which values
conform to the type, and where the description ends in a longer text, by induction on the type. Of the types that
share a description, a union and an intersection of one type accept what that type does, and numbers that are
written in the same way are equal.
-/

namespace TypedJson.Ty

variable {policy : UnsupportedPolicy} {type other member member' : Ty} {members members' : List Ty}
  {properties properties' : List (Property Ty)} {text text' rest rest' : List Char} {c : Char}

/-! ## Descriptions in parts -/

/-- A type as it is listed in the description of a compound type. -/
def operandText (operand : Ty) : List Char :=
  if operand.isCompound then '(' :: (operand.describe.toList ++ [')']) else operand.describe.toList

/-- A property as it is listed in the description of an object type. -/
def propertyText (property : Property Ty) : List Char :=
  property.name.toList ++ ((if property.optional then ['?'] else []) ++ ':' :: ' ' :: property.type.describe.toList)

theorem describeMembers_eq_map (members : List Ty) :
    (describeMembers members).map String.toList = members.map operandText := by
  induction members with
  | nil => rfl
  | cons member rest ih =>
    rw [describeMembers, List.map_cons, List.map_cons, ih, operandText]
    split
    · simp
    · rfl

theorem describeProperties_eq_map (properties : List (Property Ty)) :
    (describeProperties properties).map String.toList = properties.map propertyText := by
  induction properties with
  | nil => rfl
  | cons property rest ih =>
    obtain ⟨name, type, optional⟩ := property
    cases optional <;> simp [describeProperties, propertyText, ih]

/-- A list with separators, as its first entry and what follows it. -/
theorem intercalate_cons_eq_flatMap {α : Type} (separator first : List α) (entries : List (List α)) :
    separator.intercalate (first :: entries) = first ++ entries.flatMap (separator ++ ·) := by
  induction entries generalizing first with
  | nil => simp
  | cons entry entries ih =>
    rw [List.intercalate_cons_cons, ih, List.flatMap_cons, List.append_assoc, List.append_assoc]

/-- What follows the first operand in a description. -/
def laterText (joint : Joint) (operands : List Ty) : List Char := operands.flatMap (joint.text ++ ·.operandText)

theorem describe_eq_operands (legible : type.isLegible = true) : ∃ first later,
    type.operands = first :: later ∧ type.describe.toList = first.operandText ++ laterText type.joint later := by
  have listed (separator : String) (first : Ty) (later : List Ty) :
      (joinMembers separator (describeMembers (first :: later))).toList =
        first.operandText ++ later.flatMap (separator.toList ++ ·.operandText) := by
    have given : (describeMembers (first :: later)).isEmpty = false := rfl
    rw [joinMembers, given, if_neg Bool.false_ne_true, String.toList_intercalate, describeMembers_eq_map,
      List.map_cons, intercalate_cons_eq_flatMap, List.flatMap_map]
  cases type with
  | union members =>
    cases members with
    | nil => exact ⟨never, [], rfl, rfl⟩
    | cons first later => exact ⟨first, later, rfl, by rw [describe]; exact listed ..⟩
  | intersection members =>
    cases members with
    | nil => cases legible
    | cons first later => exact ⟨first, later, rfl, by rw [describe]; exact listed ..⟩
  | _ => exact ⟨_, [], rfl, by simp [operandText, isCompound, laterText]⟩

/-- What follows the brace in the description of an object type. -/
def bodyText : List (Property Ty) → List Char
  | [] => ['}']
  | first :: later => ' ' :: (propertyText first ++ (later.flatMap ([';', ' '] ++ propertyText ·) ++ [' ', '}']))

theorem describe_object (properties : List (Property Ty)) :
    (object properties).describe.toList = '{' :: bodyText properties := by
  cases properties with
  | nil => rfl
  | cons first later =>
    have given : (first :: later).isEmpty = false := rfl
    rw [describe, given, if_neg Bool.false_ne_true, String.toList_append, String.toList_append,
      String.toList_intercalate, describeProperties_eq_map, List.map_cons, intercalate_cons_eq_flatMap,
      List.flatMap_map, bodyText]
    simp

/-! ## Where words and lists end -/

/-- Characters of one kind end where one of another kind follows. -/
theorem append_inj_of_all {test : Char → Bool} (all : ∀ c ∈ text, test c = true) (all' : ∀ c ∈ text', test c = true)
    (stops : ∀ c ∈ rest.head?, test c = false) (stops' : ∀ c ∈ rest'.head?, test c = false)
    (same : text ++ rest = text' ++ rest') : text = text' ∧ rest = rest' := by
  have none {rest : List Char} (stops : ∀ c ∈ rest.head?, test c = false) : rest.takeWhile test = [] := by
    cases rest with
    | nil => rfl
    | cons c rest => rw [List.takeWhile_cons, stops c rfl, if_neg Bool.false_ne_true]
  have taken := congrArg (List.takeWhile test) same
  rw [List.takeWhile_append_of_pos all, List.takeWhile_append_of_pos all', none stops, none stops', List.append_nil,
    List.append_nil] at taken
  subst taken
  exact ⟨rfl, List.append_cancel_left same⟩

/-- Two lists of entries with separators between them are told entry by entry, if the text of an entry tells the
entry and where it ends. -/
theorem listed_told {α : Type} {related : α → α → Prop} {after : List Char → Prop} {entryText : α → List Char}
    {separator separator' : List Char} {first first' : α} {later later' : List α}
    (told : ∀ entry ∈ first :: later, ∀ entry' ∈ first' :: later', ∀ more more', after more → after more' →
      entryText entry ++ more = entryText entry' ++ more' → related entry entry' ∧ more = more')
    (sized : separator.length = separator'.length) (separates : ∀ more, after (separator ++ more))
    (separates' : ∀ more, after (separator' ++ more)) (ends : after rest) (ends' : after rest')
    (apart : ∀ more, rest' ≠ separator ++ more) (apart' : ∀ more, rest ≠ separator' ++ more)
    (same : entryText first ++ (later.flatMap (separator ++ entryText ·) ++ rest) =
      entryText first' ++ (later'.flatMap (separator' ++ entryText ·) ++ rest')) :
    List.Forall₂ related (first :: later) (first' :: later') ∧ rest = rest' ∧
      (later = [] ∨ separator = separator') := by
  have follows {separator rest : List Char} (list : List α) (separates : ∀ more, after (separator ++ more))
      (ends : after rest) : after (list.flatMap (separator ++ entryText ·) ++ rest) := by
    cases list with
    | nil => exact ends
    | cons entry list =>
      rw [List.flatMap_cons, List.append_assoc, List.append_assoc]
      exact separates _
  induction later generalizing first first' later' with
  | nil =>
    obtain ⟨related, same⟩ := told first List.mem_cons_self first' List.mem_cons_self _ _ ends
      (follows later' separates' ends') same
    cases later' with
    | nil => exact ⟨.cons related .nil, same, .inl rfl⟩
    | cons second' later' =>
      rw [List.flatMap_cons, List.append_assoc, List.append_assoc] at same
      exact absurd same (apart' _)
  | cons second later ih =>
    obtain ⟨related, same⟩ := told first List.mem_cons_self first' List.mem_cons_self _ _
      (follows (second :: later) separates ends) (follows later' separates' ends') same
    cases later' with
    | nil =>
      rw [List.flatMap_cons, List.append_assoc, List.append_assoc] at same
      exact absurd same.symm (apart _)
    | cons second' later' =>
      rw [List.flatMap_cons, List.flatMap_cons, List.append_assoc, List.append_assoc, List.append_assoc,
        List.append_assoc] at same
      obtain ⟨separator_eq, same⟩ := List.append_inj same sized
      obtain ⟨laterRelated, same, -⟩ := ih (fun entry listed entry' listed' =>
        told entry (List.mem_cons_of_mem _ listed) entry' (List.mem_cons_of_mem _ listed')) same
      exact ⟨.cons related laterRelated, same, .inr separator_eq⟩

/-- What can follow a description: nothing, or what closes or continues the form that it stands in. -/
inductive Ends : List Char → Prop
  | nil : Ends []
  | group (rest : List Char) : Ends (')' :: rest)
  | property (rest : List Char) : Ends (';' :: rest)
  | object (rest : List Char) : Ends (' ' :: '}' :: rest)

/-- What can follow an operand in a description. -/
inductive Follows : List Char → Prop
  | ends {rest : List Char} (ends : Ends rest) : Follows rest
  | joint (joint : Joint) (rest : List Char) : Follows (joint.text ++ rest)

theorem Joint.text_inj {joint joint' : Joint} (same : joint.text = joint'.text) : joint = joint' := by
  cases joint <;> cases joint' <;> first | rfl | cases same

theorem Ends.ne_joint (ends : Ends rest) (joint : Joint) (more : List Char) : rest ≠ joint.text ++ more := by
  rintro rfl
  cases joint <;> cases ends

/-- The characters of keywords and numbers. -/
def isWordCharacter (c : Char) : Bool := c.isAlphanum || c = '.' || c = '-'

theorem Follows.stops (follows : Follows rest) : ∀ c ∈ rest.head?, isWordCharacter c = false := by
  rintro c head
  cases follows with
  | ends ends => cases ends <;> cases head <;> decide
  | joint joint rest => cases joint <;> cases head <;> decide

/-! ## Words -/

theorem isWordCharacter_of_isDigit (digit : c.isDigit = true) : isWordCharacter c = true := by
  simp [isWordCharacter, Char.isAlphanum, digit]

theorem isWordCharacter_of_written {x : Float} (written : Written x text) : ∀ c ∈ text, isWordCharacter c = true := by
  have numeral {text : List Char} {v : ℚ} (denotes : Decimal.Denotes text v) :
      ∀ c ∈ text, isWordCharacter c = true := fun c member => by
    rcases denotes.each c member with digit | rfl
    · exact isWordCharacter_of_isDigit digit
    · decide
  cases written with
  | nan => exact List.all_eq_true.mp rfl
  | infinite => exact List.all_eq_true.mp rfl
  | negativeInfinite => exact List.all_eq_true.mp rfl
  | finite _ _ denotes => exact numeral denotes
  | negative _ _ denotes => exact List.forall_mem_cons.mpr ⟨rfl, numeral denotes⟩

/-- The text of a number begins with a digit or a sign, or is the name of what is no finite number. -/
theorem exists_head_of_written {x : Float} (written : Written x text) : ∃ c rest, text = c :: rest ∧
    (c.isDigit = true ∨ c = '-' ∨ text = ['N', 'a', 'N'] ∨ text = ['i', 'n', 'f']) := by
  cases written with
  | nan => exact ⟨_, _, rfl, .inr (.inr (.inl rfl))⟩
  | infinite => exact ⟨_, _, rfl, .inr (.inr (.inr rfl))⟩
  | negativeInfinite => exact ⟨_, _, rfl, .inr (.inl rfl)⟩
  | finite _ _ denotes =>
    obtain ⟨c, rest, same, digit⟩ := denotes.first
    exact ⟨c, rest, same, .inl digit⟩
  | negative => exact ⟨_, _, rfl, .inr (.inl rfl)⟩

/-- The keywords that describe types. -/
inductive Keyword : Ty → List Char → Prop
  | any : Keyword any ['a', 'n', 'y']
  | never : Keyword never ['n', 'e', 'v', 'e', 'r']
  | null : Keyword null ['n', 'u', 'l', 'l']
  | undefined : Keyword undefined ['u', 'n', 'd', 'e', 'f', 'i', 'n', 'e', 'd']
  | number : Keyword (primitive .number) ['n', 'u', 'm', 'b', 'e', 'r']
  | string : Keyword (primitive .string) ['s', 't', 'r', 'i', 'n', 'g']
  | boolean : Keyword (primitive .boolean) ['b', 'o', 'o', 'l', 'e', 'a', 'n']

/-- The types that are described by one word. -/
inductive Word : Ty → List Char → Prop
  | keyword {type : Ty} {text : List Char} (keyword : Keyword type text) : Word type text
  | number (x : Float) : Word (numberLiteral x) (literalText x).toList

theorem Keyword.inj (keyword : Keyword type text) (keyword' : Keyword other text) : type = other := by
  cases keyword <;> cases keyword' <;> rfl

theorem Keyword.ne_literalText (keyword : Keyword type text) (x : Float) : (literalText x).toList ≠ text := by
  intro same
  obtain ⟨c, rest, rfl, head⟩ := exists_head_of_written (same ▸ written_literalText x)
  cases keyword <;> simp at head

theorem Word.all (word : Word type text) : ∀ c ∈ text, isWordCharacter c = true := by
  cases word with
  | keyword keyword =>
    rw [← List.all_eq_true]
    cases keyword <;> decide
  | number x => exact isWordCharacter_of_written (written_literalText x)

theorem Word.ne_nil (word : Word type text) : text ≠ [] := by
  cases word with
  | keyword keyword => cases keyword <;> nofun
  | number x =>
    obtain ⟨c, rest, same, -⟩ := exists_head_of_written (written_literalText x)
    rw [same]
    nofun

/-- A word begins with none of the characters that begin the other forms. -/
theorem Word.append_ne (word : Word type text) (other : isWordCharacter c = false) : text ++ rest ≠ c :: rest' := by
  obtain ⟨first, later, rfl⟩ := List.exists_cons_of_ne_nil word.ne_nil
  intro same
  obtain rfl := (List.cons.inj same).1
  exact absurd (word.all first List.mem_cons_self) (by simp [other])

/-- The same word describes types that accept the same. Numbers that are written in the same way are equal to the
same numbers. -/
theorem Word.alike (word : Word type text) (word' : Word other text) : Alike policy type other := by
  generalize written : text = text' at word'
  cases word with
  | keyword keyword =>
    cases word' with
    | keyword keyword' => exact keyword.inj (written ▸ keyword') ▸ Alike.refl type
    | number x => exact absurd written.symm (keyword.ne_literalText x)
  | number x =>
    cases word' with
    | keyword keyword' => exact absurd written (keyword'.ne_literalText x)
    | number y =>
      intro value _
      have equal := beq_congr_of_literalText (String.toList_inj.mp written)
      constructor <;> intro conforms <;> cases conforms with | numberLiteral same => ?_
      · exact .numberLiteral (equal _ ▸ same)
      · exact .numberLiteral (equal _ ▸ same)

/-! ## What an operand tells -/

/-- The forms in which an operand is listed. -/
inductive OperandForm : Ty → List Char → Prop
  | group {operand : Ty} (compound : operand.isCompound = true) :
      OperandForm operand ('(' :: (operand.describe.toList ++ [')']))
  | quoted (text : String) :
      OperandForm (stringLiteral text) (StringLiteral.quote (text.toList.flatMap Quoted.encodeChar))
  | object (properties : List (Property Ty)) : OperandForm (object properties) ('{' :: bodyText properties)
  | word {operand : Ty} {text : List Char} (word : Word operand text) : OperandForm operand text

theorem operandText_of_isCompound (compound : type.isCompound = true) :
    type.operandText = '(' :: (type.describe.toList ++ [')']) := if_pos compound

theorem operandText_stringLiteral (text : String) :
    (stringLiteral text).operandText = StringLiteral.quote (text.toList.flatMap Quoted.encodeChar) := by
  simp [operandText, isCompound, describe, Quoted.encode, StringLiteral.quote]

theorem operandText_object (properties : List (Property Ty)) :
    (object properties).operandText = '{' :: bodyText properties := describe_object properties

theorem operandForm (legible : type.isLegible = true) : OperandForm type type.operandText := by
  cases type with
  | union members => exact .group rfl
  | intersection members => exact .group rfl
  | object properties => exact operandText_object properties ▸ .object properties
  | stringLiteral text => exact operandText_stringLiteral text ▸ .quoted text
  | any => exact .word (.keyword .any)
  | never => exact .word (.keyword .never)
  | null => exact .word (.keyword .null)
  | undefined => exact .word (.keyword .undefined)
  | primitive p =>
    cases p
    · exact .word (.keyword .number)
    · exact .word (.keyword .string)
    · exact .word (.keyword .boolean)
  | numberLiteral x => exact .word (.number x)
  | unsupported name => cases legible

/-- The text of an operand tells what conforms to it, and where the text ends in a longer one. -/
def OperandTold (policy : UnsupportedPolicy) (operand : Ty) : Prop :=
  ∀ operand' rest rest', operand'.isLegible = true → Follows rest → Follows rest' →
    operand.operandText ++ rest = operand'.operandText ++ rest' → Alike policy operand operand' ∧ rest = rest'

/-- A description tells what conforms to the type, and where the description ends in a longer text. -/
def Told (policy : UnsupportedPolicy) (type : Ty) : Prop :=
  ∀ other rest rest', other.isLegible = true → Ends rest → Ends rest' →
    type.describe.toList ++ rest = other.describe.toList ++ rest' → Alike policy type other ∧ rest = rest'

theorem operandTold_of_word (word : Word type type.operandText) : OperandTold policy type := by
  intro operand' rest rest' legible' follows follows' same
  have form' := operandForm legible'
  generalize type.operandText = text at word same
  generalize operand'.operandText = text' at form' same
  cases form' with
  | group => exact absurd same (word.append_ne (by decide))
  | quoted => exact absurd same (word.append_ne (by decide))
  | object => exact absurd same (word.append_ne (by decide))
  | word word' =>
    obtain ⟨rfl, rfl⟩ := append_inj_of_all word.all word'.all follows.stops follows'.stops same
    exact ⟨word.alike word', rfl⟩

theorem operandTold_stringLiteral (text : String) : OperandTold policy (stringLiteral text) := by
  intro operand' rest rest' legible' _ _ same
  have form' := operandForm legible'
  rw [operandText_stringLiteral] at same
  generalize operand'.operandText = text' at form' same
  cases form' with
  | group => exact absurd (List.cons.inj same).1 (by decide)
  | object => exact absurd (List.cons.inj same).1 (by decide)
  | word word' => exact absurd same.symm (word'.append_ne (by decide))
  | quoted text' =>
    have spells := StringLiteral.spells_encode text.toList
    have spells' := StringLiteral.spells_encode text'.toList
    rw [StringLiteral.quote_append, StringLiteral.quote_append] at same
    obtain ⟨body, rfl⟩ := spells.closed.append_inj spells'.closed (List.cons.inj same).2
    -- Both texts are what the same literal is read as.
    have read := Json.stringOfText?_quote spells
    rw [body, Json.stringOfText?_quote spells', String.ofList_toList, String.ofList_toList] at read
    obtain rfl := Option.some.inj read
    exact ⟨Alike.refl _, rfl⟩

theorem operandTold_of_isCompound (compound : type.isCompound = true) (told : Told policy type) :
    OperandTold policy type := by
  intro operand' rest rest' legible' _ _ same
  have form' := operandForm legible'
  rw [operandText_of_isCompound compound] at same
  generalize operand'.operandText = text' at form' same
  cases form' with
  | quoted => exact absurd (List.cons.inj same).1 (by decide)
  | object => exact absurd (List.cons.inj same).1 (by decide)
  | word word' => exact absurd same.symm (word'.append_ne (by decide))
  | group =>
    have inside := (List.cons.inj same).2
    rw [List.append_eq, List.append_eq, List.append_assoc, List.append_assoc] at inside
    obtain ⟨alike, closed⟩ := told operand' _ _ legible' (.group rest) (.group rest') inside
    exact ⟨alike, (List.cons.inj closed).2⟩

/-- A character of an identifier. -/
def isNameCharacter (c : Char) : Bool := TypeTag.isIdentifierStart c || c.isDigit

theorem property_told {property property' : Property Ty} (told : Told policy property.type)
    (named : TypeTag.isIdentifier property.name.toList = true)
    (named' : TypeTag.isIdentifier property'.name.toList = true) (legible' : property'.type.isLegible = true)
    (ends : Ends rest) (ends' : Ends rest') (same : propertyText property ++ rest = propertyText property' ++ rest') :
    AlikeProperties policy property property' ∧ rest = rest' := by
  have name {property : Property Ty} (named : TypeTag.isIdentifier property.name.toList = true) :
      ∀ c ∈ property.name.toList, isNameCharacter c = true := fun c member =>
    Bool.or_eq_true_iff.mpr (TypeTag.mem_identifier named member)
  have marked (optional : Bool) (more : List Char) :
      ∀ c ∈ ((if optional then ['?'] else []) ++ ':' :: more).head?, isNameCharacter c = false := by
    cases optional <;> rintro c ⟨⟩ <;> decide
  unfold propertyText at same
  rw [List.append_assoc, List.append_assoc, List.append_assoc, List.append_assoc, List.cons_append, List.cons_append,
    List.cons_append, List.cons_append] at same
  obtain ⟨sameName, same⟩ := append_inj_of_all (name named) (name named') (marked _ _) (marked _ _) same
  have typed : property.optional = property'.optional ∧
      property.type.describe.toList ++ rest = property'.type.describe.toList ++ rest' := by
    cases optional : property.optional <;> cases optional' : property'.optional <;> simp_all
  obtain ⟨alike, rfl⟩ := told property'.type _ _ legible' ends ends' typed.2
  exact ⟨⟨String.toList_inj.mp sameName, typed.1, alike⟩, rfl⟩

theorem operandTold_object (legible : (object properties).isLegible = true)
    (told : ∀ property ∈ properties, Told policy property.type) : OperandTold policy (object properties) := by
  intro operand' rest rest' legible' _ _ same
  have form' := operandForm legible'
  rw [operandText_object] at same
  generalize operand'.operandText = text' at form' same
  cases form' with
  | group => exact absurd (List.cons.inj same).1 (by decide)
  | quoted => exact absurd (List.cons.inj same).1 (by decide)
  | word word' => exact absurd same.symm (word'.append_ne (by decide))
  | object properties' =>
    obtain ⟨named, -⟩ := isLegible_object_iff.mp legible
    obtain ⟨named', legible'⟩ := isLegible_object_iff.mp legible'
    have entry : ∀ property ∈ properties, ∀ property' ∈ properties', ∀ more more', Ends more → Ends more' →
        propertyText property ++ more = propertyText property' ++ more' →
          AlikeProperties policy property property' ∧ more = more' :=
      fun property listed property' listed' more more' => property_told (told property listed) (named property listed)
        (named' property' listed') (legible' property' listed')
    have inside := (List.cons.inj same).2
    cases properties with
    | nil =>
      cases properties' with
      | nil => exact ⟨Alike.refl _, (List.cons.inj inside).2⟩
      | cons => exact absurd (List.cons.inj inside).1 (by decide)
    | cons first later =>
      cases properties' with
      | nil => exact absurd (List.cons.inj inside).1 (by decide)
      | cons first' later' =>
        have listed := (List.cons.inj inside).2
        rw [List.append_eq, List.append_eq, List.append_assoc, List.append_assoc, List.append_assoc,
          List.append_assoc] at listed
        have separates (more : List Char) : Ends ([';', ' '] ++ more) := .property (' ' :: more)
        obtain ⟨alike, closed, -⟩ := listed_told entry rfl separates separates (.object rest) (.object rest')
          (by simp) (by simp) listed
        exact ⟨alike_object alike, (List.cons.inj (List.cons.inj closed).2).2⟩

theorem told_of_operands (legible : type.isLegible = true)
    (told : ∀ operand ∈ type.operands, OperandTold policy operand) : Told policy type := by
  intro other rest rest' legible' ends ends' same
  obtain ⟨first, later, listed, described⟩ := describe_eq_operands legible
  obtain ⟨first', later', listed', described'⟩ := describe_eq_operands legible'
  rw [described, described', List.append_assoc, List.append_assoc] at same
  have entry : ∀ operand ∈ first :: later, ∀ operand' ∈ first' :: later', ∀ more more', Follows more →
      Follows more' → operand.operandText ++ more = operand'.operandText ++ more' →
        Alike policy operand operand' ∧ more = more' := fun operand inside operand' inside' more more' =>
    told operand (listed ▸ inside) operand' more more' (isLegible_operand legible' (listed' ▸ inside'))
  have sized (joint joint' : Joint) : joint.text.length = joint'.text.length := by
    cases joint <;> cases joint' <;> rfl
  obtain ⟨alike, closed, joint⟩ := listed_told entry (sized _ _) (.joint _) (.joint _) (.ends ends) (.ends ends')
    (ends'.ne_joint _) (ends.ne_joint _) same
  rw [← listed, ← listed'] at alike
  refine ⟨Alike.of_operands alike ?_, closed⟩
  rcases joint with rfl | joint
  · exact .inr (listed ▸ rfl)
  · exact .inl (Joint.text_inj joint)

/-- Descriptions of legible types are told, by themselves and as operands. -/
theorem told (legible : type.isLegible = true) : OperandTold policy type ∧ Told policy type := by
  -- A type that is no compound one lists itself.
  have single {type : Ty} (legible : type.isLegible = true) (alone : type.operands = [type])
      (operand : OperandTold policy type) : OperandTold policy type ∧ Told policy type :=
    ⟨operand, told_of_operands legible fun member listed => List.mem_singleton.mp (alone ▸ listed) ▸ operand⟩
  induction type with
  | any => exact single legible rfl (operandTold_of_word (.keyword .any))
  | never => exact single legible rfl (operandTold_of_word (.keyword .never))
  | null => exact single legible rfl (operandTold_of_word (.keyword .null))
  | undefined => exact single legible rfl (operandTold_of_word (.keyword .undefined))
  | numberLiteral x => exact single legible rfl (operandTold_of_word (.number x))
  | primitive p =>
    cases p
    · exact single legible rfl (operandTold_of_word (.keyword .number))
    · exact single legible rfl (operandTold_of_word (.keyword .string))
    · exact single legible rfl (operandTold_of_word (.keyword .boolean))
  | stringLiteral text => exact single legible rfl (operandTold_stringLiteral text)
  | object properties ih =>
    have types := (isLegible_object_iff.mp legible).2
    exact single legible rfl (operandTold_object legible fun property listed =>
      (ih property listed (types property listed)).2)
  | union members ih =>
    have whole : Told policy (union members) := by
      refine told_of_operands legible fun member listed => ?_
      cases members with
      | nil => exact List.mem_singleton.mp listed ▸ operandTold_of_word (.keyword .never)
      | cons => exact (ih member listed (isLegible_union_iff.mp legible member listed)).1
    exact ⟨operandTold_of_isCompound rfl whole, whole⟩
  | intersection members ih =>
    have whole : Told policy (intersection members) := told_of_operands legible fun member listed =>
      (ih member listed ((isLegible_intersection_iff.mp legible).2 member listed)).1
    exact ⟨operandTold_of_isCompound rfl whole, whole⟩
  | unsupported name => cases legible

theorem alike_of_describe_eq (legible : type.isLegible = true) (legible' : other.isLegible = true)
    (same : type.describe = other.describe) : Alike policy type other :=
  ((told legible).2 other [] [] legible' .nil .nil (by rw [same])).1

/-- Types that are described in the same way accept the same present values, and both accept absence or neither if
no union of nothing refuses it. What is described as `never` accepts no present value. -/
theorem mismatches_of_describe_eq (legible : type.isLegible = true) (legible' : other.isLegible = true)
    (same : type.describe = other.describe) (policy : UnsupportedPolicy) (path : String) :
    (∀ value, type.mismatches policy (some value) path = [] ↔ other.mismatches policy (some value) path = []) ∧
    (type.isFilled = true → other.isFilled = true →
      (type.mismatches policy none path = [] ↔ other.mismatches policy none path = [])) ∧
    (type.describe = "never" → ∀ value, type.mismatches policy (some value) path ≠ []) := by
  have alike : Alike policy type other := alike_of_describe_eq legible legible' same
  simp only [Ne, mismatches_eq_nil_iff]
  refine ⟨fun value => alike (some value) nofun, fun filled filled' => alike none fun _ => ⟨filled, filled'⟩,
    fun empty value conforms => ?_⟩
  have empty_alike : Alike policy type never := alike_of_describe_eq legible rfl empty
  have refused := (empty_alike (some value) nofun).mp conforms
  cases refused

/-- A union and an intersection of one type are described as that type; a union of nothing is described as
`never`. -/
theorem mismatches_of_describe_eq_single :
    let mode (choices : Ty) : Ty := object [⟨"mode", choices, true⟩]
    let type := union [mode (union [null, union [stringLiteral "on"]])]
    let other := intersection [mode (union [null, intersection [stringLiteral "on"]])]
    (type.isLegible = true ∧ other.isLegible = true ∧ type.describe = "\x7b mode?: null | (\"on\") \x7d" ∧
      other.describe = type.describe ∧ type.isFilled = true ∧ other.isFilled = true) ∧
    (∀ value, type.mismatches .report (some value) "" = [] ↔ other.mismatches .report (some value) "" = []) ∧
    (type.mismatches .report none "" = [] ↔ other.mismatches .report none "" = []) ∧
    (union []).isLegible = true ∧ (union []).describe = "never" ∧
      ∀ value, (union []).mismatches .report (some value) "" ≠ [] := by
  intro mode type other
  have shown : type.isLegible = true ∧ other.isLegible = true ∧
      type.describe = "\x7b mode?: null | (\"on\") \x7d" ∧ other.describe = type.describe ∧
      type.isFilled = true ∧ other.isFilled = true := by decide +kernel
  obtain ⟨legible, legible', written, same, filled, filled'⟩ := shown
  obtain ⟨present, absent, -⟩ := mismatches_of_describe_eq legible legible' same.symm .report ""
  have empty : (union []).isLegible = true ∧ (union []).describe = "never" := by decide
  have never := (mismatches_of_describe_eq empty.1 empty.1 rfl .report "").2.2 empty.2
  exact ⟨⟨legible, legible', written, same, filled, filled'⟩, present, absent filled filled', empty.1, empty.2, never⟩

/-- An intersection of nothing is described as `never` and accepts a number; a union of nothing is described as
`never` and refuses absence. -/
theorem mismatches_ne_of_describe_eq :
    ((intersection []).everyPart true isPlain = true ∧ never.everyPart true isPlain = true ∧
      (intersection []).describe = never.describe ∧
      (intersection []).mismatches .permit (some (.number (.natural 1))) "" = [] ∧
      never.mismatches .permit (some (.number (.natural 1))) "" ≠ []) ∧
    (union []).everyPart true isPlain = true ∧ (union []).describe = never.describe ∧
      never.mismatches .permit none "" = [] ∧ (union []).mismatches .permit none "" ≠ [] := by
  refine ⟨⟨rfl, rfl, rfl, rfl, nofun⟩, rfl, rfl, rfl, ?_⟩
  decide

end TypedJson.Ty
