import TypedJson.Proofs.Conformance
import TypedJson.Proofs.Phrase.Writing
import TypedJson.Proofs.TypeReading

/-! # The spellings of a type

`Ty.Spells` says which values spell a type: objects in which the kind and the field of the kind come once, in any
order and with any other members between them, and the same at every level below. Every such value is read as the
type that it spells (`Ty.ofJson_of_spells`, `Ty.Spells.taken`), and so is every text of it; the text that a type is
written as is one of them (`Ty.exists_writing`).
-/

namespace TypedJson

/-- The values of the members with a name, in order. -/
def valuesOf (name : String) (members : List (String × Json)) : List Json :=
  (members.filter (·.1 = name)).map (·.2)

section

variable {name other : String} {value : Json} {members : List (String × Json)}

@[simp]
theorem valuesOf_cons_self : valuesOf name ((name, value) :: members) = value :: valuesOf name members := by
  simp [valuesOf]

theorem valuesOf_cons_of_ne (foreign : other ≠ name) :
    valuesOf name ((other, value) :: members) = valuesOf name members := by
  simp [valuesOf, foreign]

end

/-- An object spells a form: it names the kind once, and if the kind has a field, the field comes once. -/
def Kind.Spells (kind : Kind) (content : Json → Prop) : Json → Prop
  | .object members => valuesOf "kind" members = [.string kind.name] ∧
      ∀ name ∈ kind.field?, ∃ value, valuesOf name members = [value] ∧ content value
  | _ => False

namespace Ty

mutual

/-- A value spells a type. -/
def Spells : Ty → Json → Prop
  | any => Kind.any.Spells fun _ => True
  | never => Kind.never.Spells fun _ => True
  | null => Kind.null.Spells fun _ => True
  | undefined => Kind.undefined.Spells fun _ => True
  | numberLiteral x => Kind.numberLiteral.Spells fun value => ∃ n, value = .number n ∧ n.toFloat = x
  | stringLiteral text => Kind.stringLiteral.Spells fun value => value = .string text
  | primitive p => Kind.primitive.Spells fun value => value = .string p.text
  | object properties => Kind.object.Spells fun value =>
    ∃ items, value = .array items ∧ PropertiesSpell properties items
  | union members => Kind.union.Spells fun value => ∃ items, value = .array items ∧ MembersSpell members items
  | intersection members =>
    Kind.intersection.Spells fun value => ∃ items, value = .array items ∧ MembersSpell members items
  | unsupported name => Kind.unsupported.Spells fun value => value = .string name

/-- Values spell the members of a compound type one by one. -/
def MembersSpell : List Ty → List Json → Prop
  | [], items => items = []
  | type :: rest, items => ∃ item others, items = item :: others ∧ type.Spells item ∧ MembersSpell rest others

/-- Values spell properties one by one: objects that give the name and the type once, and say once whether the
property is optional, or not at all if it is not. -/
def PropertiesSpell : List (Property Ty) → List Json → Prop
  | [], items => items = []
  | ⟨name, type, optional⟩ :: rest, items => ∃ members others, items = .object members :: others ∧
      valuesOf "name" members = [.string name] ∧
      (∃ value, valuesOf "type" members = [value] ∧ type.Spells value) ∧
      (valuesOf "optional" members = [.bool optional] ∨ valuesOf "optional" members = [] ∧ optional = false) ∧
      PropertiesSpell rest others

end

end Ty

/-! ## Spellings are read -/

section

variable {name : String} {value : Json} {members : List (String × Json)}

theorem getMember?_eq_none_of_valuesOf (absent : valuesOf name members = []) : getMember? name members = none := by
  refine getMember?_eq_none_iff.mpr fun named => ?_
  obtain ⟨⟨_, value⟩, member, rfl⟩ := List.mem_map.mp named
  have present : value ∈ valuesOf _ members :=
    List.mem_map.mpr ⟨(_, value), List.mem_filter.mpr ⟨member, decide_eq_true rfl⟩, rfl⟩
  simp [absent] at present

end

namespace Kind

variable {kind : Kind} {members : List (String × Json)}

/-- Every form is listed under its name. -/
theorem getMember?_name (kind : Kind) : getMember? kind.name kindVariants = some kind := by cases kind <;> rfl

theorem ofMembers_of_valuesOf (once : valuesOf "kind" members = [.string kind.name]) :
    ofMembers members = .ok kind := by
  induction members with
  | nil => cases once
  | cons member members ih =>
    obtain ⟨name, value⟩ := member
    by_cases here : name = "kind"
    · subst here
      rw [valuesOf_cons_self] at once
      obtain ⟨rfl, absent⟩ := List.cons.inj once
      simp only [ofMembers, if_true, ofJson, getMember?_name, getMember?_eq_none_of_valuesOf absent]
      rfl
    · rw [valuesOf_cons_of_ne here] at once
      rw [ofMembers, if_neg here, ih once]

end Kind

namespace Ty

variable {kind : Kind} {type : Ty} {content : Json → Prop} {value : Json} {members others : List (String × Json)}
  {found : Option Ty} {name : String}

/-! ### Kinds and fields -/

theorem collected_of_none (absent : valuesOf "kind" members = []) :
    Collected (some kind) members kind (members.filter (·.1 ≠ "kind")) := by
  induction members with
  | nil => exact .done kind
  | cons member members ih =>
    obtain ⟨name, value⟩ := member
    by_cases here : name = "kind"
    · subst here
      rw [valuesOf_cons_self] at absent
      cases absent
    · rw [valuesOf_cons_of_ne here] at absent
      rw [List.filter_cons_of_pos (by simpa using here)]
      exact .other here (ih absent)

/-- Wherever the kind stands, it is found, and the other members stay in order. -/
theorem collected_of_valuesOf (once : valuesOf "kind" members = [.string kind.name]) :
    Collected none members kind (members.filter (·.1 ≠ "kind")) := by
  induction members with
  | nil => cases once
  | cons member members ih =>
    obtain ⟨name, value⟩ := member
    by_cases here : name = "kind"
    · subst here
      rw [valuesOf_cons_self] at once
      obtain ⟨rfl, absent⟩ := List.cons.inj once
      rw [List.filter_cons_of_neg (by simp)]
      exact .kind kind.getMember?_name (collected_of_none absent)
    · rw [valuesOf_cons_of_ne here] at once
      rw [List.filter_cons_of_pos (by simpa using here)]
      exact .other here (ih once)

theorem ofMembers_of_bare (bare : kind.bare? = some type) (fieldless : kind.field? = none) :
    ofMembers kind found members = .ok type := by
  induction members with
  | nil => simp only [ofMembers, bare]
  | cons member members ih =>
    obtain ⟨name, value⟩ := member
    cases found <;> rw [ofMembers, fieldless, if_neg nofun, ih]

theorem ofMembers_of_some (field : kind.field? = some name) (absent : valuesOf name members = []) :
    ofMembers kind (some type) members = .ok type := by
  induction members with
  | nil =>
    have bare : kind.bare? = none := by cases kind <;> first | rfl | cases field
    simp only [ofMembers, bare]
  | cons member members ih =>
    obtain ⟨other, value⟩ := member
    by_cases here : other = name
    · subst here
      rw [valuesOf_cons_self] at absent
      cases absent
    · rw [valuesOf_cons_of_ne here] at absent
      rw [ofMembers, field, if_neg (fun same => here (Option.some.inj same).symm), ih absent]

theorem ofMembers_of_field (field : kind.field? = some name) (once : valuesOf name members = [value])
    (reads : ofField kind value = .ok type) : ofMembers kind none members = .ok type := by
  induction members with
  | nil => cases once
  | cons member members ih =>
    obtain ⟨other, first⟩ := member
    by_cases here : other = name
    · subst here
      rw [valuesOf_cons_self] at once
      obtain ⟨rfl, absent⟩ := List.cons.inj once
      simp only [ofMembers, field, if_true, reads]
      exact ofMembers_of_some field absent
    · rw [valuesOf_cons_of_ne here] at once
      rw [ofMembers, field, if_neg (fun same => here (Option.some.inj same).symm), ih once]

/-- Leaving out the kind leaves every other member. -/
theorem valuesOf_filter (foreign : name ≠ "kind") :
    valuesOf name (members.filter (·.1 ≠ "kind")) = valuesOf name members := by
  rw [valuesOf, List.filter_filter, valuesOf]
  congr 1
  refine List.filter_congr fun member _ => ?_
  by_cases here : member.1 = name <;> simp [here, foreign]

/-- What spells a form is read as a type of this form, from a plain value and from a tree. -/
theorem read_of_spells (spells : kind.Spells content value) (bare : kind.field? = none → kind.bare? = some type)
    (field : ∀ name ∈ kind.field?, ∀ value, content value → ofField kind value = .ok type) :
    ofJson value = .ok type ∧ Taken value type := by
  cases value with
  | object members =>
    obtain ⟨named, content⟩ := spells
    cases fielded : kind.field? with
    | none =>
      have reads (members : List (String × Json)) : ofMembers kind none members = .ok type :=
        ofMembers_of_bare (bare fielded) fielded
      refine ⟨?_, .object (collected_of_valuesOf named) (reads _)⟩
      rw [ofJson, Kind.ofMembers_of_valuesOf named]
      exact reads members
    | some name =>
      obtain ⟨value, once, content⟩ := content name fielded
      have foreign : name ≠ "kind" := by
        rintro rfl
        cases kind <;> simp [Kind.field?] at fielded
      refine ⟨?_, .object (collected_of_valuesOf named)
        (ofMembers_of_field fielded ((valuesOf_filter foreign).trans once) (field name fielded value content))⟩
      rw [ofJson, Kind.ofMembers_of_valuesOf named]
      exact ofMembers_of_field fielded once (field name fielded value content)
  | _ => exact spells.elim

/-! ### Members and properties -/

theorem membersOfJson_of_spell {types : List Ty} {items : List Json} (spell : MembersSpell types items)
    (reads : ∀ type ∈ types, ∀ value, type.Spells value → ofJson value = .ok type) :
    membersOfJson items = .ok types := by
  induction types generalizing items with
  | nil =>
    cases spell
    rfl
  | cons type types ih =>
    obtain ⟨item, others, rfl, spells, spell⟩ := spell
    obtain ⟨first, reads⟩ := List.forall_mem_cons.mp reads
    rw [membersOfJson, first item spells, ih spell reads]
    rfl

/-- A field has been read and does not come again, or it has not been read and comes once. -/
def Awaits {α : Type} (found : Option α) (wanted : α) (values : List Json) (read : Json → α → Prop) : Prop :=
  (found = some wanted ∧ values = []) ∨ (found = none ∧ ∃ value, values = [value] ∧ read value wanted)

theorem Awaits.cons {α : Type} {found : Option α} {wanted : α} {values : List Json} {read : Json → α → Prop}
    (awaits : Awaits found wanted (value :: values) read) : found = none ∧ values = [] ∧ read value wanted := by
  rcases awaits with ⟨-, absent⟩ | ⟨none, _, once, reads⟩
  · cases absent
  · obtain ⟨rfl, rfl⟩ := List.cons.inj once
    exact ⟨none, rfl, reads⟩

theorem Awaits.nil {α : Type} {found : Option α} {wanted : α} {read : Json → α → Prop}
    (awaits : Awaits found wanted [] read) : found = some wanted := by
  rcases awaits with ⟨some, -⟩ | ⟨-, _, ⟨⟩, -⟩
  exact some

theorem propertyOfMembers_of_awaits {fields : PartialProperty} {optional : Bool}
    (named : Awaits fields.name name (valuesOf "name" members) fun value text => value = .string text)
    (typed : Awaits fields.type type (valuesOf "type" members) fun value type => ofJson value = .ok type)
    (marked : Awaits fields.optional optional (valuesOf "optional" members) (fun value b => value = .bool b) ∨
      valuesOf "optional" members = [] ∧ fields.optional = none ∧ optional = false) :
    propertyOfMembers fields members = .ok ⟨name, type, optional⟩ := by
  induction members generalizing fields with
  | nil =>
    have marked : fields.optional.getD false = optional := by
      rcases marked with awaits | ⟨-, none, rfl⟩
      · rw [awaits.nil, Option.getD_some]
      · rw [none, Option.getD_none]
    rw [propertyOfMembers, PartialProperty.finish, named.nil, typed.nil, marked]
  | cons member members ih =>
    obtain ⟨other, value⟩ := member
    by_cases isName : other = "name"
    · subst isName
      rw [valuesOf_cons_self] at named
      rw [valuesOf_cons_of_ne (by decide)] at typed marked
      obtain ⟨none, absent, rfl⟩ := named.cons
      simp only [propertyOfMembers, if_true, none, Option.isSome_none, Bool.false_eq_true, if_false, stringOfJson]
      exact ih (.inl ⟨rfl, absent⟩) typed marked
    by_cases isType : other = "type"
    · subst isType
      rw [valuesOf_cons_self] at typed
      rw [valuesOf_cons_of_ne (by decide)] at named marked
      obtain ⟨none, absent, reads⟩ := typed.cons
      simp only [propertyOfMembers, if_neg isName, if_true, none, Option.isSome_none, Bool.false_eq_true, if_false,
        reads]
      exact ih named (.inl ⟨rfl, absent⟩) marked
    by_cases isOptional : other = "optional"
    · subst isOptional
      rw [valuesOf_cons_self] at marked
      rw [valuesOf_cons_of_ne (by decide)] at named typed
      obtain ⟨none, absent, rfl⟩ := (marked.resolve_right (by simp)).cons
      simp only [propertyOfMembers, if_neg isName, if_neg isType, if_true, none, Option.isSome_none,
        Bool.false_eq_true, if_false, boolOfJson]
      exact ih named typed (.inl (.inl ⟨rfl, absent⟩))
    · rw [valuesOf_cons_of_ne isName] at named
      rw [valuesOf_cons_of_ne isType] at typed
      rw [valuesOf_cons_of_ne isOptional] at marked
      rw [propertyOfMembers, if_neg isName, if_neg isType, if_neg isOptional]
      exact ih named typed marked

theorem propertiesOfJson_of_spell {properties : List (Property Ty)} {items : List Json}
    (spell : PropertiesSpell properties items)
    (reads : ∀ property ∈ properties, ∀ value, property.type.Spells value → ofJson value = .ok property.type) :
    propertiesOfJson items = .ok properties := by
  induction properties generalizing items with
  | nil =>
    cases spell
    rfl
  | cons property properties ih =>
    obtain ⟨name, type, optional⟩ := property
    obtain ⟨members, others, rfl, named, ⟨value, typed, spells⟩, marked, spell⟩ := spell
    obtain ⟨first, reads⟩ := List.forall_mem_cons.mp reads
    have read : propertyOfJson (.object members) = .ok ⟨name, type, optional⟩ := by
      rw [propertyOfJson]
      refine propertyOfMembers_of_awaits (.inr ⟨rfl, _, named, rfl⟩) (.inr ⟨rfl, _, typed, first value spells⟩) ?_
      exact marked.imp (fun once => .inr ⟨rfl, _, once, rfl⟩) fun ⟨absent, no⟩ => ⟨absent, rfl, no⟩
    rw [propertiesOfJson, read, ih spell reads]
    rfl

/-- Every spelling of a type is read as this type. -/
theorem Spells.read (spells : type.Spells value) : ofJson value = .ok type ∧ Taken value type := by
  induction type generalizing value with
  | any => exact read_of_spells spells (fun _ => rfl) nofun
  | never => exact read_of_spells spells (fun _ => rfl) nofun
  | null => exact read_of_spells spells (fun _ => rfl) nofun
  | undefined => exact read_of_spells spells (fun _ => rfl) nofun
  | numberLiteral x =>
    refine read_of_spells spells nofun ?_
    rintro _ - _ ⟨n, rfl, rfl⟩
    rfl
  | stringLiteral text =>
    refine read_of_spells spells nofun ?_
    rintro _ - _ rfl
    rfl
  | primitive p =>
    refine read_of_spells spells nofun ?_
    rintro _ - _ rfl
    cases p <;> rfl
  | object properties ih =>
    refine read_of_spells spells nofun ?_
    rintro _ - _ ⟨items, rfl, spell⟩
    rw [ofField, propertiesOfJson_of_spell spell fun property member value spells =>
      (ih property member spells).1]
    rfl
  | union members ih =>
    refine read_of_spells spells nofun ?_
    rintro _ - _ ⟨items, rfl, spell⟩
    rw [ofField, membersOfJson_of_spell spell fun type member value spells => (ih type member spells).1]
    rfl
  | intersection members ih =>
    refine read_of_spells spells nofun ?_
    rintro _ - _ ⟨items, rfl, spell⟩
    rw [ofField, membersOfJson_of_spell spell fun type member value spells => (ih type member spells).1]
    rfl
  | unsupported name =>
    refine read_of_spells spells nofun ?_
    rintro _ - _ rfl
    rfl

end Ty

/-! ## Types as they are written -/

/-- A number survives being written and read back by itself. -/
def Survives (x : Float) : Prop :=
  ∃ n, Json.ofText (Number.real x).text.toList = .ok (.number n) ∧ n.toFloat = x

namespace Ty

mutual

/-- The numbers of the literal types in a type. -/
def literals : Ty → List Float
  | numberLiteral x => [x]
  | object properties => propertyLiterals properties
  | union members | intersection members => memberLiterals members
  | _ => []

/-- The numbers of the literal types in members of a compound type. -/
def memberLiterals : List Ty → List Float
  | [] => []
  | type :: rest => type.literals ++ memberLiterals rest

/-- The numbers of the literal types in properties. -/
def propertyLiterals : List (Property Ty) → List Float
  | [] => []
  | ⟨_, type, _⟩ :: rest => type.literals ++ propertyLiterals rest

end

variable {type : Ty} {kind : Kind} {content : Json → Prop}

/-- A form without a field is written as its kind alone. -/
theorem exists_writing_bare (kind : Kind) (content : Json → Prop) (fieldless : kind.field? = none) :
    ∃ writing : Writing, writing.Writes (kind.tag []) ∧ kind.Spells content writing.root.value := by
  refine ⟨_, Writing.writes_ofMembers (.cons ((Writing.writes_ofString kind.name).member "kind") .nil), ?_⟩
  rw [Writing.ofPhrase, Phrase.value_ofMembers]
  refine ⟨rfl, fun name field => ?_⟩
  rw [fieldless] at field
  cases field

/-- A form with a field is written as its kind and the field. -/
theorem exists_writing_field {name : String} {value : Json} (fielded : kind.field? = some name)
    (foreign : "kind" ≠ name) (content : Json → Prop)
    (written : ∃ writing : Writing, writing.Writes value ∧ content writing.root.value) :
    ∃ writing : Writing, writing.Writes (kind.tag [(name, value)]) ∧ kind.Spells content writing.root.value := by
  obtain ⟨writing, writes, spells⟩ := written
  refine ⟨_, Writing.writes_ofMembers
    (.cons ((Writing.writes_ofString kind.name).member "kind") (.cons (writes.member name) .nil)), ?_⟩
  rw [Writing.ofPhrase, Phrase.value_ofMembers]
  refine ⟨?_, fun other field => ⟨writing.root.value, ?_, spells⟩⟩
  · rw [List.map_cons, valuesOf_cons_self, List.map_cons, valuesOf_cons_of_ne foreign.symm]
    rfl
  · obtain rfl : name = other := Option.some.inj (fielded.symm.trans field)
    rw [List.map_cons, valuesOf_cons_of_ne foreign, List.map_cons, valuesOf_cons_self]
    rfl

theorem exists_writing_string (text : String) :
    ∃ writing : Writing, writing.Writes (.string text) ∧ writing.root.value = .string text :=
  ⟨_, Writing.writes_ofString text, rfl⟩

theorem exists_writing_number {x : Float} (survives : Survives x) : ∃ writing : Writing,
    writing.Writes (.number (.real x)) ∧ ∃ n, writing.root.value = .number n ∧ n.toFloat = x := by
  obtain ⟨n, reads, same⟩ := survives
  obtain ⟨writing, text, -, canonical⟩ := Json.ofText_eq_ok_iff.mp reads
  refine ⟨writing, text, n, ?_, same⟩
  cases valued : writing.root.value <;> rw [valued] at canonical <;> simp [Json.canonical] at canonical
  rw [canonical]

theorem exists_writings_of_members {members : List Ty}
    (written : ∀ type ∈ members, ∃ writing : Writing, writing.Writes type.toJson ∧ type.Spells writing.root.value) :
    ∃ writing : Writing, writing.Writes (.array (membersToJson members)) ∧
      ∃ items, writing.root.value = .array items ∧ MembersSpell members items := by
  obtain ⟨writings, writes, spells⟩ : ∃ writings, List.Forall₂ Writing.Writes writings (membersToJson members) ∧
      MembersSpell members (writings.map (·.root.value)) := by
    induction members with
    | nil => exact ⟨[], .nil, rfl⟩
    | cons type members ih =>
      obtain ⟨⟨writing, first, spelled⟩, written⟩ := List.forall_mem_cons.mp written
      obtain ⟨writings, others, spells⟩ := ih written
      exact ⟨writing :: writings, .cons first others, _, _, rfl, spelled, spells⟩
  exact ⟨_, Writing.writes_ofItems writes, _, Phrase.value_ofItems writings, spells⟩

theorem exists_writings_of_properties {properties : List (Property Ty)}
    (written : ∀ property ∈ properties, ∃ writing : Writing, writing.Writes property.type.toJson ∧
      property.type.Spells writing.root.value) :
    ∃ writing : Writing, writing.Writes (.array (propertiesToJson properties)) ∧
      ∃ items, writing.root.value = .array items ∧ PropertiesSpell properties items := by
  obtain ⟨writings, writes, spells⟩ : ∃ writings,
      List.Forall₂ Writing.Writes writings (propertiesToJson properties) ∧
        PropertiesSpell properties (writings.map (·.root.value)) := by
    induction properties with
    | nil => exact ⟨[], .nil, rfl⟩
    | cons property properties ih =>
      obtain ⟨name, type, optional⟩ := property
      obtain ⟨⟨writing, first, spelled⟩, written⟩ := List.forall_mem_cons.mp written
      obtain ⟨writings, others, spells⟩ := ih written
      refine ⟨_, .cons (Writing.writes_ofMembers (.cons ((Writing.writes_ofString name).member "name")
        (.cons (first.member "type") (.cons ((Writing.writes_ofBool optional).member "optional") .nil)))) others,
        [("name", .string name), ("type", writing.root.value), ("optional", .bool optional)], _, ?_, rfl,
        ⟨_, rfl, spelled⟩, .inl rfl, spells⟩
      rw [List.map_cons, Writing.ofPhrase, Phrase.value_ofMembers, ← Writing.value_ofBool optional]
      rfl
  exact ⟨_, Writing.writes_ofItems writes, _, Phrase.value_ofItems writings, spells⟩

theorem forall_mem_memberLiterals {members : List Ty} {p : Float → Prop} :
    (∀ x ∈ memberLiterals members, p x) ↔ ∀ type ∈ members, ∀ x ∈ type.literals, p x := by
  induction members with
  | nil => exact iff_of_true nofun nofun
  | cons type members ih => rw [memberLiterals, List.forall_mem_append, ih, List.forall_mem_cons]

theorem forall_mem_propertyLiterals {properties : List (Property Ty)} {p : Float → Prop} :
    (∀ x ∈ propertyLiterals properties, p x) ↔ ∀ property ∈ properties, ∀ x ∈ property.type.literals, p x := by
  induction properties with
  | nil => exact iff_of_true nofun nofun
  | cons property properties ih => rw [propertyLiterals, List.forall_mem_append, ih, List.forall_mem_cons]

/-- If its numbers survive, the text that a type is written as is a spelling of the type. -/
theorem exists_writing (survive : ∀ x ∈ type.literals, Survives x) :
    ∃ writing : Writing, writing.Writes type.toJson ∧ type.Spells writing.root.value := by
  induction type with
  | any => exact exists_writing_bare .any _ rfl
  | never => exact exists_writing_bare .never _ rfl
  | null => exact exists_writing_bare .null _ rfl
  | undefined => exact exists_writing_bare .undefined _ rfl
  | numberLiteral x =>
    exact exists_writing_field rfl (by decide) _ (exists_writing_number (survive x (List.mem_singleton.mpr rfl)))
  | stringLiteral text => exact exists_writing_field rfl (by decide) _ (exists_writing_string text)
  | primitive p => exact exists_writing_field rfl (by decide) _ (exists_writing_string p.text)
  | object properties ih =>
    refine exists_writing_field rfl (by decide) _ (exists_writings_of_properties fun property member => ?_)
    exact ih property member (forall_mem_propertyLiterals.mp survive property member)
  | union members ih =>
    refine exists_writing_field rfl (by decide) _ (exists_writings_of_members fun type member => ?_)
    exact ih type member (forall_mem_memberLiterals.mp survive type member)
  | intersection members ih =>
    refine exists_writing_field rfl (by decide) _ (exists_writings_of_members fun type member => ?_)
    exact ih type member (forall_mem_memberLiterals.mp survive type member)
  | unsupported name => exact exists_writing_field rfl (by decide) _ (exists_writing_string name)

/-! ## Texts of types -/

/-- Every text that is read as a value and spells a type is read as this type; in particular the text that the
type is written as, if its numbers survive. -/
theorem ofText_spelling (type : Ty) :
    (∀ writing : Writing, type.Spells writing.root.value → (∃ value, Json.ofText writing.text = .ok value) →
      ofText writing.text = .ok type) ∧
    ((∀ x ∈ type.literals, Survives x) → (∃ value, Json.ofText type.toJson.write = .ok value) →
      ofText type.toJson.write = .ok type) := by
  have spelled (writing : Writing) (spells : type.Spells writing.root.value)
      (reads : ∃ value, Json.ofText writing.text = .ok value) : ofText writing.text = .ok type := by
    obtain ⟨value, reads⟩ := reads
    exact (accepts_ofNode.ofText_writing (fun _ _ => Taken.isBracketed) writing).mpr
      ⟨(Writing.of_ofText reads).1, spells.read.2⟩
  refine ⟨spelled, fun survive reads => ?_⟩
  obtain ⟨writing, writes, spells⟩ := exists_writing survive
  rw [← writes.eq] at reads ⊢
  exact spelled writing spells reads

/-- A number survives if it is the value of the numeral that it is written as. -/
theorem survives_of_spells {x : Float} {text : List Char} {numeral : Numeral} {n : Number}
    (written : (Number.real x).text.toList = text) (spelled : Numeral.Spells text numeral)
    (value : numeral.value = .ok n) (same : n.toFloat = x) : Survives x := by
  have reads : Json.ofText (Writing.ofPhrase (.word text _ (.number spelled value))).text = .ok (.number n) :=
    Writing.ofText_text (Nat.zero_le _)
  rw [Writing.text_ofPhrase] at reads
  exact ⟨n, written ▸ reads, same⟩

/-- A property whose type has its kind last, a member of another name, and its number written as an integer; and
the same property as it is written. -/
theorem ofText_spelling_of_property :
    ofText ("\x7b\"properties\":[\x7b\"type\":\x7b\"value\":5,\"x\":null,\"kind\":\"number_literal\"\x7d," ++
      "\"name\":\"a\"\x7d],\"kind\":\"object\"\x7d").toList =
        .ok (.object [⟨"a", .numberLiteral (UInt64.toFloat 5), false⟩]) ∧
      ofText (Ty.object [⟨"a", .numberLiteral (UInt64.toFloat 5), false⟩]).toJson.write =
        .ok (.object [⟨"a", .numberLiteral (UInt64.toFloat 5), false⟩]) := by
  have reads (text : List Char) (ok : (Json.ofText text).isOk = true) : ∃ value, Json.ofText text = .ok value := by
    cases read : Json.ofText text with
    | error fault => rw [read] at ok; cases ok
    | ok value => exact ⟨value, rfl⟩
  have survives : Survives (UInt64.toFloat 5) :=
    survives_of_spells (by decide +kernel) (@Numeral.Spells.mk false ['5'] ['.', '0'] [] (some ['0']) none
      ⟨by decide, List.forall_mem_singleton.mpr rfl⟩ nofun (.some ⟨by decide, List.forall_mem_singleton.mpr rfl⟩)
      .none) rfl (by decide +kernel)
  obtain ⟨spelled, written⟩ := ofText_spelling (.object [⟨"a", .numberLiteral (UInt64.toFloat 5), false⟩])
  obtain ⟨writing, text, spells⟩ : ∃ writing : Writing,
      writing.text = ("\x7b\"properties\":[\x7b\"type\":\x7b\"value\":5,\"x\":null,\"kind\":\"number_literal\"\x7d," ++
        "\"name\":\"a\"\x7d],\"kind\":\"object\"\x7d").toList ∧
      (Ty.object [⟨"a", .numberLiteral (UInt64.toFloat 5), false⟩]).Spells writing.root.value := by
    refine ⟨.ofPhrase (.ofMembers [("properties", .ofPhrase (.ofItems [.ofPhrase (.ofMembers
      [("type", .ofPhrase (.ofMembers [("value", .ofPhrase (.word _ _ (.number (@Numeral.Spells.mk false ['5'] [] []
        none none ⟨by decide, List.forall_mem_singleton.mpr rfl⟩ nofun .none .none) rfl))),
        ("x", .ofPhrase (.word _ _ .null)),
        ("kind", .ofString "number_literal")])), ("name", .ofString "a")])])), ("kind", .ofString "object")]),
      by decide +kernel, rfl, fun _ field => ⟨_, by cases field; rfl, _, rfl, _, _, rfl, rfl, ⟨_, rfl, ?_⟩,
        .inr ⟨rfl, rfl⟩, rfl⟩⟩
    exact ⟨rfl, fun _ field => ⟨_, by cases field; rfl, _, rfl, rfl⟩⟩
  refine ⟨?_, written (by simpa [literals, propertyLiterals] using survives) (reads _ (by decide +kernel))⟩
  rw [← text]
  exact spelled writing spells (reads _ (by rw [text]; decide +kernel))

end Ty

end TypedJson
