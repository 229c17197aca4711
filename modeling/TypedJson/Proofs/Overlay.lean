import TypedJson.Configuration
import TypedJson.Proofs.FirstValue
import TypedJson.Proofs.Phrase.Writing

/-! # Configurations as overlays

A configuration file replaces some of the defaults. `Configuration.Overlays` says field by field what the members
of an object give: what is written under a name, or the default where the name does not come; and every name that
comes has to be a field, once. `Configuration.ofText_iff_overlays` says that a text of an object is read as exactly
the configurations of which it is an overlay, so any other text of an object is refused.
-/

namespace TypedJson

/-- The names of members are among the given ones, and none comes twice. -/
structure NamedFrom (names : List String) (members : List (String × Json)) : Prop where
  known : ∀ name ∈ members.map (·.1), name ∈ names
  distinct : (members.map (·.1)).Nodup

/-- A value is a string. -/
def IsString (value : Json) (text : String) : Prop := value = .string text

/-- A value is an array of strings. -/
def IsStrings (value : Json) (texts : List String) : Prop := value = .array (texts.map .string)

/-- A value is a natural number of 64 bits, written without fraction and exponent. -/
def IsNatural (value : Json) (n : ℕ) : Prop := ∃ m : UInt64, value = .number (.natural m) ∧ m.toNat = n

/-- A value is an array of natural numbers of 32 bits, written without fraction and exponent. -/
def IsCodes (value : Json) (codes : List UInt32) : Prop :=
  value = .array (codes.map fun code => .number (.natural code.toUInt64))

namespace CheckerCommand

/-- Members of an object lay a checker command over the default one. -/
structure Overlays (members : List (String × Json)) (command : CheckerCommand) : Prop where
  named : NamedFrom ["program", "args"] members
  program : Overridden "program" IsString members default.program command.program
  arguments : Overridden "args" IsStrings members default.arguments command.arguments

/-- A value gives a checker command: an object of some of its fields, or an array of the first of them. -/
inductive Given : Json → CheckerCommand → Prop
  | object {members : List (String × Json)} {command : CheckerCommand} (overlays : Overlays members command) :
      Given (.object members) command
  | empty : Given (.array []) default
  | program (program : String) : Given (.array [.string program]) { default with program }
  | arguments (program : String) {value : Json} {arguments : List String} (strings : IsStrings value arguments) :
      Given (.array [.string program, value]) ⟨program, arguments⟩

end CheckerCommand

namespace Configuration

/-- The names of the fields. -/
def names : List String := fields.map (·.name)

/-- Members of an object lay a configuration over the default one. -/
structure Overlays (members : List (String × Json)) (c : Configuration) : Prop where
  named : NamedFrom names members
  artifactFileName :
    Overridden "artifact_file_name" IsString members default.artifactFileName c.artifactFileName
  mode : Overridden "mode" (NamesVariant modes) members default.mode c.mode
  indexTimeout : Overridden "index_timeout_ms" IsNatural members default.indexTimeout c.indexTimeout
  indexInterval : Overridden "index_poll_interval_ms" IsNatural members default.indexInterval c.indexInterval
  ignoredCodes : Overridden "ignored_codes" IsCodes members default.ignoredCodes c.ignoredCodes
  unsupportedTypes :
    Overridden "unsupported_types" (NamesVariant policies) members default.unsupportedTypes c.unsupportedTypes
  checker : Overridden "checker" CheckerCommand.Given members default.checker c.checker

end Configuration

/-! ## The fields as they are read -/

theorem IsString.nestedWithin : NestedWithin 0 IsString := by
  rintro _ text rfl
  exact Nat.le_refl 0

theorem IsNatural.nestedWithin : NestedWithin 0 IsNatural := by
  rintro _ n ⟨m, rfl, -⟩
  exact Nat.le_refl 0

/-- An array of scalars is nested once. -/
theorem Json.nesting_array_map {α : Type} {scalar : α → Json} (flat : ∀ a, (scalar a).nesting = 0) (contents : List α) :
    (Json.array (contents.map scalar)).nesting = 1 := by
  have nested : itemsNesting (contents.map scalar) = 0 := by
    induction contents with
    | nil => rfl
    | cons a contents ih => rw [List.map_cons, itemsNesting, flat, ih, Nat.max_self]
  rw [nesting, nested]

theorem IsStrings.nestedWithin : NestedWithin 1 IsStrings := by
  rintro _ texts rfl
  exact (Json.nesting_array_map (fun _ => rfl) texts).le

theorem IsCodes.nestedWithin : NestedWithin 1 IsCodes := by
  rintro _ codes rfl
  exact (Json.nesting_array_map (fun _ => rfl) codes).le

theorem Node.accepts_strings : Accepts (expectList expectString) IsStrings :=
  (accepts_expectList accepts_expectString).congr fun value texts => by
    simp only [IsStrings, ← List.forall₂_map_right_iff, List.forall₂_eq_eq_eq, exists_eq_right]

theorem Configuration.accepts_expectMilliseconds : Accepts expectMilliseconds IsNatural :=
  (Node.accepts_expectNatural UInt64.size "u64").congr fun _ _ =>
    ⟨And.right, fun ⟨m, written, same⟩ => ⟨same ▸ m.toNat_lt_size, m, written, same⟩⟩

theorem Configuration.accepts_expectCode :
    Accepts expectCode fun value code => value = .number (.natural code.toUInt64) := by
  refine ((Node.accepts_expectNatural UInt32.size "u32").map Nat.toUInt32).congr fun value code => ?_
  constructor
  · rintro ⟨_, ⟨small, m, rfl, rfl⟩, rfl⟩
    have same : (m.toNat.toUInt32).toUInt64 = m := UInt64.toNat_inj.mp (by simpa using small)
    rw [same]
  · rintro rfl
    exact ⟨_, ⟨by simpa using code.toNat_lt, _, rfl, rfl⟩, by simp⟩

theorem Configuration.accepts_codes : Accepts (Node.expectList expectCode) IsCodes :=
  (Node.accepts_expectList accepts_expectCode).congr fun value codes => by
    simp only [IsCodes, ← List.forall₂_map_right_iff, List.forall₂_eq_eq_eq, exists_eq_right]

namespace CheckerCommand

/-- The fields of a checker command. -/
def slots : List (Slot CheckerCommand) :=
  [⟨"program", (·.program), fun command program => { command with program }, IsString⟩,
    ⟨"args", (·.arguments), fun command arguments => { command with arguments }, IsStrings⟩]

theorem complete_slots : Slot.Complete slots := by
  refine ⟨by simp [slots], by decide, by simp [slots], fun command other same => ?_⟩
  have same : command.program = other.program ∧ command.arguments = other.arguments := by simpa [slots] using same
  cases command
  cases other
  simpa using same

theorem fills_slots : List.Forall₂ FieldReader.Fills Configuration.checkerFields slots :=
  .cons (.of_accepts Node.accepts_expectString) (.cons (.of_accepts Node.accepts_strings) .nil)

theorem overlays_iff {members : List (String × Json)} {command : CheckerCommand} :
    Slot.Overlay slots [] members default command ↔ Overlays members command := by
  constructor
  · rintro ⟨known, -, distinct, given⟩
    simp only [slots, List.forall_mem_cons] at given
    obtain ⟨program, arguments, -⟩ := given
    exact ⟨⟨known, distinct⟩, program, arguments⟩
  · rintro ⟨⟨known, distinct⟩, program, arguments⟩
    refine ⟨known, fun _ _ => List.not_mem_nil, distinct, ?_⟩
    simp only [slots, List.forall_mem_cons]
    exact ⟨program, arguments, nofun⟩

theorem given_iff {value : Json} {command : CheckerCommand} :
    (∃ members, value = .object members ∧ Slot.Overlay slots [] members default command) ∨
      (∃ items, value = .array items ∧ Slot.Positional slots items default command) ↔ Given value command := by
  constructor
  · rintro (⟨members, rfl, overlay⟩ | ⟨items, rfl, positional⟩)
    · exact .object (overlays_iff.mp overlay)
    · cases positional with
      | rest => exact .empty
      | item first positional =>
        obtain rfl := first
        cases positional with
        | rest => exact .program _
        | item second positional =>
          cases positional
          exact .arguments _ second
  · rintro (overlays | _ | program | ⟨program, strings⟩)
    · exact .inl ⟨_, rfl, overlays_iff.mpr overlays⟩
    · exact .inr ⟨_, rfl, .rest _ _⟩
    · exact .inr ⟨_, rfl, .item rfl (.rest _ _)⟩
    · exact .inr ⟨_, rfl, .item rfl (.item strings (.rest _ _))⟩

theorem accepts_expectChecker : Accepts Configuration.expectChecker Given :=
  (Node.accepts_expectRecord complete_slots fills_slots _ _).congr fun _ _ => given_iff

theorem Given.nestedWithin : NestedWithin 2 Given := fun _ _ given => by
  refine Slot.nestedWithin_record complete_slots ?_ default _ _ (given_iff.mpr given)
  simp only [slots, List.forall_mem_cons]
  exact ⟨IsString.nestedWithin.mono (by omega), IsStrings.nestedWithin, nofun⟩

end CheckerCommand

namespace Configuration

/-- The fields of a configuration. -/
def slots : List (Slot Configuration) :=
  [⟨"artifact_file_name", (·.artifactFileName), fun c artifactFileName => { c with artifactFileName }, IsString⟩,
    ⟨"mode", (·.mode), fun c mode => { c with mode }, NamesVariant modes⟩,
    ⟨"index_timeout_ms", (·.indexTimeout), fun c indexTimeout => { c with indexTimeout }, IsNatural⟩,
    ⟨"index_poll_interval_ms", (·.indexInterval), fun c indexInterval => { c with indexInterval }, IsNatural⟩,
    ⟨"ignored_codes", (·.ignoredCodes), fun c ignoredCodes => { c with ignoredCodes }, IsCodes⟩,
    ⟨"unsupported_types", (·.unsupportedTypes), fun c unsupportedTypes => { c with unsupportedTypes },
      NamesVariant policies⟩,
    ⟨"checker", (·.checker), fun c checker => { c with checker }, CheckerCommand.Given⟩]

theorem complete_slots : Slot.Complete slots := by
  refine ⟨by simp [slots], by decide, by simp [slots], fun c other same => ?_⟩
  cases c
  cases other
  simpa [slots] using same

theorem fills_slots : List.Forall₂ FieldReader.Fills fields slots :=
  .cons (.of_accepts Node.accepts_expectString)
    (.cons (.of_accepts (Node.accepts_expectVariant modes))
      (.cons (.of_accepts accepts_expectMilliseconds)
        (.cons (.of_accepts accepts_expectMilliseconds)
          (.cons (.of_accepts accepts_codes)
            (.cons (.of_accepts (Node.accepts_expectVariant policies))
              (.cons (.of_accepts CheckerCommand.accepts_expectChecker) .nil))))))

variable {members : List (String × Json)} {c : Configuration}

theorem overlays_iff : Slot.Overlay slots [] members default c ↔ Overlays members c := by
  constructor
  · rintro ⟨known, -, distinct, given⟩
    simp only [slots, List.forall_mem_cons] at given
    obtain ⟨artifactFileName, mode, indexTimeout, indexInterval, ignoredCodes, unsupportedTypes, checker, -⟩ := given
    exact ⟨⟨known, distinct⟩, artifactFileName, mode, indexTimeout, indexInterval, ignoredCodes, unsupportedTypes,
      checker⟩
  · rintro ⟨⟨known, distinct⟩, artifactFileName, mode, indexTimeout, indexInterval, ignoredCodes, unsupportedTypes,
      checker⟩
    refine ⟨known, fun _ _ => List.not_mem_nil, distinct, ?_⟩
    simp only [slots, List.forall_mem_cons]
    exact ⟨artifactFileName, mode, indexTimeout, indexInterval, ignoredCodes, unsupportedTypes, checker, nofun⟩

/-- A value gives a configuration: an object of some of its fields, or an array of the first of them. -/
inductive Given : Json → Configuration → Prop
  | object {members : List (String × Json)} {c : Configuration} (overlays : Overlays members c) :
      Given (.object members) c
  | array {items : List Json} {c : Configuration} (positional : Slot.Positional slots items default c) :
      Given (.array items) c

theorem Given.isBracketed {value : Json} (given : Given value c) : value.IsBracketed := by
  cases given with
  | object => exact .object _
  | array => exact .array _

theorem given_iff {value : Json} : (∃ members, value = .object members ∧ Slot.Overlay slots [] members default c) ∨
    (∃ items, value = .array items ∧ Slot.Positional slots items default c) ↔ Given value c := by
  constructor
  · rintro (⟨members, rfl, overlay⟩ | ⟨items, rfl, positional⟩)
    · exact .object (overlays_iff.mp overlay)
    · exact .array positional
  · rintro (overlays | positional)
    · exact .inl ⟨_, rfl, overlays_iff.mpr overlays⟩
    · exact .inr ⟨_, rfl, positional⟩

theorem accepts_ofNode : Accepts ofNode Given :=
  (Node.accepts_expectRecord complete_slots fills_slots _ _).congr fun _ _ => given_iff

/-! ## Texts of configurations -/

theorem nestedWithin_slots : ∀ slot ∈ slots, NestedWithin 2 slot.form := by
  simp only [slots, List.forall_mem_cons]
  refine ⟨IsString.nestedWithin.mono (by omega), (NamesVariant.nestedWithin _).mono (by omega),
    IsNatural.nestedWithin.mono (by omega), IsNatural.nestedWithin.mono (by omega),
    IsCodes.nestedWithin.mono (by omega), (NamesVariant.nestedWithin _).mono (by omega), CheckerCommand.Given.nestedWithin, nofun⟩

/-- No value that gives a configuration is nested deep. -/
theorem Given.nestedWithin : NestedWithin 3 Given := fun _ _ given =>
  Slot.nestedWithin_record complete_slots nestedWithin_slots default _ _ (given_iff.mpr given)

/-- A text is read as the configuration that its value gives. -/
theorem ofText_iff_given (writing : Writing) : ofText writing.text = .ok c ↔ Given writing.root.value c := by
  refine (accepts_ofNode.ofText_writing (fun _ _ => Given.isBracketed) writing).trans ?_
  exact ⟨And.right, fun given => ⟨(Given.nestedWithin _ _ given).trans (by decide), given⟩⟩

/-- The text of an object is read as the configuration of which its members are an overlay. -/
theorem ofText_iff_overlays (writing : Writing) (members : List (String × Json)) (c : Configuration)
    (object : writing.root.value = .object members) : ofText writing.text = .ok c ↔ Overlays members c := by
  rw [ofText_iff_given, object]
  constructor
  · rintro ⟨⟩
    assumption
  · exact .object

/-- Two fields of a configuration are replaced, and one of the checker command. -/
theorem ofText_partial_overlay :
    ofText "\x7b\"mode\":\"matcher\",\"checker\":\x7b\"program\":\"npx\"\x7d\x7d".toList =
      .ok { default with mode := .matcher, checker := { CheckerCommand.default with program := "npx" } } := by
  have inner : CheckerCommand.Overlays [("program", .string "npx")] { CheckerCommand.default with program := "npx" } :=
    ⟨⟨by decide, by decide⟩, rfl, rfl⟩
  refine (ofText_iff_overlays (.ofPhrase (.ofMembers [("mode", .ofString "matcher"),
    ("checker", .ofPhrase (.ofMembers [("program", .ofString "npx")]))])) _ _ rfl).mpr ?_
  exact ⟨⟨by decide, by decide⟩, rfl, .string rfl, rfl, rfl, rfl, rfl, .object inner⟩

/-- The checker command need not be an object: an array of its first fields is taken as well. -/
theorem not_object_of_checker : ¬ ∀ (writing : Writing) (members : List (String × Json)) (c : Configuration),
    writing.root.value = .object members → ofText writing.text = .ok c →
      ∀ value, getMember? "checker" members = some value → ∃ inner, value = .object inner := by
  intro objects
  have overlays : Overlays [("checker", .array [.string "npx"])]
      { default with checker := { CheckerCommand.default with program := "npx" } } :=
    ⟨⟨by decide, by decide⟩, rfl, rfl, rfl, rfl, rfl, rfl, .program "npx"⟩
  have reads := (ofText_iff_given
    (.ofPhrase (.ofMembers [("checker", .ofPhrase (.ofItems [.ofString "npx"]))]))).mpr (.object overlays)
  obtain ⟨inner, ⟨⟩⟩ := objects _ _ _ rfl reads _ rfl

end Configuration

end TypedJson
