import TypedJson.Json.Expect
import TypedJson.Proofs.Phrase.Reading
import Mathlib.Data.List.Forall2
import Mathlib.Data.List.Nodup

/-! # What typed readers accept

A typed reader walks a located tree, but whether it succeeds, and with what result, depends on the value of the
tree alone. `Accepts` says so of a reader and a relation between values and results, and there is one lemma for
each reader. A record is told by its `Slot`s: `Node.accepts_expectRecord` gives its fields one by one, whatever
the order in which they are written.
-/

namespace TypedJson

variable {α β σ : Type}

/-- A reader succeeds on the trees that have a value of a certain form, with the results of that form. -/
def Accepts (expect : Node → Reads α) (form : Json → α → Prop) : Prop :=
  ∀ node result, expect node = .ok result ↔ ∃ value, node.value = .ok value ∧ form value result

/-! ## Trees and their values -/

namespace Node

variable {start stop : Mark} {scalar : Scalar} {items : Items} {members : Members} {value : Json}

theorem value_scalar : (Node.scalar start scalar stop).value = .ok value ↔ scalar.value = value := by
  rw [Node.value, Except.ok.injEq]

theorem value_array : (Node.array start items).value = .ok value ↔
    ∃ values, items.values 0 = .ok values ∧ .array values = value := by
  rw [Node.value, map_eq_ok_iff]

theorem value_object : (Node.object start members).value = .ok value ↔
    ∃ values, members.values = .ok values ∧ .object values = value := by
  rw [Node.value, map_eq_ok_iff]

end Node

/-- A reader that refuses arrays and objects is told by the scalars that it accepts. -/
theorem Accepts.of_scalar {expect : Node → Reads α} {form : Json → α → Prop}
    (scalar : ∀ start value stop result, expect (.scalar start value stop) = .ok result ↔ form value.value result)
    (array : ∀ start items result, expect (.array start items) ≠ .ok result)
    (object : ∀ start members result, expect (.object start members) ≠ .ok result)
    (broken : ∀ start first fault result, expect (.broken start first fault) ≠ .ok result)
    (bare : ∀ value result, form value result → ∃ scalar : Scalar, scalar.value = value) : Accepts expect form := by
  intro node result
  cases node with
  | scalar start value stop =>
    rw [scalar]
    exact ⟨fun formed => ⟨_, rfl, formed⟩, fun ⟨_, valued, formed⟩ => Node.value_scalar.mp valued ▸ formed⟩
  | array start items =>
    refine iff_of_false (array _ _ _) ?_
    rintro ⟨value, valued, formed⟩
    obtain ⟨values, -, rfl⟩ := Node.value_array.mp valued
    obtain ⟨scalar, same⟩ := bare _ _ formed
    cases scalar <;> cases same
  | object start members =>
    refine iff_of_false (object _ _ _) ?_
    rintro ⟨value, valued, formed⟩
    obtain ⟨values, -, rfl⟩ := Node.value_object.mp valued
    obtain ⟨scalar, same⟩ := bare _ _ formed
    cases scalar <;> cases same
  | broken start first fault =>
    exact iff_of_false (broken _ _ _ _) not_exists_ok

theorem Accepts.map {expect : Node → Reads α} {form : Json → α → Prop} (accepts : Accepts expect form) (f : α → β) :
    Accepts (fun node => (expect node).map f) (fun value b => ∃ a, form value a ∧ f a = b) := by
  intro node b
  rw [map_eq_ok_iff]
  constructor
  · rintro ⟨a, read, same⟩
    obtain ⟨value, valued, formed⟩ := (accepts node a).mp read
    exact ⟨value, valued, a, formed, same⟩
  · rintro ⟨value, valued, a, formed, same⟩
    exact ⟨a, (accepts node a).mpr ⟨value, valued, formed⟩, same⟩

theorem Accepts.congr {expect : Node → Reads α} {form form' : Json → α → Prop} (accepts : Accepts expect form)
    (same : ∀ value result, form value result ↔ form' value result) : Accepts expect form' := by
  simpa only [Accepts, same] using accepts

/-! ## Scalars -/

theorem Node.accepts_expectString : Accepts Node.expectString fun value text => value = .string text := by
  refine .of_scalar ?_ (fun _ _ _ => error_ne_ok) (fun _ _ _ => error_ne_ok) (fun _ _ _ _ => error_ne_ok) ?_
  · intro start value stop text
    cases value <;> simp [expectString, refuse, Scalar.value]
  · rintro _ text rfl
    exact ⟨.string text, rfl⟩

theorem Node.accepts_expectUnit : Accepts Node.expectUnit fun value _ => value = .null := by
  refine .of_scalar ?_ (fun _ _ _ => error_ne_ok) (fun _ _ _ => error_ne_ok) (fun _ _ _ _ => error_ne_ok) ?_
  · intro start value stop result
    cases value <;> simp [expectUnit, refuse, Scalar.value]
  · rintro _ _ rfl
    exact ⟨.null, rfl⟩

/-- Natural numbers are accepted where they are written without fraction and exponent. -/
theorem Node.accepts_expectNatural (bound : ℕ) (word : String) : Accepts (Node.expectNatural bound word)
    fun value n => n < bound ∧ ∃ m : UInt64, value = .number (.natural m) ∧ m.toNat = n := by
  refine .of_scalar ?_ (fun _ _ _ => error_ne_ok) (fun _ _ _ => error_ne_ok) (fun _ _ _ _ => error_ne_ok) ?_
  · intro start value stop n
    cases value with
    | number number =>
      cases number with
      | natural m =>
        simp only [expectNatural, Scalar.value, Json.number.injEq, Number.natural.injEq, exists_eq_left']
        split_ifs with small
        · rw [Except.ok.injEq, iff_and_self]
          rintro rfl
          exact small
        · refine iff_of_false not_false ?_
          rintro ⟨below, rfl⟩
          exact small below
      | _ => simp [expectNatural, refuse, Scalar.value]
    | _ => simp [expectNatural, refuse, Scalar.value]
  · rintro _ n ⟨-, m, rfl, -⟩
    exact ⟨.number (.natural m), rfl⟩

/-! ## Names of variants -/

/-- A value names a variant: as a string, or as the only name of an object that holds a null. -/
inductive NamesVariant (variants : List (String × α)) : Json → α → Prop
  | string {name : String} {variant : α} (listed : getMember? name variants = some variant) :
      NamesVariant variants (.string name) variant
  | object {name : String} {variant : α} (listed : getMember? name variants = some variant) :
      NamesVariant variants (.object [(name, .null)]) variant

theorem Node.lookupVariant_eq_ok_iff {variants : List (String × α)} {name : String} {mark : Mark} {variant : α} :
    lookupVariant variants name mark = .ok variant ↔ getMember? name variants = some variant := by
  unfold lookupVariant
  cases getMember? name variants <;> simp

/-- Behind the null of a variant's object, nothing but its end is read. -/
theorem Members.values_eq_nil_iff {members : Members} : members.values = .ok [] ↔ ∃ stop, members = .close stop := by
  cases members <;> simp [Members.values, bind_eq_ok_iff]

theorem namesVariant_object_iff {variants : List (String × α)} {members : List (String × Json)} {variant : α} :
    NamesVariant variants (.object members) variant ↔
      ∃ name, getMember? name variants = some variant ∧ members = [(name, .null)] := by
  constructor
  · rintro (_ | ⟨listed⟩)
    exact ⟨_, listed, rfl⟩
  · rintro ⟨name, listed, rfl⟩
    exact .object listed

/-- The name of a variant is read from an object that has a null at this name, and no other member. -/
theorem Node.expectVariant_object_eq_ok_iff {variants : List (String × α)} {start : Mark} {members : Members}
    {variant : α} : expectVariant variants (.object start members) = .ok variant ↔
      ∃ name, getMember? name variants = some variant ∧ members.values = .ok [(name, .null)] := by
  cases members with
  | member name stop settled value rested rest =>
    simp only [expectVariant, bind_eq_ok_iff, lookupVariant_eq_ok_iff, mapError_eq_ok_iff,
      Node.accepts_expectUnit _ _, Members.values_member_eq_ok_iff]
    constructor
    · rintro ⟨variant, listed, _, ⟨_, valued, rfl⟩, ended⟩
      split at ended
      case h_1 =>
        cases ended
        exact ⟨name, listed, _, _, valued, rfl, rfl⟩
      all_goals cases ended
    · rintro ⟨_, listed, _, _, valued, ended, same⟩
      obtain ⟨⟨rfl, rfl⟩, rfl⟩ : (_ ∧ _) ∧ _ := by simpa using same
      obtain ⟨last, rfl⟩ := Members.values_eq_nil_iff.mp ended
      exact ⟨variant, listed, (), ⟨_, valued, rfl⟩, rfl⟩
  | broken fault found =>
    refine iff_of_false ?_ ?_
    · cases found <;> exact error_ne_ok
    · rintro ⟨name, -, ⟨⟩⟩
  | unpaired name stop settled fault =>
    constructor
    · intro read
      obtain ⟨_, -, ⟨⟩⟩ := bind_eq_ok_iff.mp read
    · rintro ⟨name, -, ⟨⟩⟩
  | close stop =>
    refine iff_of_false error_ne_ok ?_
    rintro ⟨name, -, ⟨⟩⟩

theorem Node.accepts_expectVariant (variants : List (String × α)) :
    Accepts (Node.expectVariant variants) (NamesVariant variants) := by
  intro node variant
  cases node with
  | scalar start value stop =>
    cases value with
    | string name =>
      simp only [expectVariant, lookupVariant_eq_ok_iff, value_scalar, Scalar.value, exists_eq_left']
      refine ⟨.string, ?_⟩
      rintro ⟨listed⟩
      exact listed
    | _ =>
      refine iff_of_false error_ne_ok ?_
      rintro ⟨_, ⟨⟩, ⟨⟩⟩
  | array start items =>
    refine iff_of_false error_ne_ok ?_
    rintro ⟨value, valued, formed⟩
    obtain ⟨values, -, rfl⟩ := value_array.mp valued
    cases formed
  | broken start first fault =>
    refine iff_of_false ?_ not_exists_ok
    cases first with
    | none => exact error_ne_ok
    | some c =>
      simp only [expectVariant]
      split_ifs <;> exact not_false
  | object start members =>
    rw [expectVariant_object_eq_ok_iff]
    simp only [value_object]
    constructor
    · rintro ⟨name, listed, valued⟩
      exact ⟨_, ⟨_, valued, rfl⟩, .object listed⟩
    · rintro ⟨_, ⟨values, valued, rfl⟩, formed⟩
      obtain ⟨name, listed, rfl⟩ := namesVariant_object_iff.mp formed
      exact ⟨name, listed, valued⟩

/-! ## Lists -/

theorem Items.expectAll_eq_ok_iff {expect : Node → Reads α} {form : Json → α → Prop} (accepts : Accepts expect form)
    {items : Items} {number : ℕ} {results : List α} : items.expectAll expect number = .ok results ↔
      ∃ values, items.values number = .ok values ∧ List.Forall₂ form values results := by
  fun_induction Items.expectAll expect items number generalizing results with
  | case1 => simp [Items.values, eq_comm, List.forall₂_nil_left_iff]
  | case2 => simp [Items.values]
  | case3 head number rest ih =>
    simp only [bind_eq_ok_iff, mapError_eq_ok_iff, accepts head _, ih, Except.ok.injEq, Items.values_item_eq_ok_iff]
    constructor
    · rintro ⟨result, ⟨value, valued, formed⟩, others, ⟨values, ended, all⟩, rfl⟩
      exact ⟨_, ⟨value, values, valued, ended, rfl⟩, .cons formed all⟩
    · rintro ⟨_, ⟨value, values, valued, ended, rfl⟩, _ | ⟨formed, all⟩⟩
      exact ⟨_, ⟨value, valued, formed⟩, _, ⟨values, ended, all⟩, rfl⟩

theorem Node.accepts_expectList {expect : Node → Reads α} {form : Json → α → Prop} (accepts : Accepts expect form) :
    Accepts (Node.expectList expect) fun value results =>
      ∃ items, value = .array items ∧ List.Forall₂ form items results := by
  intro node results
  cases node with
  | array start items =>
    simp only [expectList, Items.expectAll_eq_ok_iff accepts, value_array]
    constructor
    · rintro ⟨values, valued, all⟩
      exact ⟨_, ⟨values, valued, rfl⟩, values, rfl, all⟩
    · rintro ⟨_, ⟨values, valued, rfl⟩, _, ⟨⟩, all⟩
      exact ⟨values, valued, all⟩
  | scalar start value stop =>
    refine iff_of_false error_ne_ok ?_
    rintro ⟨_, valued, items, rfl, -⟩
    cases value <;> cases valued
  | object start members =>
    refine iff_of_false error_ne_ok ?_
    rintro ⟨_, valued, items, rfl, -⟩
    obtain ⟨values, -, ⟨⟩⟩ := value_object.mp valued
  | broken => exact refused_iff

/-! ## Records -/

theorem getMember?_eq_none_iff {name : String} {members : List (String × α)} :
    getMember? name members = none ↔ name ∉ members.map (·.1) := by
  induction members with
  | nil => simp [getMember?]
  | cons member members ih =>
    by_cases here : member.1 = name
    · simp [getMember?, here]
    · simp only [getMember?, if_neg here, ih, List.map_cons, List.mem_cons, not_or]
      exact ⟨fun absent => ⟨fun same => here same.symm, absent⟩, fun absent => absent.2⟩

/-- A field of a record that is read: its name, how it is looked up and replaced, and which values give what. -/
structure Slot (σ : Type) where
  {Value : Type}
  name : String
  get : σ → Value
  set : σ → Value → σ
  form : Json → Value → Prop

/-- A reader reads a field: it replaces what the field holds by what the value gives. -/
structure FieldReader.Fills (reader : FieldReader σ) (slot : Slot σ) : Prop where
  name : reader.name = slot.name
  accepts : ∀ record, Accepts (reader.read record) fun value result =>
    ∃ content, slot.form value content ∧ slot.set record content = result

/-- A reader that replaces what a field holds by what the value gives. -/
theorem FieldReader.Fills.of_accepts {name : String} {get : σ → α} {set : σ → α → σ} {form : Json → α → Prop}
    {expect : Node → Reads α} (accepts : Accepts expect form) :
    FieldReader.Fills ⟨name, fun record node => return set record (← expect node)⟩ ⟨name, get, set, form⟩ :=
  ⟨rfl, fun record => accepts.map (set record)⟩

/-- Fields that make up a record: replacing one leaves the others, and together they are the record. -/
structure Slot.Complete (slots : List (Slot σ)) : Prop where
  get_set : ∀ slot ∈ slots, ∀ record content, slot.get (slot.set record content) = content
  distinct : (slots.map (·.name)).Nodup
  others : ∀ slot ∈ slots, ∀ other ∈ slots, slot.name ≠ other.name →
    ∀ record content, other.get (slot.set record content) = other.get record
  ext : ∀ record record', (∀ slot ∈ slots, slot.get record = slot.get record') → record = record'

/-- What stands under a name: what the member with this name gives, or the default where there is no such member. -/
def Overridden (name : String) (form : Json → α → Prop) (members : List (String × Json)) (default content : α) :
    Prop :=
  match getMember? name members with
  | none => default = content
  | some value => form value content

/-- A record has in a field what the member of this name gives, or else what another record has there. -/
def Slot.Given (slot : Slot σ) (members : List (String × Json)) (default record : σ) : Prop :=
  Overridden slot.name slot.form members (slot.get default) (slot.get record)

/-- The members of an object give a record, given the names that came before: every name is one of the fields and
comes once, and each field is given by its member or is that of another record. -/
structure Slot.Overlay (slots : List (Slot σ)) (seen : List String) (members : List (String × Json))
    (default record : σ) : Prop where
  known : ∀ name ∈ members.map (·.1), name ∈ slots.map (·.name)
  fresh : ∀ name ∈ members.map (·.1), name ∉ seen
  distinct : (members.map (·.1)).Nodup
  given : ∀ slot ∈ slots, slot.Given members default record

/-- The items of an array give a record: they are the first fields in order, and the other fields are those of
another record. -/
inductive Slot.Positional : List (Slot σ) → List Json → σ → σ → Prop
  | rest (slots : List (Slot σ)) (record : σ) : Positional slots [] record record
  | item {slot : Slot σ} {slots : List (Slot σ)} {value : Json} {items : List Json} {content : slot.Value}
      {default record : σ} (formed : slot.form value content)
      (others : Positional slots items (slot.set default content) record) :
      Positional (slot :: slots) (value :: items) default record

namespace Slot

variable {slots : List (Slot σ)} {seen : List String} {default record : σ} {members : List (String × Json)}

theorem overlay_nil_iff (complete : Complete slots) : Overlay slots seen [] default record ↔ default = record := by
  constructor
  · intro overlay
    exact complete.ext _ _ overlay.given
  · rintro rfl
    exact ⟨nofun, nofun, .nil, fun _ _ => rfl⟩

theorem Complete.eq_of_name (complete : Complete slots) {slot other : Slot σ} (mem : slot ∈ slots)
    (mem' : other ∈ slots) (same : slot.name = other.name) : slot = other :=
  List.inj_on_of_nodup_map complete.distinct mem mem' same

/-- The first member replaces its field, and the other members give the record from there on. -/
theorem overlay_cons_iff (complete : Complete slots) {name : String} {value : Json} :
    Overlay slots seen ((name, value) :: members) default record ↔ name ∉ seen ∧
      ∃ slot ∈ slots, slot.name = name ∧ ∃ content, slot.form value content ∧
        Overlay slots (name :: seen) members (slot.set default content) record := by
  constructor
  · rintro ⟨known, fresh, distinct, given⟩
    obtain ⟨slot, mem, rfl⟩ := List.mem_map.mp (known name List.mem_cons_self)
    obtain ⟨-, known⟩ := List.forall_mem_cons.mp known
    obtain ⟨new, fresh⟩ := List.forall_mem_cons.mp fresh
    obtain ⟨once, distinct⟩ := List.nodup_cons.mp distinct
    have formed : slot.form value (slot.get record) := by simpa [Given, Overridden, getMember?] using given slot mem
    refine ⟨new, slot, mem, rfl, _, formed, known, ?_, distinct, fun other mem' => ?_⟩
    · intro name member
      exact List.not_mem_cons_of_ne_of_not_mem (fun same => once (same ▸ member)) (fresh name member)
    · by_cases same : other.name = slot.name
      · obtain rfl := complete.eq_of_name mem' mem same
        rw [Given, Overridden, getMember?_eq_none_iff.mpr once]
        exact complete.get_set _ mem _ _
      · have apart : slot.name ≠ other.name := fun h => same h.symm
        have given := given other mem'
        simp only [Given, Overridden, getMember?, if_neg apart] at given ⊢
        rwa [complete.others slot mem other mem' apart]
  · rintro ⟨new, slot, mem, rfl, content, formed, known, fresh, distinct, given⟩
    have once : slot.name ∉ members.map (·.1) := fun member => fresh _ member List.mem_cons_self
    refine ⟨List.forall_mem_cons.mpr ⟨List.mem_map_of_mem mem, known⟩,
      List.forall_mem_cons.mpr ⟨new, fun name member => (List.ne_and_not_mem_of_not_mem_cons (fresh name member)).2⟩,
      List.nodup_cons.mpr ⟨once, distinct⟩, fun other mem' => ?_⟩
    have given := given other mem'
    by_cases same : other.name = slot.name
    · obtain rfl := complete.eq_of_name mem' mem same
      rw [Given, Overridden, getMember?_eq_none_iff.mpr once] at given
      simp only [Given, Overridden, getMember?, if_pos]
      rwa [← given, complete.get_set _ mem]
    · have apart : slot.name ≠ other.name := fun h => same h.symm
      simp only [Given, Overridden, getMember?, if_neg apart] at given ⊢
      rwa [complete.others slot mem other mem' apart] at given

end Slot

/-- The reader that is found under a name reads the field of this name. -/
theorem FieldReader.exists_fills_of_find? {fields : List (FieldReader σ)} {slots : List (Slot σ)} {name : String}
    {field : FieldReader σ} (reads : List.Forall₂ FieldReader.Fills fields slots)
    (found : fields.find? (·.name = name) = some field) : ∃ slot ∈ slots, slot.name = name ∧ field.Fills slot := by
  induction reads with
  | nil => cases found
  | @cons reader slot fields slots first others ih =>
    by_cases here : reader.name = name
    · simp only [List.find?_cons, here, decide_true, Option.some.injEq] at found
      subst found
      exact ⟨slot, List.mem_cons_self, first.name ▸ here, first⟩
    · simp only [List.find?_cons, here, decide_false] at found
      obtain ⟨slot, mem, named, reads⟩ := ih found
      exact ⟨slot, List.mem_cons_of_mem _ mem, named, reads⟩

/-- No reader is found only under names of no field. -/
theorem FieldReader.not_mem_of_find? {fields : List (FieldReader σ)} {slots : List (Slot σ)} {name : String}
    (reads : List.Forall₂ FieldReader.Fills fields slots) (none : fields.find? (·.name = name) = none) :
    name ∉ slots.map (·.name) := by
  induction reads with
  | nil => exact List.not_mem_nil
  | @cons reader slot fields slots first others ih =>
    obtain ⟨other, none⟩ := List.forall_mem_cons.mp (List.find?_eq_none.mp none)
    refine List.not_mem_cons_of_ne_of_not_mem (fun same => other ?_) (ih (List.find?_eq_none.mpr none))
    simp [first.name, same]

section

variable {fields : List (FieldReader σ)} {slots : List (Slot σ)} {record result : σ}

theorem Members.expectRecord_eq_ok_iff (complete : Slot.Complete slots)
    (reads : List.Forall₂ FieldReader.Fills fields slots) {seen : List String} {members : Members} :
    members.expectRecord fields seen record = .ok result ↔
      ∃ values, members.values = .ok values ∧ Slot.Overlay slots seen values record result := by
  fun_induction Members.expectRecord fields seen record members with
  | case1 seen record => simp [Members.values, Slot.overlay_nil_iff complete]
  | case2 => exact refused_iff
  | case3 => exact refused_iff
  | case4 => exact refused_iff
  | case5 => exact refused_iff
  | case6 seen record name _ settled value _ rest none =>
    refine iff_of_false error_ne_ok ?_
    rintro ⟨_, valued, overlay⟩
    obtain ⟨first, others, -, -, rfl⟩ := Members.values_member_eq_ok_iff.mp valued
    exact FieldReader.not_mem_of_find? reads none (overlay.known _ List.mem_cons_self)
  | case7 seen record name _ settled value _ rest field found again =>
    refine iff_of_false error_ne_ok ?_
    rintro ⟨_, valued, overlay⟩
    obtain ⟨first, others, -, -, rfl⟩ := Members.values_member_eq_ok_iff.mp valued
    exact overlay.fresh _ List.mem_cons_self (List.contains_iff_mem.mp again)
  | case8 seen record name _ settled value _ rest field found new ih =>
    obtain ⟨slot, mem, named, read⟩ := FieldReader.exists_fills_of_find? reads found
    have fresh : name ∉ seen := fun again => new (List.contains_iff_mem.mpr again)
    simp only [bind_eq_ok_iff, mapError_eq_ok_iff, read.accepts record value _, ih,
      Members.values_member_eq_ok_iff]
    constructor
    · rintro ⟨_, ⟨first, valued, content, formed, rfl⟩, others, ended, overlay⟩
      exact ⟨_, ⟨first, others, valued, ended, rfl⟩,
        (Slot.overlay_cons_iff complete).mpr ⟨fresh, slot, mem, named, content, formed, overlay⟩⟩
    · rintro ⟨_, ⟨first, others, valued, ended, rfl⟩, overlay⟩
      obtain ⟨-, other, mem', named', content, formed, overlay⟩ := (Slot.overlay_cons_iff complete).mp overlay
      obtain rfl := complete.eq_of_name mem' mem (named'.trans named.symm)
      exact ⟨_, ⟨first, valued, content, formed, rfl⟩, others, ended, overlay⟩

theorem Items.values_eq_nil_iff {items : Items} {number : ℕ} :
    items.values number = .ok [] ↔ ∃ stop, items = .close stop := by
  cases items <;> simp [Items.values, bind_eq_ok_iff]

theorem Items.expectEnd_eq_ok_iff {items : Items} {done : Unit} :
    items.expectEnd = .ok done ↔ ∃ stop, items = .close stop := by
  cases items with
  | close stop => exact iff_of_true rfl ⟨stop, rfl⟩
  | item head rest =>
    refine iff_of_false error_ne_ok ?_
    rintro ⟨stop, ⟨⟩⟩
  | broken fault =>
    simp only [Items.expectEnd, reduceCtorEq, exists_false, iff_false]
    split <;> exact error_ne_ok

theorem Items.expectRecord_eq_ok_iff (reads : List.Forall₂ FieldReader.Fills fields slots) {number : ℕ}
    {items : Items} : items.expectRecord (fields.map (·.read)) number record = .ok result ↔
      ∃ values, items.values number = .ok values ∧ Slot.Positional slots values record result := by
  induction reads generalizing number items record with
  | nil =>
    simp only [List.map_nil, Items.expectRecord, map_eq_ok_iff, Items.expectEnd_eq_ok_iff]
    constructor
    · rintro ⟨-, ⟨stop, rfl⟩, rfl⟩
      exact ⟨_, rfl, .rest _ _⟩
    · rintro ⟨_, valued, ⟨⟩⟩
      exact ⟨(), Items.values_eq_nil_iff.mp valued, rfl⟩
  | @cons reader slot fields slots first others ih =>
    cases items with
    | close stop =>
      constructor
      · rintro ⟨⟩
        exact ⟨_, rfl, .rest _ _⟩
      · rintro ⟨_, valued, positional⟩
        cases valued
        cases positional
        rfl
    | broken fault => exact refused_iff
    | item head rest =>
      simp only [List.map_cons, Items.expectRecord, bind_eq_ok_iff, mapError_eq_ok_iff,
        first.accepts record head _, ih, Items.values_item_eq_ok_iff]
      constructor
      · rintro ⟨_, ⟨value, valued, content, formed, rfl⟩, values, ended, positional⟩
        exact ⟨_, ⟨value, values, valued, ended, rfl⟩, .item formed positional⟩
      · rintro ⟨_, ⟨value, values, valued, ended, rfl⟩, positional⟩
        cases positional with
        | item formed positional => exact ⟨_, ⟨value, valued, _, formed, rfl⟩, values, ended, positional⟩

/-- A record is accepted as an object of some of its fields, each at most once and in any order, and as an array
of its first fields. -/
theorem Node.accepts_expectRecord (complete : Slot.Complete slots)
    (reads : List.Forall₂ FieldReader.Fills fields slots) (title : String) (default : σ) :
    Accepts (Node.expectRecord title fields default) fun value record =>
      (∃ members, value = .object members ∧ Slot.Overlay slots [] members default record) ∨
        ∃ items, value = .array items ∧ Slot.Positional slots items default record := by
  intro node record
  cases node with
  | object start members =>
    simp only [expectRecord, Members.expectRecord_eq_ok_iff complete reads, value_object]
    constructor
    · rintro ⟨values, valued, overlay⟩
      exact ⟨_, ⟨values, valued, rfl⟩, .inl ⟨values, rfl, overlay⟩⟩
    · rintro ⟨_, ⟨values, valued, rfl⟩, ⟨_, ⟨⟩, overlay⟩ | ⟨_, ⟨⟩, -⟩⟩
      exact ⟨values, valued, overlay⟩
  | array start items =>
    simp only [expectRecord, Items.expectRecord_eq_ok_iff reads, value_array]
    constructor
    · rintro ⟨values, valued, positional⟩
      exact ⟨_, ⟨values, valued, rfl⟩, .inr ⟨values, rfl, positional⟩⟩
    · rintro ⟨_, ⟨values, valued, rfl⟩, ⟨_, ⟨⟩, -⟩ | ⟨_, ⟨⟩, positional⟩⟩
      exact ⟨values, valued, positional⟩
  | scalar start value stop =>
    refine iff_of_false error_ne_ok ?_
    rintro ⟨_, valued, ⟨_, rfl, -⟩ | ⟨_, rfl, -⟩⟩
    all_goals cases value <;> cases valued
  | broken => exact refused_iff

end

end TypedJson
