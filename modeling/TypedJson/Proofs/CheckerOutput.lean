import TypedJson.Proofs.FindingLine
import TypedJson.Proofs.Lines

/-! # Output of a checker as it is written

A `Notice` is a finding as a checker writes it: a line with its place and the first line of its message, and an
indented line for each further one. An `Aside` is a line between notices that says nothing about any. Output that
consists of notices and asides is read as the findings of the notices, in their order:
`Finding.ofOutput_written`.
-/

namespace TypedJson

namespace Text

variable {lines : List (List Char)} {line text rest : List Char}

/-- A text that consists of lines, each of them ended by a line feed, or by a carriage return and a line feed. -/
inductive Ended : List (List Char) → List Char → Prop
  | nil : Ended [] []
  | feed (line : List Char) {lines : List (List Char)} {rest : List Char} (ended : Ended lines rest) :
      Ended (line :: lines) (line ++ '\n' :: rest)
  | returned (line : List Char) {lines : List (List Char)} {rest : List Char} (ended : Ended lines rest) :
      Ended (line :: lines) (line ++ '\r' :: '\n' :: rest)

theorem trimEnd_eq_rdropWhile (text : List Char) : trimEnd text = text.rdropWhile isBlank := rfl

theorem trimEnd_concat_return (line : List Char) : trimEnd (line ++ ['\r']) = trimEnd line := by
  rw [trimEnd_eq_rdropWhile, trimEnd_eq_rdropWhile, List.rdropWhile_concat_pos isBlank line '\r' rfl]

/-- A line that is not empty, without white space at its ends. -/
structure SolidLine where
  text : List Char
  given : text ≠ []
  start : text.head?.any isBlank = false
  stop : text.getLast?.any isBlank = false
  inLine : '\n' ∉ text

namespace SolidLine

variable (line : SolidLine) (front : List Char)

theorem trimEnd_append : trimEnd (front ++ line.text) = front ++ line.text := by
  have stop := line.stop
  rw [List.getLast?_eq_some_getLast line.given] at stop
  rw [trimEnd_eq_rdropWhile, List.rdropWhile_eq_self_iff]
  intro given
  rw [List.getLast_append_of_ne_nil given line.given]
  exact Bool.not_eq_true _ ▸ stop

/-- Spaces before a line are cut off. -/
theorem trim_indented (indent : ℕ) : trim (List.replicate indent ' ' ++ line.text) = line.text := by
  have blank : ∀ c ∈ List.replicate indent ' ', isBlank c = true := fun c member =>
    (List.mem_replicate.mp member).2 ▸ rfl
  have start : trimStart line.text = line.text := by
    obtain ⟨c, rest, written⟩ := List.exists_cons_of_ne_nil line.given
    have solid := line.start
    rw [written] at solid ⊢
    exact List.dropWhile_cons_of_neg (Bool.not_eq_true _ ▸ solid)
  rw [trim, trimStart, List.dropWhile_append_of_pos blank]
  exact (congrArg trimEnd start).trans (line.trimEnd_append [])

end SolidLine

end Text

namespace Finding

variable {directory : Path} {raw : List Char}

/-! ## Notices -/

/-- A finding as a checker writes it, with each further line of its message behind one space and any more. -/
structure Notice where
  file : String
  severity : Severity
  line : UInt32
  character : UInt32
  code : UInt32
  first : Text.SolidLine
  others : List (ℕ × Text.SolidLine)
  file_given : file ≠ ""
  file_inLine : '\n' ∉ file.toList
  file_unmarked : ¬ Marked file.toList
  line_fits : line.toNat + 1 < UInt32.size
  character_fits : character.toNat + 1 < UInt32.size
  others_unmarked : ∀ other ∈ others, ¬ Marked other.2.text

namespace Notice

variable (notice : Notice)

/-- The line of a notice that its place is on. Lines and characters are counted from one. -/
def headline : String :=
  notice.file ++ "(" ++ toString (notice.line.toNat + 1) ++ "," ++ toString (notice.character.toNat + 1) ++ "): " ++
    notice.severity.text ++ toString notice.code.toNat ++ ": " ++ String.ofList notice.first.text

/-- A further line of a message as it is written. -/
def indented (other : ℕ × Text.SolidLine) : List Char := List.replicate (other.1 + 1) ' ' ++ other.2.text

/-- The lines of a notice. -/
def lines : List (List Char) := notice.headline.toList :: notice.others.map indented

/-- The message of a notice. -/
def message : String := String.ofList (['\n'].intercalate (notice.first.text :: notice.others.map (·.2.text)))

/-- The place of a notice. -/
def place : Place where
  line := .ofNat (notice.line.toNat + 1)
  column := .ofNat (notice.character.toNat + 1)
  severity := notice.severity
  code := .ofNat notice.code.toNat
  message := notice.first.text

/-- The finding of a notice. Where the checker ran only counts for a relative file. -/
def finding (directory : Path) : Finding where
  file := some (if Path.isAbsolute ⟨notice.file⟩ then ⟨notice.file⟩ else directory.join ⟨notice.file⟩)
  line := notice.line
  character := notice.character
  length := 1
  code := some notice.code
  message := notice.message

end Notice

/-- A line that is blank, or that is not indented and has no mark. -/
structure Aside where
  text : List Char
  inLine : '\n' ∉ text
  passed : text.all Text.isBlank = true ∨ text.head? ≠ some ' ' ∧ ¬ Marked text

/-- A part of the output of a checker. -/
inductive Block where
  | notice (notice : Notice)
  | aside (aside : Aside)

namespace Block

/-- The lines of a part of the output. -/
def lines : Block → List (List Char)
  | .notice written => written.lines
  | .aside written => [written.text]

/-- The notice that a part of the output is. -/
def notice? : Block → Option Notice
  | .notice written => some written
  | .aside _ => none

end Block

/-! ## Reading line by line -/

section

variable {directory : Path} {finding latest : Finding} {findings earlier : List Finding} {raw : List Char}

theorem readLine_of_finding (read : ofLine? directory (Text.trimEnd raw) = some finding) :
    readLine directory findings raw = finding :: findings := by
  simp only [readLine, read]

theorem readLine_of_indented (none : ofLine? directory (Text.trimEnd raw) = none) (indented : raw.head? = some ' ')
    (given : Text.trim (Text.trimEnd raw) ≠ []) : readLine directory (latest :: earlier) raw =
      latest.continueWith (Text.trim (Text.trimEnd raw)) :: earlier := by
  simp only [readLine, none, indented, given, ne_eq, not_false_eq_true, and_self, if_true]

theorem readLine_of_passed (none : ofLine? directory (Text.trimEnd raw) = none)
    (passed : raw.head? = some ' ' → Text.trim (Text.trimEnd raw) = []) :
    readLine directory findings raw = findings := by
  cases findings with
  | nil => simp only [readLine, none]
  | cons latest earlier =>
    simp only [readLine, none]
    exact if_neg fun ⟨indented, given⟩ => given (passed indented)

end

/-- A carriage return at the end of a line does not count. -/
theorem readLine_dropCarriageReturn (directory : Path) (findings : List Finding) (raw : List Char) :
    readLine directory findings (Text.dropCarriageReturn raw) = readLine directory findings raw := by
  rcases Text.dropCarriageReturn_cases raw with same | ends
  · rw [same]
  · generalize Text.dropCarriageReturn raw = line at ends
    have indented : (line ++ ['\r']).head? = some ' ' ↔ line.head? = some ' ' := by cases line <;> simp
    rw [ends]
    simp only [readLine, Text.trimEnd_concat_return, indented]

/-- Lines are read one by one, however they are ended. -/
theorem foldl_readLine_of_ended {lines : List (List Char)} {output : List Char} (ended : Text.Ended lines output)
    (inLine : ∀ line ∈ lines, '\n' ∉ line) (directory : Path) (findings : List Finding) :
    (Text.lines output).foldl (readLine directory) findings = lines.foldl (readLine directory) findings := by
  induction ended generalizing findings with
  | nil => rfl
  | feed line ended ih =>
    obtain ⟨first, others⟩ := List.forall_mem_cons.mp inLine
    rw [Text.lines_append first, List.foldl_cons, List.foldl_cons, readLine_dropCarriageReturn, ih others]
  | @returned line lines rest ended ih =>
    obtain ⟨first, others⟩ := List.forall_mem_cons.mp inLine
    have whole : '\n' ∉ line ++ ['\r'] := by simp [first]
    rw [List.append_cons, Text.lines_append whole, Text.dropCarriageReturn_concat, List.foldl_cons, List.foldl_cons,
      ih others]

/-- A blank line has no mark in it. -/
theorem not_marked_of_blank {text : List Char} (blank : text.all Text.isBlank = true) : ¬ Marked text := by
  rintro ⟨severity, there⟩
  obtain ⟨tail, mark⟩ := severity.exists_mark
  have member : ')' ∈ text := there.subset (mark ▸ List.mem_cons_self)
  exact absurd (List.all_eq_true.mp blank ')' member) (by decide)

/-- An aside is passed over. -/
theorem Aside.readLine_eq (aside : Aside) (directory : Path) (findings : List Finding) :
    readLine directory findings aside.text = findings := by
  have unmarked : ¬ Marked aside.text := aside.passed.elim not_marked_of_blank And.right
  have none : ofLine? directory (Text.trimEnd aside.text) = none := by
    rw [Text.trimEnd_eq_rdropWhile]
    exact ofLine?_eq_none directory fun marked => unmarked (marked.mono (List.rdropWhile_prefix _ _).isInfix)
  refine readLine_of_passed none fun indented => ?_
  rcases aside.passed with blank | ⟨unindented, -⟩
  · have empty : Text.trimEnd aside.text = [] := by
      rw [Text.trimEnd_eq_rdropWhile, List.rdropWhile_eq_nil_iff]
      exact List.all_eq_true.mp blank
    rw [empty]
    rfl
  · exact (unindented indented).elim

namespace Notice

variable (notice : Notice) (directory : Path)

theorem toList_headline : notice.headline.toList = notice.file.toList ++ notice.place.text := by
  simp [headline, place, Place.text, Severity.mark, Digits.ofNat]

theorem trimEnd_headline : Text.trimEnd notice.headline.toList = notice.headline.toList := by
  rw [headline, String.toList_append, String.toList_ofList, notice.first.trimEnd_append]

/-- On the line of its place, a notice begins with the first line of its message. -/
theorem readLine_headline (findings : List Finding) : readLine directory findings notice.headline.toList =
    { notice.finding directory with message := String.ofList notice.first.text } :: findings := by
  have given : notice.file.toList ≠ [] := mt String.toList_eq_nil_iff.mp notice.file_given
  have file : directory.join ⟨notice.file⟩ =
      if Path.isAbsolute ⟨notice.file⟩ then ⟨notice.file⟩ else directory.join ⟨notice.file⟩ := by
    split
    case isTrue absolute => exact if_pos absolute
    case isFalse => rfl
  have read := ofLine?_append directory given notice.file_unmarked notice.place
  rw [← toList_headline, String.ofList_toList, ← trimEnd_headline] at read
  rw [readLine_of_finding read]
  simp only [finding, Place.finding, place, zeroBased_ofNat notice.line_fits, zeroBased_ofNat notice.character_fits,
    wordOf?_ofNat, ← file]

/-- Spaces in front of a text make no mark. -/
theorem not_marked_indented {other : ℕ × Text.SolidLine} (unmarked : ¬ Marked other.2.text) :
    ¬ Marked (indented other) := by
  have spaces (count : ℕ) : ¬ Marked (List.replicate count ' ' ++ other.2.text) := by
    induction count with
    | zero => exact unmarked
    | succ count ih => exact fun marked => ih (marked.of_cons (by decide))
  exact spaces _

/-- An indented line goes on with the message before it. -/
theorem readLine_indented {other : ℕ × Text.SolidLine} (unmarked : ¬ Marked other.2.text) (latest : Finding)
    (earlier : List Finding) :
    readLine directory (latest :: earlier) (indented other) = latest.continueWith other.2.text :: earlier := by
  have whole : Text.trimEnd (indented other) = indented other := other.2.trimEnd_append _
  have inside : Text.trim (Text.trimEnd (indented other)) = other.2.text := by
    rw [whole]
    exact other.2.trim_indented _
  have none : ofLine? directory (Text.trimEnd (indented other)) = none := by
    rw [whole]
    exact ofLine?_eq_none directory (not_marked_indented unmarked)
  rw [readLine_of_indented none rfl (inside ▸ other.2.given), inside]

/-- Indented lines are joined to the message before them. -/
theorem foldl_readLine_indented {others : List (ℕ × Text.SolidLine)}
    (unmarked : ∀ other ∈ others, ¬ Marked other.2.text) (latest : Finding) (earlier : List Finding) :
    (others.map indented).foldl (readLine directory) (latest :: earlier) =
      { latest with
        message := String.ofList (['\n'].intercalate (latest.message.toList :: others.map (·.2.text))) } ::
        earlier := by
  induction others generalizing latest with
  | nil => simp
  | cons other others ih =>
    obtain ⟨first, rest⟩ := List.forall_mem_cons.mp unmarked
    have joined : ['\n'].intercalate ((latest.continueWith other.2.text).message.toList :: others.map (·.2.text)) =
        ['\n'].intercalate (latest.message.toList :: other.2.text :: others.map (·.2.text)) := by
      cases others with
      | nil => simp [continueWith]
      | cons second others => simp [continueWith]
    rw [List.map_cons, List.foldl_cons, readLine_indented directory first, ih rest, joined]
    rfl

theorem foldl_readLine_lines (findings : List Finding) :
    notice.lines.foldl (readLine directory) findings = notice.finding directory :: findings := by
  rw [lines, List.foldl_cons, readLine_headline, foldl_readLine_indented directory notice.others_unmarked]
  simp only [String.toList_ofList]
  rfl

theorem newline_not_mem_lines : ∀ line ∈ notice.lines, '\n' ∉ line := by
  have digits (digits : Digits) : '\n' ∉ digits.text := fun member => nomatch digits.areDigits _ member
  have mark : '\n' ∉ notice.severity.mark := by cases notice.severity <;> decide
  refine List.forall_mem_cons.mpr ⟨?_, List.forall_mem_map.mpr fun other _ => ?_⟩
  · rw [toList_headline]
    simp [Place.text, place, digits, mark, notice.file_inLine, notice.first.inLine]
  · simp [indented, other.2.inLine]

end Notice

theorem Block.newline_not_mem_lines (block : Block) : ∀ line ∈ block.lines, '\n' ∉ line := by
  cases block with
  | notice written => exact written.newline_not_mem_lines
  | aside written => exact List.forall_mem_singleton.mpr written.inLine

/-- Parts of the output are read one by one, and the latest finding comes first. -/
theorem foldl_readLine_blocks (directory : Path) (blocks : List Block) (findings : List Finding) :
    (blocks.flatMap Block.lines).foldl (readLine directory) findings =
      ((blocks.filterMap Block.notice?).map (·.finding directory)).reverse ++ findings := by
  induction blocks generalizing findings with
  | nil => rfl
  | cons block blocks ih =>
    rw [List.flatMap_cons, List.foldl_append]
    cases block with
    | notice written =>
      rw [Block.lines, written.foldl_readLine_lines, ih]
      simp [Block.notice?]
    | aside written =>
      rw [Block.lines, List.foldl_cons, List.foldl_nil, written.readLine_eq, ih]
      rfl

/-- What a checker writes about findings is read back. Each notice is one finding, in the order of the output, and
asides between them say nothing, however the lines are ended. -/
theorem ofOutput_written (directory : Path) {blocks : List Block} {output : List Char}
    (written : Text.Ended (blocks.flatMap Block.lines) output) :
    ofOutput directory output = (blocks.filterMap Block.notice?).map (·.finding directory) := by
  have inLine : ∀ line ∈ blocks.flatMap Block.lines, '\n' ∉ line := fun line member => by
    obtain ⟨block, -, listed⟩ := List.mem_flatMap.mp member
    exact block.newline_not_mem_lines line listed
  rw [ofOutput, foldl_readLine_of_ended written inLine, foldl_readLine_blocks, List.append_nil, List.reverse_reverse]

/-- A notice about a file with parentheses in its name, which goes on on a second line. -/
def sampleNotice : Notice where
  file := "a (1,2).ts"
  severity := .error
  line := 7
  character := 4
  code := 2322
  first := ⟨"No number(3,4): error TS1: here.".toList, by decide +kernel, by decide +kernel, by decide +kernel,
    by decide +kernel⟩
  others := [(1, ⟨"It is a text.".toList, by decide +kernel, by decide +kernel, by decide +kernel,
    by decide +kernel⟩)]
  file_given := by decide +kernel
  file_inLine := by decide +kernel
  file_unmarked := by decide +kernel
  line_fits := by decide +kernel
  character_fits := by decide +kernel
  others_unmarked := by decide +kernel

/-- A notice about a file with an absolute path, at the greatest line. -/
def absoluteNotice : Notice where
  file := "/b.ts"
  severity := .warning
  line := 4294967294
  character := 0
  code := 4294967295
  first := ⟨"?".toList, by decide +kernel, by decide +kernel, by decide +kernel, by decide +kernel⟩
  others := []
  file_given := by decide +kernel
  file_inLine := by decide +kernel
  file_unmarked := by decide +kernel
  line_fits := by decide +kernel
  character_fits := by decide +kernel
  others_unmarked := nofun

/-- Two notices are read between lines that say nothing, with both kinds of line ends. -/
theorem ofOutput_written_aside :
    ofOutput ⟨"/w"⟩ ("Version 5".toList ++ '\r' :: '\n' ::
      ("a (1,2).ts(8,5): error TS2322: No number(3,4): error TS1: here.".toList ++ '\r' :: '\n' ::
      ("  It is a text.".toList ++ '\n' :: (" ".toList ++ '\n' ::
      ("/b.ts(4294967295,1): warning TS4294967295: ?".toList ++ ['\n']))))) =
    [⟨some ⟨"/w/a (1,2).ts"⟩, 7, 4, 1, some 2322, "No number(3,4): error TS1: here.\nIt is a text."⟩,
      ⟨some ⟨"/b.ts"⟩, 4294967294, 0, 1, some 4294967295, "?"⟩] := by
  let version : Aside := ⟨"Version 5".toList, by decide +kernel, .inr (by decide +kernel)⟩
  let blank : Aside := ⟨" ".toList, by decide +kernel, .inl (by decide +kernel)⟩
  let blocks : List Block := [.aside version, .notice sampleNotice, .aside blank, .notice absoluteNotice]
  have lines : blocks.flatMap Block.lines =
      ["Version 5".toList, "a (1,2).ts(8,5): error TS2322: No number(3,4): error TS1: here.".toList,
        "  It is a text.".toList, " ".toList, "/b.ts(4294967295,1): warning TS4294967295: ?".toList] := by
    decide +kernel
  have written := lines ▸ Text.Ended.returned _ (.returned _ (.feed _ (.feed _ (.feed _ .nil))))
  rw [ofOutput_written ⟨"/w"⟩ written]
  decide +kernel

end Finding
end TypedJson
