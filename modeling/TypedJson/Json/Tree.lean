import TypedJson.Json.Numeral
import TypedJson.Json.StringLiteral

/-! # Located trees of JSON text

`Node.read` reads one value as a tree that remembers where its parts stand. Text that is not
well-formed gives a tree too: it ends in a fault at the place where reading stopped. A reader of
typed values walks the tree in the order of the text, so that of two errors the earlier one counts.
-/

namespace TypedJson

inductive Scalar where
  | null
  | bool (value : Bool)
  | number (value : Number)
  | string (value : String)

mutual

/-- A value with its place. A scalar knows the mark at which it ends; a fault knows the first
character of what could not be read. -/
inductive Node where
  | scalar (start : Mark) (value : Scalar) (stop : Mark)
  | array (start : Mark) (items : Items)
  | object (start : Mark) (members : Members)
  | broken (start : Mark) (first : Option Char) (fault : Fault)

/-- The items of an array up to its end, or up to a fault. -/
inductive Items where
  | close (stop : Mark)
  | broken (fault : Fault)
  | item (head : Node) (rest : Items)

/-- The members of an object up to its end, or up to a fault. A fault in place of a name knows the
value that stands there, if any. A name is followed by two marks: where it ends, and where the text
goes on after white space and a closing brace. The mark after a value is the one after white space. -/
inductive Members where
  | close (stop : Mark)
  | broken (fault : Fault) (found : Node)
  | unpaired (name : String) (stop settled : Mark) (fault : Fault)
  | member (name : String) (stop settled : Mark) (value : Node) (rested : Mark) (rest : Members)

end

namespace Cursor

/-- The mark after white space and a closing brace, if one is next. -/
def settledMark (cursor : Cursor) : Mark :=
  match cursor.skipBlank.rest with
  | '\x7d' :: _ => cursor.skipBlank.peekMark
  | _ => cursor.skipBlank.mark

end Cursor

/-- What was read, and where to read on; after a fault there is no such place. -/
abbrev Reading (α : Type) := α × Option Cursor

namespace Scalar

def readWord (value : Scalar) : List Char → Cursor → Except Fault (Scalar × Cursor)
  | [], cursor => .ok (value, cursor)
  | letter :: letters, cursor =>
    if cursor.rest.head? = some letter then readWord value letters cursor.skip
    else .error (cursor.faultOrEnd .expectedWord)

def read (cursor : Cursor) : Except Fault (Scalar × Cursor) :=
  match cursor.rest with
  | 'n' :: _ => readWord .null ['n', 'u', 'l', 'l'] cursor
  | 't' :: _ => readWord (.bool true) ['t', 'r', 'u', 'e'] cursor
  | 'f' :: _ => readWord (.bool false) ['f', 'a', 'l', 's', 'e'] cursor
  | '"' :: _ => (StringLiteral.read cursor).map fun (text, next) => (.string text, next)
  | c :: _ =>
    if c = '-' || Text.isAsciiDigit c then
      (Numeral.read cursor).map fun (n, next) => (.number n, next)
    else .error (cursor.fault .expectedValue)
  | [] => .error (cursor.fault .valueEnd)

end Scalar

namespace Node

def faultAt (cursor : Cursor) (fault : Fault) : Node := .broken cursor.mark cursor.rest.head? fault

def ofScalar (cursor : Cursor) : Reading Node :=
  match Scalar.read cursor with
  | .ok (value, next) => (.scalar cursor.mark value next.mark, some next)
  | .error fault => (faultAt cursor fault, none)

end Node

/-- Reads the items of an array after its opening bracket or after a comma. Every item takes at
least one character, so the number of characters bounds the number of items. -/
def Items.read (readNode : Cursor → Reading Node) : Nat → Bool → Cursor → Reading Items
  | 0, _, cursor => (.broken (cursor.fault .listEnd), none)
  | bound + 1, first, cursor =>
    let cursor := cursor.skipBlank
    match cursor.rest with
    | [] => (.broken (cursor.fault (if first then .listEnd else .valueEnd)), none)
    | ']' :: _ =>
      if first then (.close cursor.peekMark, some cursor.skip)
      else (.broken (cursor.fault .trailingComma), none)
    | _ =>
      match readNode cursor with
      | (head, none) => (.item head (.broken (cursor.fault .listEnd)), none)
      | (head, some next) =>
        let next := next.skipBlank
        match next.rest with
        | ',' :: _ =>
          let (rest, stop) := Items.read readNode bound false next.skip
          (.item head rest, stop)
        | ']' :: _ => (.item head (.close next.peekMark), some next.skip)
        | [] => (.item head (.broken (next.fault .listEnd)), none)
        | _ => (.item head (.broken (next.fault .expectedListCommaOrEnd)), none)

def Members.read (readNode : Cursor → Reading Node) : Nat → Bool → Cursor → Reading Members
  | 0, _, cursor => (.broken (cursor.fault .objectEnd) (Node.faultAt cursor (cursor.fault .objectEnd)), none)
  | bound + 1, first, cursor =>
    let cursor := cursor.skipBlank
    let refuse (reason : Reason) : Reading Members :=
      (.broken (cursor.fault reason) (readNode cursor).1, none)
    match cursor.rest with
    | [] => refuse (if first then .objectEnd else .valueEnd)
    | '\x7d' :: _ => if first then (.close cursor.peekMark, some cursor.skip) else refuse .trailingComma
    | '"' :: _ =>
      match StringLiteral.read cursor with
      | .error fault => (.broken fault (Node.faultAt cursor fault), none)
      | .ok (name, next) =>
        let colon := next.skipBlank
        match colon.rest with
        | ':' :: _ =>
          let valueStart := colon.skip.skipBlank
          match readNode valueStart with
          | (value, none) =>
            (.member name next.mark next.settledMark value valueStart.mark
              (.broken (valueStart.fault .objectEnd) (Node.faultAt valueStart (valueStart.fault .objectEnd))),
              none)
          | (value, some after) =>
            let after := after.skipBlank
            let member (rest : Members) : Members :=
              .member name next.mark next.settledMark value after.mark rest
            let breakOff (reason : Reason) : Reading Members :=
              (member (.broken (after.fault reason) (Node.faultAt after (after.fault reason))), none)
            match after.rest with
            | ',' :: _ =>
              let (rest, stop) := Members.read readNode bound false after.skip
              (member rest, stop)
            | '\x7d' :: _ => (member (.close after.peekMark), some after.skip)
            | [] => breakOff .objectEnd
            | _ => breakOff .expectedObjectCommaOrEnd
        | [] => (.unpaired name next.mark next.settledMark (colon.fault .objectEnd), none)
        | _ => (.unpaired name next.mark next.settledMark (colon.fault .expectedColon), none)
    | _ => refuse .keyNotString

/-- Reads one value that may hold the given number of arrays and objects inside one another. -/
def Node.read : Nat → Cursor → Reading Node
  | 0, cursor =>
    let cursor := cursor.skipBlank
    match cursor.rest with
    | '[' :: _ | '\x7b' :: _ => (Node.faultAt cursor (cursor.fault .nestingTooDeep), none)
    | _ => Node.ofScalar cursor
  | depth + 1, cursor =>
    let cursor := cursor.skipBlank
    match cursor.rest with
    | '[' :: rest =>
      let (items, stop) := Items.read (Node.read depth) (rest.length + 1) true cursor.skip
      (.array cursor.mark items, stop)
    | '\x7b' :: rest =>
      let (members, stop) := Members.read (Node.read depth) (rest.length + 1) true cursor.skip
      (.object cursor.mark members, stop)
    | _ => Node.ofScalar cursor

/-- The number of arrays and objects that may be open at the same time. -/
def nestingLimit : Nat := 127

/-- Reads the first value of a text. -/
def Node.ofText (text : List Char) : Reading Node := Node.read nestingLimit (.ofText text)

end TypedJson
