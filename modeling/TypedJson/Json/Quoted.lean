import TypedJson.Text.Visible

/-! # Quoted strings

`encode` writes a string as JSON text: quotes, backslashes and control characters are escaped and
all else stands for itself. `forMessage` quotes a string for a message, where characters that cannot be
seen are given by their code point.
-/

namespace TypedJson.Quoted

def hex (n : Nat) : List Char := Nat.toDigits 16 n

def encodeChar (c : Char) : List Char :=
  match c with
  | '"' => ['\\', '"']
  | '\\' => ['\\', '\\']
  | '\x08' => ['\\', 'b']
  | '\x0c' => ['\\', 'f']
  | '\n' => ['\\', 'n']
  | '\r' => ['\\', 'r']
  | '\t' => ['\\', 't']
  | c =>
    if c.toNat < 0x10 then ['\\', 'u', '0', '0', '0'] ++ hex c.toNat
    else if c.toNat < 0x20 then ['\\', 'u', '0', '0'] ++ hex c.toNat
    else [c]

def encode (text : List Char) : List Char := '"' :: text.flatMap encodeChar ++ ['"']

/-- One character inside a string quoted for a message. -/
def showChar (c : Char) : List Char :=
  match c with
  | '"' => ['\\', '"']
  | '\\' => ['\\', '\\']
  | '\n' => ['\\', 'n']
  | '\r' => ['\\', 'r']
  | '\t' => ['\\', 't']
  | '\x00' => ['\\', '0']
  | c => if Text.isVisible c then [c] else ['\\', 'u', '\x7b'] ++ hex c.toNat ++ ['\x7d']

def forMessage (text : List Char) : List Char := '"' :: text.flatMap showChar ++ ['"']

end TypedJson.Quoted
