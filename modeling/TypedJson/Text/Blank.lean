/-! # Blank characters and trimming

White space in the sense of the Unicode property of that name. Text is handled as a list of
characters; `trimStart`, `trimEnd` and `trim` remove blank characters at its ends.
-/

namespace TypedJson.Text

/-- The code points of all characters with the white-space property. -/
def blanks : List Nat := [
  0x9, 0xA, 0xB, 0xC, 0xD, 0x20, 0x85, 0xA0, 0x1680, 0x2000, 0x2001, 0x2002, 0x2003, 0x2004, 0x2005,
  0x2006, 0x2007, 0x2008, 0x2009, 0x200A, 0x2028, 0x2029, 0x202F, 0x205F, 0x3000]

def isBlank (c : Char) : Bool := blanks.contains c.toNat

def trimStart (text : List Char) : List Char := text.dropWhile isBlank

def trimEnd (text : List Char) : List Char := (text.reverse.dropWhile isBlank).reverse

def trim (text : List Char) : List Char := trimEnd (trimStart text)

end TypedJson.Text
