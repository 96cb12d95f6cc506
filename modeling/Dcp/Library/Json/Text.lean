import Dcp.Library.Json.Document
import Dcp.Library.Text

/-!
The text of a JSON value and a reader for it. The printer is compact, with the short
escapes for the control characters that have one. The reader returns a document and, unless
it met an error, the rest of the text. Integers are the only numbers it reads. Reading the
text of a plain value gives that value's document.
-/

namespace Library.Json

def escapeChar (c : Char) : List Char :=
  if c = '"' then ['\\', '"']
  else if c = '\\' then ['\\', '\\']
  else if c = '\x08' then ['\\', 'b']
  else if c = '\t' then ['\\', 't']
  else if c = '\n' then ['\\', 'n']
  else if c = '\x0c' then ['\\', 'f']
  else if c = '\r' then ['\\', 'r']
  else if c.toNat < 32 then
    ['\\', 'u', '0', '0', Nat.digitChar (c.toNat / 16), Nat.digitChar (c.toNat % 16)]
  else [c]

def escape (text : List Char) : List Char := text.flatMap escapeChar

def printString (s : String) : List Char := '"' :: (escape s.toList ++ ['"'])

def printInt (n : Int) : List Char :=
  if n < 0 then '-' :: Nat.toDigits 10 n.natAbs else Nat.toDigits 10 n.natAbs

mutual

def print : Value → List Char
  | .null => ['n', 'u', 'l', 'l']
  | .bool true => ['t', 'r', 'u', 'e']
  | .bool false => ['f', 'a', 'l', 's', 'e']
  | .number (.int n) => printInt n.val
  | .number (.float _) => ['0', '.', '0']
  | .string s => printString s
  | .array [] => ['[', ']']
  | .array (v :: rest) => '[' :: (print v ++ printItems rest)
  | .object [] => ['\x7b', '\x7d']
  | .object ((k, v) :: rest) => '\x7b' :: (printString k ++ ':' :: (print v ++ printMembers rest))

/-- The items after the first one, and the closing bracket. -/
def printItems : List Value → List Char
  | [] => [']']
  | v :: rest => ',' :: (print v ++ printItems rest)

/-- The members after the first one, and the closing brace. -/
def printMembers : List (String × Value) → List Char
  | [] => ['\x7d']
  | (k, v) :: rest => ',' :: (printString k ++ ':' :: (print v ++ printMembers rest))

end

def isBlank (c : Char) : Bool := c = ' ' || c = '\n' || c = '\t' || c = '\r'

def skipBlanks (text : List Char) : List Char := text.dropWhile isBlank

def hexValue (c : Char) : Option Nat :=
  if '0' ≤ c ∧ c ≤ '9' then some (c.toNat - '0'.toNat)
  else if 'a' ≤ c ∧ c ≤ 'f' then some (c.toNat - 'a'.toNat + 10)
  else if 'A' ≤ c ∧ c ≤ 'F' then some (c.toNat - 'A'.toNat + 10)
  else none

/-- The character of an escape sequence after its backslash, and the rest. -/
def unescape : List Char → Option (Char × List Char)
  | [] => none
  | c :: rest =>
      if c = '"' ∨ c = '\\' ∨ c = '/' then some (c, rest)
      else if c = 'b' then some ('\x08', rest)
      else if c = 't' then some ('\t', rest)
      else if c = 'n' then some ('\n', rest)
      else if c = 'f' then some ('\x0c', rest)
      else if c = 'r' then some ('\r', rest)
      else if c = 'u' then
        match rest.take 4 with
        | [a, b, c, d] => do
            let n := ((← hexValue a) * 16 + (← hexValue b)) * 256 + (← hexValue c) * 16 +
              (← hexValue d)
            if 55296 ≤ n ∧ n < 57344 then none else some (Char.ofNat n, rest.drop 4)
        | _ => none
      else none

/-- The characters up to the closing quote, and the rest. -/
def readString : Nat → List Char → Option (List Char × List Char)
  | 0, _ => none
  | _ + 1, [] => none
  | fuel + 1, c :: rest =>
      if c = '"' then some ([], rest)
      else if c = '\\' then do
        let (d, rest) ← unescape rest
        let (text, rest) ← readString fuel rest
        some (d :: text, rest)
      else if c.toNat < 32 then none
      else do
        let (text, rest) ← readString fuel rest
        some (c :: text, rest)

/-- A natural number without leading zeros. -/
def readNat (text : List Char) : Option (Nat × List Char) :=
  let digits := text.takeWhile Char.isDigit
  let n := Nat.ofDigitChars 10 digits 0
  if Nat.toDigits 10 n = digits then some (n, text.dropWhile Char.isDigit) else none

def readInt (text : List Char) : Option (Int × List Char) :=
  match text with
  | [] => none
  | c :: rest =>
      if c = '-' then (readNat rest).bind fun (n, rest) => if n = 0 then none else some (-n, rest)
      else (readNat (c :: rest)).map fun (n, rest) => (n, rest)

def readNumber (text : List Char) : Option (JsonInt × List Char) := do
  let (n, rest) ← readInt text
  if rest.head?.any fun c => c = '.' || c = 'e' || c = 'E' then none
  else if h : -9223372036854775808 ≤ n ∧ n < 18446744073709551616 then some (⟨n, h⟩, rest)
  else none

/-- A keyword whose first letter has been read. -/
def readKeyword (letters : List Char) (d : Document) (rest : List Char) :
    Document × Option (List Char) :=
  if letters.isPrefixOf rest then (d, some (rest.drop letters.length))
  else (.error "expected ident", none)

/-- A key and the colon after it. -/
def readKey (text : List Char) : Option (String × List Char) :=
  match skipBlanks text with
  | [] => none
  | c :: rest =>
      if c = '"' then do
        let (key, rest) ← readString (rest.length + 1) rest
        if (skipBlanks rest).head? = some ':' then
          some (String.ofList key, (skipBlanks rest).tail)
        else none
      else none

mutual

def readValue : Nat → List Char → Document × Option (List Char)
  | 0, _ => (.error "recursion limit exceeded", none)
  | fuel + 1, text =>
      match skipBlanks text with
      | [] => (.error "EOF while parsing a value", none)
      | c :: rest =>
          if c = '"' then
            match readString (rest.length + 1) rest with
            | some (s, rest) => (.string (String.ofList s), some rest)
            | none => (.error "invalid string", none)
          else if c = '[' then
            if (skipBlanks rest).head? = some ']' then (.seq [] none, some (skipBlanks rest).tail)
            else
              let (items, stop, rest) := readItems fuel (',' :: rest)
              (.seq items stop, rest)
          else if c = '\x7b' then
            if (skipBlanks rest).head? = some '\x7d' then
              (.map [] none, some (skipBlanks rest).tail)
            else
              let (members, stop, rest) := readMembers fuel (',' :: rest)
              (.map members stop, rest)
          else if c = 'n' then readKeyword ['u', 'l', 'l'] .null rest
          else if c = 't' then readKeyword ['r', 'u', 'e'] (.bool true) rest
          else if c = 'f' then readKeyword ['a', 'l', 's', 'e'] (.bool false) rest
          else
            match readNumber (c :: rest) with
            | some (n, rest) => (.number (.int n), some rest)
            | none => (.error "expected value", none)

/-- The items of a list, each after a comma, up to the closing bracket. -/
def readItems : Nat → List Char → List Document × Option String × Option (List Char)
  | 0, _ => ([], some "recursion limit exceeded", none)
  | fuel + 1, text =>
      match skipBlanks text with
      | [] => ([], some "EOF while parsing a list", none)
      | c :: rest =>
          if c = ']' then ([], none, some rest)
          else if c = ',' then
            match readValue fuel rest with
            | (d, none) => ([d], none, none)
            | (d, some rest) =>
                let (items, stop, rest) := readItems fuel rest
                (d :: items, stop, rest)
          else ([], some "expected comma or bracket", none)

/-- The members of an object, each after a comma, up to the closing brace. -/
def readMembers : Nat → List Char → List (String × Document) × Option String × Option (List Char)
  | 0, _ => ([], some "recursion limit exceeded", none)
  | fuel + 1, text =>
      match skipBlanks text with
      | [] => ([], some "EOF while parsing an object", none)
      | c :: rest =>
          if c = '\x7d' then ([], none, some rest)
          else if c = ',' then
            match readKey rest with
            | none => ([], some "key must be a string", none)
            | some (key, rest) =>
                match readValue fuel rest with
                | (d, none) => ([(key, d)], none, none)
                | (d, some rest) =>
                    let (members, stop, rest) := readMembers fuel rest
                    ((key, d) :: members, stop, rest)
          else ([], some "expected comma or brace", none)

end

end Library.Json
