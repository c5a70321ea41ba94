import Mathlib

namespace Fornax

abbrev Text := List Char

instance Text.instCoe : Coe String Text := ⟨String.toList⟩

instance Text.instLawfulBEq : LawfulBEq Text := inferInstance

abbrev Bytes := List UInt8

def asciiBytes (s : String) : Bytes := s.toList.map fun ch => UInt8.ofNat ch.toNat

/-- `str::as_bytes`. -/
def utf8Bytes (s : String) : Bytes := s.toByteArray.data.toList

instance instNeZeroWord : NeZero (2 ^ 64) := ⟨by decide⟩

/-- A number is a non-negative or a negative 64-bit integer, or a float (its bits). -/
inductive JsonNumber
  | posInt (n : Fin (2 ^ 64))
  | negInt (n : Int) (hneg : n < 0) (hmin : -2 ^ 63 ≤ n)
  | float (bits : Fin (2 ^ 64))
  deriving DecidableEq

inductive Json
  | null
  | bool (b : Bool)
  | number (n : JsonNumber)
  | string (s : String)
  | array (items : List Json)
  | object (fields : List (String × Json))

namespace Json

def get? : Json → String → Option Json
  | object fields, key => (fields.find? fun f => f.1 == key).map (·.2)
  | _, _ => none

def asStr : Json → Option String
  | string s => some s
  | _ => none

def asBool : Json → Option Bool
  | bool b => some b
  | _ => none

def asI64 : Json → Option Int
  | number (.posInt n) => if n.val < 2 ^ 63 then some n.val else none
  | number (.negInt n _ _) => some n
  | _ => none

def asU64 : Json → Option ℕ
  | number (.posInt n) => some n.val
  | _ => none

end Json

/-- `char::is_whitespace`, the Unicode property `White_Space`. -/
def isWhitespace (ch : Char) : Bool :=
  let n := ch.toNat
  (9 ≤ n && n ≤ 13) || n == 0x20 || n == 0x85 || n == 0xA0 || n == 0x1680 ||
    (0x2000 ≤ n && n ≤ 0x200A) || n == 0x2028 || n == 0x2029 || n == 0x202F || n == 0x205F ||
    n == 0x3000

/-- `char::is_control`, the general category `Cc`. -/
def isControl (c : Char) : Bool :=
  let n := c.toNat
  n ≤ 0x1f || (0x7f ≤ n && n ≤ 0x9f)

def isAscii (c : Char) : Bool := c.toNat < 128

structure TextTables where
  alphanumeric : Char → Bool
  lower : Char → Text
  cased : Char → Bool
  caseIgnorable : Char → Bool
  printJson : Json → Text

namespace TextTables

variable (t : TextTables)

def isAlphanumeric (c : Char) : Bool := if isAscii c then c.isAlphanum else t.alphanumeric c

def lowerChar (c : Char) : Text := if isAscii c then [c.toLower] else t.lower c

def caseIgnorableThenCased (l : Text) : Bool :=
  ((l.dropWhile t.caseIgnorable).head?.map t.cased).getD false

/-- Lower case from left to right, `before` the part already read in reverse; a capital sigma at the
end of a word has its own form. -/
def lowerAfter (before : Text) : Text → Text
  | [] => []
  | c :: rest =>
    (if c = 'Σ' then
      if t.caseIgnorableThenCased before && !t.caseIgnorableThenCased rest then ['ς'] else ['σ']
    else t.lowerChar c) ++ lowerAfter (c :: before) rest

def toLowercase (s : Text) : Text := t.lowerAfter [] s

end TextTables

namespace Text

def trimStart (s : Text) : Text := s.dropWhile isWhitespace

def trim (s : Text) : Text := (trimStart (trimStart s).reverse).reverse

def splitOnce (c : Char) (s : Text) : Option (Text × Text) :=
  if c ∈ s then some (s.takeWhile (· != c), (s.dropWhile (· != c)).tail) else none

/-- The part after the last `c`, the whole string when there is none. -/
def afterLast (c : Char) (s : Text) : Text := (s.reverse.takeWhile (· != c)).reverse

def utf8Len (s : Text) : ℕ := (s.map Char.utf8Size).sum

def startsWith (s p : Text) : Bool := p.isPrefixOf s

def contains (s p : Text) : Bool := decide (p <:+: s)

/-- A line break ends a line, with a carriage return before it; `line` is the current one in
reverse. -/
def linesFrom (line : Text) : Text → List Text
  | [] => if line.isEmpty then [] else [line.reverse]
  | c :: rest =>
    if c = '\n' then
      (if line.head? = some '\r' then line.tail else line).reverse :: linesFrom [] rest
    else linesFrom (c :: line) rest

def lines (s : Text) : List Text := linesFrom [] s

def splitWhitespace (s : Text) : List Text := (s.splitOnP isWhitespace).filter fun w => !w.isEmpty

def isIdentifier : Text → Bool
  | [] => false
  | c :: rest => (c.isAlpha || c == '_') && rest.all fun c => c.isAlphanum || c == '_'

end Text

end Fornax
