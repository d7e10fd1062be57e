import Mathlib.Algebra.Ring.Int.Defs
import Mathlib.Data.Int.Notation

/-!
# JSON

The values of JSON, and its grammar as a parser (`parse`): one value, between white space.
Texts are lists of bytes, and a JSON text has to be in UTF-8 (`Utf8`): it is the encoding of
some code points. An escaped code point stands for its bytes.
-/

/-- The values of JSON. Numbers without a fraction and an exponent are integers, others are
    a mantissa with a power of ten. -/
inductive Json
  | null
  | bool (b : Bool)
  | integer (n : ℤ)
  | float (mantissa exponent : ℤ)
  | string (s : List Char)
  | array (elements : List Json)
  | object (members : List (List Char × Json))

namespace Json

/-- Text, as bytes. -/
abbrev Text := List Char

/-! ## The parser -/

/-- White space. -/
def isSpace (c : Char) : Bool := c = ' ' || c = '\t' || c = '\n' || c = '\r'

/-- The text after white space. -/
def skip (s : Text) : Text := s.dropWhile isSpace

/-- The text after a character, with white space before it. -/
def expect (c : Char) (s : Text) : Option Text :=
  match skip s with
  | [] => none
  | d :: s => if d = c then some s else none

/-- The rest of a literal name. -/
def literal (name : Text) (s : Text) : Option Text :=
  if name <+: s then some (s.drop name.length) else none

/-- The value of a hexadecimal digit. -/
def hexDigit (c : Char) : Option ℕ :=
  if c.isDigit then some (c.toNat - '0'.toNat)
  else if 'a' ≤ c ∧ c ≤ 'f' then some (c.toNat - 'a'.toNat + 10)
  else if 'A' ≤ c ∧ c ≤ 'F' then some (c.toNat - 'A'.toNat + 10)
  else none

/-- Four hexadecimal digits. -/
def hexDigits : Text → Option (ℕ × Text)
  | a :: b :: c :: d :: s =>
    (hexDigit a).bind fun a => (hexDigit b).bind fun b => (hexDigit c).bind fun c =>
      (hexDigit d).map fun d => (((a * 16 + b) * 16 + c) * 16 + d, s)
  | _ => none

/-- The bytes of a code point. -/
def utf8 (code : ℕ) : Text :=
  (String.utf8EncodeChar (Char.ofNat code)).map fun b => Char.ofNat b.toNat

/-- What a character after a backslash stands for. -/
def unescape (c : Char) : Option Char :=
  if c = '"' ∨ c = '\\' ∨ c = '/' then some c
  else if c = 'b' then some (Char.ofNat 8)
  else if c = 'f' then some (Char.ofNat 12)
  else if c = 'n' then some '\n'
  else if c = 'r' then some '\r'
  else if c = 't' then some '\t'
  else none

/-- A code point given by its hexadecimal digits, or by those of two surrogates. -/
def codePoint (s : Text) : Option (Text × Text) :=
  (hexDigits s).bind fun (high, s) =>
    if 0xD800 ≤ high ∧ high < 0xDC00 then
      (literal ['\\', 'u'] s).bind fun s => (hexDigits s).bind fun (low, s) =>
        if 0xDC00 ≤ low ∧ low < 0xE000 then
          some (utf8 (0x10000 + (high - 0xD800) * 0x400 + (low - 0xDC00)), s)
        else none
    else if 0xDC00 ≤ high ∧ high < 0xE000 then none
    else some (utf8 high, s)

/-- What follows a backslash in a string. -/
def escape : Text → Option (Text × Text)
  | [] => none
  | c :: s => if c = 'u' then codePoint s else (unescape c).map fun c => ([c], s)

/-- The rest of a string, up to its closing quotation mark. The fuel bounds its length. -/
def parseChars : ℕ → Text → Option (Text × Text)
  | 0, _ => none
  | _ + 1, [] => none
  | fuel + 1, c :: s =>
    if c = '"' then some ([], s)
    else if c = '\\' then
      (escape s).bind fun (out, s) => (parseChars fuel s).map fun (t, s) => (out ++ t, s)
    else if c < ' ' then none
    else (parseChars fuel s).map fun (t, s) => (c :: t, s)

/-- One digit or more. -/
def digits (s : Text) : Option (Text × Text) :=
  if s.takeWhile Char.isDigit = [] then none
  else some (s.takeWhile Char.isDigit, s.dropWhile Char.isDigit)

/-- The digits after a decimal point, if there is one. -/
def fraction : Text → Option (Text × Text)
  | [] => some ([], [])
  | c :: s => if c = '.' then digits s else some ([], c :: s)

/-- The exponent, if there is one. -/
def exponent : Text → Option (Option ℤ × Text)
  | [] => some (none, [])
  | c :: s =>
    if c = 'e' ∨ c = 'E' then
      match s with
      | [] => none
      | d :: t =>
        if d = '-' then (digits t).map fun (ds, s) => (some (-(Nat.ofDigitChars 10 ds 0 : ℤ)), s)
        else if d = '+' then (digits t).map fun (ds, s) => (some (Nat.ofDigitChars 10 ds 0 : ℤ), s)
        else (digits s).map fun (ds, s) => (some (Nat.ofDigitChars 10 ds 0 : ℤ), s)
    else some (none, c :: s)

/-- A number without its sign. -/
def unsigned (sign : ℤ) (s : Text) : Option (Json × Text) :=
  (digits s).bind fun (ds, s) =>
    if 1 < ds.length ∧ ds.head? = some '0' then none
    else (fraction s).bind fun (fs, s) => (exponent s).map fun (e, s) =>
      if fs = [] ∧ e = none then (integer (sign * Nat.ofDigitChars 10 ds 0), s)
      else (float (sign * Nat.ofDigitChars 10 (ds ++ fs) 0) (e.getD 0 - fs.length), s)

def parseNumber : Text → Option (Json × Text)
  | [] => none
  | c :: s => if c = '-' then unsigned (-1) s else unsigned 1 (c :: s)

mutual

/-- A value, with white space before it, and the text after it. The fuel bounds how deep
    and how long it may be. -/
def parseValue : ℕ → Text → Option (Json × Text)
  | 0, _ => none
  | fuel + 1, s =>
    match skip s with
    | [] => none
    | c :: s =>
      if c = '"' then (parseChars s.length s).map fun (t, s) => (string t, s)
      else if c = '{' then
        match expect '}' s with
        | some s => some (object [], s)
        | none => (parseMembers fuel s).map fun (ms, s) => (object ms, s)
      else if c = '[' then
        match expect ']' s with
        | some s => some (array [], s)
        | none => (parseElements fuel s).map fun (es, s) => (array es, s)
      else if c = 't' then (literal "rue".toList s).map fun s => (bool true, s)
      else if c = 'f' then (literal "alse".toList s).map fun s => (bool false, s)
      else if c = 'n' then (literal "ull".toList s).map fun s => (null, s)
      else parseNumber (c :: s)

/-- The members of an object, and its closing brace. -/
def parseMembers : ℕ → Text → Option (List (Text × Json) × Text)
  | 0, _ => none
  | fuel + 1, s =>
    (expect '"' s).bind fun s => (parseChars s.length s).bind fun (key, s) =>
      (expect ':' s).bind fun s => (parseValue fuel s).bind fun (v, s) =>
        match expect ',' s with
        | some s => (parseMembers fuel s).map fun (ms, s) => ((key, v) :: ms, s)
        | none => (expect '}' s).map fun s => ([(key, v)], s)

/-- The elements of an array, and its closing bracket. -/
def parseElements : ℕ → Text → Option (List Json × Text)
  | 0, _ => none
  | fuel + 1, s =>
    (parseValue fuel s).bind fun (v, s) =>
      match expect ',' s with
      | some s => (parseElements fuel s).map fun (es, s) => (v :: es, s)
      | none => (expect ']' s).map fun s => ([v], s)

end

/-- A JSON text: a value, and nothing but white space around it. -/
def parse (s : Text) : Option Json :=
  (parseValue s.length s).bind fun (v, s) => if skip s = [] then some v else none

/-- The text is the encoding of code points. -/
def Utf8 (s : Text) : Prop := ∃ cs : List Char, s = cs.flatMap fun c => utf8 c.toNat

/-- A JSON text for a value. -/
def Valid (s : Text) (v : Json) : Prop := Utf8 s ∧ parse s = some v

end Json
