import CanInsight.ConfigFile
import CanInsight.Lib.Parser

/-!
# Reading JSON

`deserializeJson`, with which the configuration file and the first lines of the logs are read.
It takes more than JSON: comments, strings between apostrophes, and keys without quotation
marks. It takes less too: the code points of escape sequences are not supported, the document
has a nesting limit, and its values are allocated in a memory pool.

* `JsonDeserializer.parse`: the parser, with the limit, on what is left of the text and of the
  pool;
* `deserializeJson`: what becomes of a text.

The end of the text and a terminator in it are the same to the parser.
-/

namespace CanInsight

open CString

/-- `DeserializationError`, but for `Ok`. -/
inductive DeserializationError
  | incompleteInput
  | invalidInput
  | noMemory
  | notSupported
  | tooDeep

namespace JsonDeserializer

open Parsing Parser

/-- What is left of the text, and the bytes that are left of the memory pool. -/
abbrev Parser := Parsing.Parser Char ℕ DeserializationError

/-- What the parser is instantiated with: strings are copied to the pool (from a file), or
    moved to the front of the array they are read from. Floating-point numbers, which stand for
    a mantissa with a power of ten, are whatever `parseFloat` gives. -/
structure Config where
  copies : Bool
  parseFloat : Bytes → ℤ × ℤ

/-! ## Spaces and comments -/

/-- Where `skipSpacesAndComments` is. -/
inductive Skipping
  | spaces
  | slash
  | block (wasStar : Bool)
  | line

/-- `skipSpacesAndComments`. -/
def skipFrom : Skipping → Bytes → Except DeserializationError (Unit × Bytes)
  | .spaces, [] => .error .incompleteInput
  | .slash, [] => .error .invalidInput
  | .block _, [] => .error .incompleteInput
  | .line, [] => .error .incompleteInput
  | .spaces, c :: s =>
    if c = nul then .error .incompleteInput
    else if c = ' ' ∨ c = '\t' ∨ c = '\r' ∨ c = '\n' then skipFrom .spaces s
    else if c = '/' then skipFrom .slash s
    else .ok ((), c :: s)
  | .slash, c :: s =>
    if c = '*' then skipFrom (.block false) s
    else if c = '/' then skipFrom .line s
    else .error .invalidInput
  | .block wasStar, c :: s =>
    if c = nul then .error .incompleteInput
    else if c = '/' ∧ wasStar = true then skipFrom .spaces s
    else skipFrom (.block (c = '*')) s
  | .line, c :: s =>
    if c = nul then .error .incompleteInput
    -- the line feed is left, to be skipped as a space
    else if c = '\n' then skipFrom .spaces s
    else skipFrom .line s

def skipSpacesAndComments : Parser Unit := scan (skipFrom .spaces)

/-! ## Strings -/

def isQuote (c : Char) : Bool := c = '\'' || c = '"'

def canBeInNonQuotedString (c : Char) : Bool :=
  ('0' ≤ c && c ≤ '9') || ('_' ≤ c && c ≤ 'z') || ('A' ≤ c && c ≤ 'Z') ||
    c = '+' || c = '-' || c = '.'

/-- `EscapeSequence::unescapeChar`: what the table has not stands for itself. -/
def unescapeChar (c : Char) : Char :=
  if c = 'b' then Char.ofNat 8
  else if c = 'f' then Char.ofNat 12
  else if c = 'n' then '\n'
  else if c = 'r' then '\r'
  else if c = 't' then '\t'
  else c

/-- The rest of a string, up to `stopChar`, and perhaps after a backslash. -/
def quotedFrom (stopChar : Char) : Bool → Bytes → Except DeserializationError (Bytes × Bytes)
  | _, [] => .error .incompleteInput
  | false, c :: s =>
    if c = stopChar then .ok ([], s)
    else if c = nul then .error .incompleteInput
    else if c = '\\' then quotedFrom stopChar true s
    else (quotedFrom stopChar false s).map fun (t, s) => (c :: t, s)
  | true, c :: s =>
    if c = nul then .error .incompleteInput
    else if c = 'u' then .error .notSupported
    else (quotedFrom stopChar false s).map fun (t, s) => (unescapeChar c :: t, s)

/-- A string whose first character is also its last one. -/
def quoted : Bytes → Except DeserializationError (Bytes × Bytes)
  | [] => .error .incompleteInput
  | c :: s => quotedFrom c false s

def nonQuoted (s : Bytes) : Except DeserializationError (Bytes × Bytes) :=
  match s with
  | [] => .error .incompleteInput
  | c :: s =>
    if c = nul then .error .incompleteInput
    else if canBeInNonQuotedString c then
      .ok ((c :: s).takeWhile canBeInNonQuotedString, (c :: s).dropWhile canBeInNonQuotedString)
    else .error .invalidInput

/-- Bytes of the pool, if there are as many left. -/
def allocate (n : ℕ) : Parser Unit :=
  spend fun free => if n ≤ free then .ok (free - n) else .error .noMemory

/-- What a string takes of the pool, with its terminator. -/
def stringSize (copies : Bool) (t : Bytes) : ℕ := if copies then t.length + 1 else 0

/-- The string is complete: what it takes of the pool is kept. -/
def complete (copies : Bool) (p : Parser Bytes) : Parser Bytes := do
  let t ← p
  allocate (stringSize copies t)
  return t

/-- The next character. -/
def current : Parser Char := fun r => .ok (r.text.headD nul, r)

/-- `parseQuotedString`. -/
def parseQuotedString (copies : Bool) : Parser Bytes := complete copies (scan quoted)

/-- `parseNonQuotedString`. -/
def parseNonQuotedString (copies : Bool) : Parser Bytes := complete copies (scan nonQuoted)

def parseKey (copies : Bool) : Parser Bytes := do
  if isQuote (← current) then parseQuotedString copies else parseNonQuotedString copies

/-! ## Numbers and names -/

def isSign (c : Char) : Bool := c = '-' || c = '+'

/-- The text after a sign. -/
def dropSign : Bytes → Bytes
  | [] => []
  | c :: s => if isSign c then s else c :: s

def isInteger (s : Bytes) : Bool := s ≠ [] ∧ (dropSign s).all Char.isDigit = true

/-- The text after the decimals. -/
def dropDecimals : Bytes → Bytes
  | [] => []
  | c :: s => if c = '.' then s.dropWhile Char.isDigit else c :: s

/-- There is nothing left but an exponent. -/
def isExponent : Bytes → Bool
  | [] => true
  | c :: s => (c = 'e' || c = 'E') && dropSign s ≠ [] && (dropSign s).all Char.isDigit

def isFloat (s : Bytes) : Bool :=
  s = "NaN".toList || dropSign s = "Infinity".toList ||
    (dropSign s ≠ [] && isExponent (dropDecimals ((dropSign s).dropWhile Char.isDigit)))

/-- What `parseNumericValue` reads into its buffer. -/
def buffer (s : Bytes) : Bytes := (s.takeWhile canBeInNonQuotedString).take 63

/-- A name is told by its first character and its length. -/
def named (v : Json) (length : ℕ) (b : Bytes) : Except DeserializationError Json :=
  if b.length = length then .ok v else .error .incompleteInput

/-- What the buffer is read as. -/
def numericValue (parseFloat : Bytes → ℤ × ℤ) (b : Bytes) : Except DeserializationError Json :=
  if isInteger b then .ok (.integer (i32 (parseInteger b)))
  else if isFloat b then .ok (.float (parseFloat b).1 (parseFloat b).2)
  else if b.head? = some 't' then named (.bool true) 4 b
  else if b.head? = some 'f' then named (.bool false) 5 b
  else if b.head? = some 'n' then named .null 4 b
  else .error .invalidInput

def numeric (parseFloat : Bytes → ℤ × ℤ) (s : Bytes) :
    Except DeserializationError (Json × Bytes) :=
  (numericValue parseFloat (buffer s)).map fun v => (v, s.drop (buffer s).length)

def parseNumericValue (parseFloat : Bytes → ℤ × ℤ) : Parser Json := scan (numeric parseFloat)

def parseStringValue (copies : Bool) : Parser Json := Json.string <$> parseQuotedString copies

/-! ## Values -/

def parseValue (config : Config) : Parser Json := do
  if isQuote (← current) then parseStringValue config.copies
  else parseNumericValue config.parseFloat

/-- A slot of the pool. -/
def allocVariant : Parser Unit := allocate 16

/-- The elements of an array. Each of them takes a slot, so that they are at most so many. -/
def parseElements (parse : Parser Json) : ℕ → Parser (List Json)
  | 0 => throw .noMemory
  | slots + 1 => do
    allocVariant
    let v ← parse
    skipSpacesAndComments
    if ← eat ']' then return [v]
    else if ← eat ',' then (v :: ·) <$> parseElements parse slots
    else throw .invalidInput

/-- The members of an object. -/
def parseMembers (copies : Bool) (parse : Parser Json) : ℕ → Parser (List (Bytes × Json))
  | 0 => throw .noMemory
  | slots + 1 => do
    allocVariant
    let key ← parseKey copies
    skipSpacesAndComments
    if ← eat ':' then
      let v ← parse
      skipSpacesAndComments
      if ← eat '\x7d' then return [(key, v)]
      else if ← eat ',' then
        skipSpacesAndComments
        ((key, v) :: ·) <$> parseMembers copies parse slots
      else throw .invalidInput
    else throw .invalidInput

/-- The slots that are left of the pool. -/
def slotsLeft : Parser ℕ := fun r => .ok (r.store / 16, r)

/-- The rest of an array. -/
def parseArray (parse : Parser Json) : Parser Json := do
  skipSpacesAndComments
  if ← eat ']' then return .array []
  else .array <$> parseElements parse (← slotsLeft)

/-- The rest of an object. -/
def parseObject (copies : Bool) (parse : Parser Json) : Parser Json := do
  skipSpacesAndComments
  if ← eat '\x7d' then return .object []
  else .object <$> parseMembers copies parse (← slotsLeft)

/-- `parse`, with the nesting limit. -/
def parse (config : Config) : ℕ → Parser Json
  | 0 => do
    skipSpacesAndComments
    if ← eat '[' then throw .tooDeep
    else if ← eat '\x7b' then throw .tooDeep
    else parseValue config
  | limit + 1 => do
    skipSpacesAndComments
    if ← eat '[' then parseArray (parse config limit)
    else if ← eat '\x7b' then parseObject config.copies (parse config limit)
    else parseValue config

end JsonDeserializer

/-- `deserializeJson` into a document of `CONFIG_FILE_JSON_SIZE_BYTES`. What comes after the
    value is not read. -/
def deserializeJson (config : JsonDeserializer.Config) (text : Bytes) :
    Except DeserializationError Json :=
  (JsonDeserializer.parse config 10 ⟨text, 3000⟩).map Prod.fst

end CanInsight
