/-!
Data in JSON notation: a text is cut into tokens, and the tokens are read with
a stack of the brackets still open. Objects keep every field, repeated names
included, so that a reader can tell whether a name occurs twice.
-/

namespace LateIR.Json

/-- A value without parts. Numbers with a fraction or an exponent are set apart
from integers, and integers keep their sign apart, so that minus zero is not
zero. -/
inductive Scalar where
  | null
  | bool (b : Bool)
  | integer (negative : Bool) (magnitude : Nat)
  | decimal
  /-- A string, without a value when its escapes do not make up characters. -/
  | string (value : Option String)
  deriving DecidableEq

inductive Value where
  | scalar (s : Scalar)
  | array (items : List Value)
  | object (fields : List (Option String × Value))

inductive Token where
  | openArray
  | closeArray
  | openObject
  | closeObject
  | comma
  | colon
  | scalar (s : Scalar)
  deriving DecidableEq

/-! ### Strings -/

/-- Part of a string: a character, or an escaped 16-bit unit of one. -/
inductive StringPart where
  | char (c : Char)
  | unit (n : Nat)
  deriving DecidableEq

def isHighSurrogate (n : Nat) : Bool := 0xD800 ≤ n && n < 0xDC00

def isLowSurrogate (n : Nat) : Bool := 0xDC00 ≤ n && n < 0xE000

/-- The characters of a string. A high surrogate needs a low one right after it,
and no low one stands alone. -/
def decodeParts : List StringPart → Option (List Char)
  | [] => some []
  | .char c :: rest => (decodeParts rest).map (c :: ·)
  | .unit n :: .unit m :: rest =>
      if isHighSurrogate n then
        if isLowSurrogate m then
          (decodeParts rest).map (.ofNat (0x10000 + (n - 0xD800) * 0x400 + (m - 0xDC00)) :: ·)
        else none
      else if isLowSurrogate n then none
      else (decodeParts (.unit m :: rest)).map (.ofNat n :: ·)
  | .unit n :: rest =>
      if isHighSurrogate n || isLowSurrogate n then none
      else (decodeParts rest).map (.ofNat n :: ·)

def hexDigit? (c : Char) : Option Nat :=
  if '0' ≤ c ∧ c ≤ '9' then some (c.toNat - '0'.toNat)
  else if 'a' ≤ c ∧ c ≤ 'f' then some (c.toNat - 'a'.toNat + 10)
  else if 'A' ≤ c ∧ c ≤ 'F' then some (c.toNat - 'A'.toNat + 10)
  else none

/-- The unit with the four hexadecimal digits. -/
def hexUnit? (a b c d : Char) : Option Nat := do
  let a ← hexDigit? a
  let b ← hexDigit? b
  let c ← hexDigit? c
  let d ← hexDigit? d
  some (((a * 16 + b) * 16 + c) * 16 + d)

/-- The character that a backslash and a letter stand for. -/
def shortEscape? (c : Char) : Option Char :=
  [('"', '"'), ('\\', '\\'), ('/', '/'), ('b', '\x08'), ('f', '\x0c'), ('n', '\n'), ('r', '\r'),
    ('t', '\t')].lookup c

/-- The parts of a string up to its closing quote, and the text after it. -/
def stringParts? : List Char → Option (List StringPart × List Char)
  | [] => none
  | '"' :: rest => some ([], rest)
  | '\\' :: 'u' :: a :: b :: c :: d :: rest => do
      let n ← hexUnit? a b c d
      let (parts, rest) ← stringParts? rest
      some (.unit n :: parts, rest)
  | '\\' :: c :: rest => do
      let c ← shortEscape? c
      let (parts, rest) ← stringParts? rest
      some (.char c :: parts, rest)
  | c :: rest =>
      if c.toNat < 0x20 then none
      else do
        let (parts, rest) ← stringParts? rest
        some (.char c :: parts, rest)

/-! ### Numbers -/

/-- The leading digits and what follows them. -/
def digits (s : List Char) : List Char × List Char := s.span Char.isDigit

def natOfDigits (ds : List Char) : Nat :=
  ds.foldl (fun n d => 10 * n + (d.toNat - '0'.toNat)) 0

/-- What follows a fraction: a point and at least one digit. -/
def afterFraction? : List Char → Option (List Char)
  | '.' :: s =>
      match digits s with
      | ([], _) => none
      | (_, rest) => some rest
  | _ => none

/-- What follows an exponent: the letter, perhaps a sign, and at least one
digit. -/
def afterExponent? : List Char → Option (List Char)
  | e :: s =>
      if e = 'e' ∨ e = 'E' then
        let unsigned := match s with
          | '+' :: s | '-' :: s => s
          | s => s
        match digits unsigned with
        | ([], _) => none
        | (_, rest) => some rest
      else none
  | [] => none

/-- A number without its sign, and the text after it. A zero takes no further
digits. -/
def number? (negative : Bool) (s : List Char) : Option (Scalar × List Char) :=
  let whole := match s with
    | '0' :: rest => (['0'], rest)
    | s => digits s
  match whole with
  | ([], _) => none
  | (ds, rest) =>
      let fraction := afterFraction? rest
      let rest' := fraction.getD rest
      match afterExponent? rest' with
      | some rest'' => some (.decimal, rest'')
      | none =>
          if fraction.isSome then some (.decimal, rest')
          else some (.integer negative (natOfDigits ds), rest)

/-! ### Tokens -/

def isBlank (c : Char) : Bool := c = ' ' || c = '\n' || c = '\t' || c = '\r'

/-- The token at the start of a text, and the text after it. -/
def token? : List Char → Option (Token × List Char)
  | '[' :: rest => some (.openArray, rest)
  | ']' :: rest => some (.closeArray, rest)
  | '\x7b' :: rest => some (.openObject, rest)
  | '\x7d' :: rest => some (.closeObject, rest)
  | ',' :: rest => some (.comma, rest)
  | ':' :: rest => some (.colon, rest)
  | '"' :: rest =>
      (stringParts? rest).map fun (parts, rest) =>
        (.scalar (.string ((decodeParts parts).map String.ofList)), rest)
  | 'n' :: 'u' :: 'l' :: 'l' :: rest => some (.scalar .null, rest)
  | 't' :: 'r' :: 'u' :: 'e' :: rest => some (.scalar (.bool true), rest)
  | 'f' :: 'a' :: 'l' :: 's' :: 'e' :: rest => some (.scalar (.bool false), rest)
  | '-' :: rest => (number? true rest).map fun (n, rest) => (.scalar n, rest)
  | s => (number? false s).map fun (n, rest) => (.scalar n, rest)

/-- Cuts a text into at most `fuel` tokens. -/
def tokensWithin : Nat → List Char → Option (List Token)
  | fuel, s =>
      match s.dropWhile isBlank, fuel with
      | [], _ => some []
      | _, 0 => none
      | s, fuel + 1 => do
          let (t, rest) ← token? s
          let ts ← tokensWithin fuel rest
          some (t :: ts)

/-- The tokens of a text. Each takes at least one character. -/
def tokens? (s : String) : Option (List Token) := tokensWithin s.length s.toList

/-! ### Values -/

/-- An open bracket with what was read inside it, the last part first. An object
has also read the name of the field whose value comes next. -/
inductive Context where
  | array (before : List Value)
  | object (before : List (Option String × Value)) (name : Option String)

/-- What the reader is about to see. -/
inductive Expected where
  | value
  /-- The first item of an array, or its end. -/
  | itemOrEnd
  /-- The first name in an object, or its end. -/
  | nameOrEnd
  | name (before : List (Option String × Value))
  | colon (before : List (Option String × Value)) (name : Option String)
  /-- What follows a value. -/
  | after (v : Value)

structure Reader where
  expected : Expected
  contexts : List Context

namespace Reader

def start : Reader := ⟨.value, []⟩

/-- Reads a token where a value may start. -/
def beginValue (contexts : List Context) : Token → Option Reader
  | .scalar s => some ⟨.after (.scalar s), contexts⟩
  | .openArray => some ⟨.itemOrEnd, contexts⟩
  | .openObject => some ⟨.nameOrEnd, contexts⟩
  | _ => none

/-- Reads one token. -/
def advance (r : Reader) (t : Token) : Option Reader :=
  match r.expected, r.contexts, t with
  | .value, contexts, t => beginValue contexts t
  | .itemOrEnd, contexts, .closeArray => some ⟨.after (.array []), contexts⟩
  | .itemOrEnd, contexts, t => beginValue (.array [] :: contexts) t
  | .nameOrEnd, contexts, .closeObject => some ⟨.after (.object []), contexts⟩
  | .nameOrEnd, contexts, .scalar (.string name) => some ⟨.colon [] name, contexts⟩
  | .name before, contexts, .scalar (.string name) => some ⟨.colon before name, contexts⟩
  | .colon before name, contexts, .colon => some ⟨.value, .object before name :: contexts⟩
  | .after v, .array before :: contexts, .comma =>
      some ⟨.value, .array (v :: before) :: contexts⟩
  | .after v, .array before :: contexts, .closeArray =>
      some ⟨.after (.array (v :: before).reverse), contexts⟩
  | .after v, .object before name :: contexts, .comma =>
      some ⟨.name ((name, v) :: before), contexts⟩
  | .after v, .object before name :: contexts, .closeObject =>
      some ⟨.after (.object ((name, v) :: before).reverse), contexts⟩
  | _, _, _ => none

/-- The value read, once nothing is open. -/
def result? (r : Reader) : Option Value :=
  match r.expected, r.contexts with
  | .after v, [] => some v
  | _, _ => none

end Reader

/-- The value that a text denotes. -/
def parse? (s : String) : Option Value := do
  let ts ← tokens? s
  let r ← ts.foldlM Reader.advance Reader.start
  r.result?

end LateIR.Json
