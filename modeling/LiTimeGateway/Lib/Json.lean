import Mathlib.Data.List.Basic
/-!
# A JSON parser

RFC 8259 over bytes. `parse` accepts a text when it is one value with white
space around it. Strings hold UTF-8, a control character may not stand in them
as it is, and `\u` escapes are UTF-16 code units that have to form characters.
A number is kept as its text. The fuel bounds the nesting; `parse` gives enough
for any text of that length.
-/

namespace Lib.Json

inductive Value where
  | null
  | bool (b : Bool)
  | number (text : List UInt8)
  | string (text : List UInt8)
  | array (elements : List Value)
  | object (members : List (List UInt8 × Value))

/-! ## Scanners -/

/-- Blank, tab, newline and carriage return. -/
def isSpace (c : UInt8) : Bool := c = 32 || c = 9 || c = 10 || c = 13

def skipSpace (t : List UInt8) : List UInt8 := t.dropWhile isSpace

/-- What is left behind `c`, which must come next. -/
def expect (c : UInt8) (t : List UInt8) : Option (List UInt8) :=
  match skipSpace t with
  | [] => none
  | d :: t => if d = c then some t else none

def isDigit (c : UInt8) : Bool := 48 ≤ c && c ≤ 57

/-- Digits, `+`, `-`, `.`, `e` and `E`. -/
def isNumberChar (c : UInt8) : Bool := isDigit c || c = 43 || c = 45 || c = 46 || c = 101 || c = 69

/-- `int`: no zero in front of other digits. -/
def isInt (digits : List UInt8) : Bool :=
  !digits.isEmpty && (digits.length = 1 || digits.head? ≠ some 48)

def isExponent : List UInt8 → Bool
  | [] => true
  | e :: t =>
    let digits := if t.head? = some 43 || t.head? = some 45 then t.tail else t
    (e = 101 || e = 69) && !digits.isEmpty && digits.all isDigit

def isFraction : List UInt8 → Bool
  | [] => true
  | c :: t => if c = 46 then !(t.takeWhile isDigit).isEmpty && isExponent (t.dropWhile isDigit) else isExponent (c :: t)

/-- `[ minus ] int [ frac ] [ exp ]` -/
def isNumber (t : List UInt8) : Bool :=
  let t := if t.head? = some 45 then t.tail else t
  isInt (t.takeWhile isDigit) && isFraction (t.dropWhile isDigit)

/-- Nothing that may stand in a number may follow one, so the longest run is the number. -/
def number (t : List UInt8) : Option (Value × List UInt8) :=
  if isNumber (t.takeWhile isNumberChar) then
    some (.number (t.takeWhile isNumberChar), t.dropWhile isNumberChar)
  else none

def literal (word : List UInt8) (v : Value) (t : List UInt8) : Option (Value × List UInt8) :=
  if word.isPrefixOf t then some (v, t.drop word.length) else none

/-! ## Strings -/

/-- A byte of a string, or a UTF-16 code unit of a `\u` escape. -/
inductive Piece where
  | byte (b : UInt8)
  | unit (u : Nat)

def hexValue (c : UInt8) : Option Nat :=
  if isDigit c then some (c.toNat - 48)
  else if 65 ≤ c ∧ c ≤ 70 then some (c.toNat - 55)
  else if 97 ≤ c ∧ c ≤ 102 then some (c.toNat - 87)
  else none

def hexUnit (a b c d : UInt8) : Option Nat := do
  let a ← hexValue a
  let b ← hexValue b
  let c ← hexValue c
  let d ← hexValue d
  return ((a * 16 + b) * 16 + c) * 16 + d

/-- The escapes of one character. -/
def escaped (c : UInt8) : Option UInt8 :=
  if c = 34 ∨ c = 92 ∨ c = 47 then some c
  else if c = 98 then some 8
  else if c = 102 then some 12
  else if c = 110 then some 10
  else if c = 114 then some 13
  else if c = 116 then some 9
  else none

/-- The string whose opening quote has been read, and what follows its closing quote. -/
def pieces : List UInt8 → Option (List Piece × List UInt8)
  | [] => none
  | 92 :: 117 :: a :: b :: c :: d :: t => do
    let u ← hexUnit a b c d
    let (ps, rest) ← pieces t
    return (.unit u :: ps, rest)
  | 92 :: e :: t => do
    let b ← escaped e
    let (ps, rest) ← pieces t
    return (.byte b :: ps, rest)
  | c :: t =>
    if c = 34 then some ([], t)
    else if c < 32 ∨ c = 92 then none
    else do
      let (ps, rest) ← pieces t
      return (.byte c :: ps, rest)

/-- The bytes of a string; code units outside the surrogates, or in pairs, are characters. -/
def assemble : List Piece → Option (List UInt8)
  | [] => some []
  | .byte b :: ps => (assemble ps).map (b :: ·)
  | .unit h :: .unit l :: ps =>
    if 0xD800 ≤ h ∧ h < 0xDC00 ∧ 0xDC00 ≤ l ∧ l < 0xE000 then
      (assemble ps).map
        (String.utf8EncodeChar (Char.ofNat (0x10000 + (h - 0xD800) * 0x400 + (l - 0xDC00))) ++ ·)
    else if 0xD800 ≤ h ∧ h < 0xE000 then none
    else (assemble (.unit l :: ps)).map (String.utf8EncodeChar (Char.ofNat h) ++ ·)
  | .unit u :: ps =>
    if 0xD800 ≤ u ∧ u < 0xE000 then none
    else (assemble ps).map (String.utf8EncodeChar (Char.ofNat u) ++ ·)

def isUtf8 (t : List UInt8) : Bool := ByteArray.validateUTF8 ⟨t.toArray⟩

def string (t : List UInt8) : Option (List UInt8 × List UInt8) := do
  let (ps, rest) ← pieces t
  let text ← assemble ps
  if isUtf8 text then some (text, rest) else none

/-! ## Values -/

mutual

def value : (fuel : Nat) → List UInt8 → Option (Value × List UInt8)
  | 0, _ => none
  | fuel + 1, t =>
    match skipSpace t with
    | [] => none
    | c :: t =>
      if c = 34 then (string t).map fun p => (.string p.1, p.2)
      else if c = 91 then
        match expect 93 t with
        | some rest => some (.array [], rest)
        | none => (elements fuel t).map fun p => (.array p.1, p.2)
      else if c = 123 then
        match expect 125 t with
        | some rest => some (.object [], rest)
        | none => (members fuel t).map fun p => (.object p.1, p.2)
      else if c = 116 then literal [116, 114, 117, 101] (.bool true) (c :: t)
      else if c = 102 then literal [102, 97, 108, 115, 101] (.bool false) (c :: t)
      else if c = 110 then literal [110, 117, 108, 108] .null (c :: t)
      else number (c :: t)

/-- The elements of an array, from the first one on, and its closing bracket. -/
def elements : (fuel : Nat) → List UInt8 → Option (List Value × List UInt8)
  | 0, _ => none
  | fuel + 1, t => do
    let (v, t) ← value fuel t
    match expect 44 t with
    | some t => (elements fuel t).map fun p => (v :: p.1, p.2)
    | none => (expect 93 t).map fun rest => ([v], rest)

/-- The members of an object, from the first one on, and its closing brace. -/
def members : (fuel : Nat) → List UInt8 → Option (List (List UInt8 × Value) × List UInt8)
  | 0, _ => none
  | fuel + 1, t => do
    let t ← expect 34 t
    let (key, t) ← string t
    let t ← expect 58 t
    let (v, t) ← value fuel t
    match expect 44 t with
    | some t => (members fuel t).map fun p => ((key, v) :: p.1, p.2)
    | none => (expect 125 t).map fun rest => ([(key, v)], rest)

end

/-- The value of a JSON text, if it is one. -/
def parse (t : List UInt8) : Option Value := do
  let (v, rest) ← value t.length t
  if (skipSpace rest).isEmpty then some v else none

/-! ## Access -/

/-- The value of the last member with this key, as `JSON.parse` keeps it. -/
def Value.get (key : List UInt8) : Value → Option Value
  | .object members => (members.reverse.find? (·.1 = key)).map (·.2)
  | _ => none

def Value.text : Value → Option (List UInt8)
  | .string text => some text
  | _ => none

def Value.elements : Value → Option (List Value)
  | .array vs => some vs
  | _ => none

end Lib.Json
