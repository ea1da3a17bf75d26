import DriveLog.Config.Value
import DriveLog.Text.Numeral
set_option autoImplicit false

namespace DriveLog.Config.Json

def isBlank (c : Char) : Bool := c = ' ' || c = '\t' || c = '\n' || c = '\r'

def skipBlanks (l : List Char) : List Char := l.dropWhile isBlank

def isHighSurrogate (n : Nat) : Bool := 0xd800 ≤ n && n < 0xdc00

def isLowSurrogate (n : Nat) : Bool := 0xdc00 ≤ n && n < 0xe000

def joinSurrogates (high low : Nat) : Char :=
  Char.ofNat (0x10000 + (high - 0xd800) * 0x400 + (low - 0xdc00))

def shortEscape? : Char → Option Char
  | '"' => some '"'
  | '\\' => some '\\'
  | '/' => some '/'
  | 'b' => some '\x08'
  | 'f' => some '\x0c'
  | 'n' => some '\n'
  | 'r' => some '\r'
  | 't' => some '\t'
  | _ => none

def stringBody? : List Char → Option (List Char × List Char)
  | '"' :: rest => some ([], rest)
  | '\\' :: 'u' :: a :: b :: c :: d :: rest => do
    let n ← Text.naturalIn? 16 [a, b, c, d]
    if isHighSurrogate n then
      match rest with
      | '\\' :: 'u' :: e :: f :: g :: h :: rest => do
        let low ← Text.naturalIn? 16 [e, f, g, h]
        if isLowSurrogate low then
          let (body, rest) ← stringBody? rest
          return (joinSurrogates n low :: body, rest)
        else none
      | _ => none
    else if isLowSurrogate n then none
    else
      let (body, rest) ← stringBody? rest
      return (Char.ofNat n :: body, rest)
  | '\\' :: c :: rest => do
    let c ← shortEscape? c
    let (body, rest) ← stringBody? rest
    return (c :: body, rest)
  | c :: rest => do
    if c.toNat < 0x20 then none
    else
      let (body, rest) ← stringBody? rest
      return (c :: body, rest)
  | [] => none

def string? (l : List Char) : Option (String × List Char) :=
  match l with
  | '"' :: rest => (stringBody? rest).map fun p => (String.ofList p.1, p.2)
  | _ => none

/-- An integer of 64 bits stays one; every other numeral is a finite double. The integer zero has no
sign. -/
def numeralValue? (n : Text.Numeral) : Option Scalar :=
  if n.isInteger && Text.isInt64 n.integer && !(n.negative && n.integer == 0) then
    some (.int n.integer)
  else if n.number.isFinite then some (.float n.number)
  else none

def number? (l : List Char) : Option (Scalar × List Char) := do
  let (n, rest) ← match l with
    | '-' :: l => Text.Numeral.take? true l
    | l => Text.Numeral.take? false l
  if n.isStrict then (numeralValue? n).map fun v => (v, rest) else none

def maxDepth : Nat := 128

mutual

def value? : (fuel depth : Nat) → List Char → Option (Value × List Char)
  | 0, _, _ => none
  | fuel + 1, depth, l =>
    match skipBlanks l with
    | 'n' :: 'u' :: 'l' :: 'l' :: rest => some (.scalar .null, rest)
    | 't' :: 'r' :: 'u' :: 'e' :: rest => some (.scalar (.bool true), rest)
    | 'f' :: 'a' :: 'l' :: 's' :: 'e' :: rest => some (.scalar (.bool false), rest)
    | '"' :: rest => (stringBody? rest).map fun p => (.scalar (.text (String.ofList p.1)), p.2)
    | '[' :: rest =>
      if depth ≤ 1 then none
      else match skipBlanks rest with
        | ']' :: rest => some (.list [], rest)
        | rest => (items? fuel (depth - 1) rest).map fun p => (.list p.1, p.2)
    | '\x7b' :: rest =>
      if depth ≤ 1 then none
      else match skipBlanks rest with
        | '\x7d' :: rest => some (.table [], rest)
        | rest => (fields? fuel (depth - 1) rest).map fun p => (.table p.1, p.2)
    | rest => (number? rest).map fun p => (.scalar p.1, p.2)

def items? : (fuel depth : Nat) → List Char → Option (List Value × List Char)
  | 0, _, _ => none
  | fuel + 1, depth, l => do
    let (v, rest) ← value? fuel depth l
    match skipBlanks rest with
    | ',' :: rest =>
      let (items, rest) ← items? fuel depth rest
      return (v :: items, rest)
    | ']' :: rest => return ([v], rest)
    | _ => none

/-- The fields of a table up to its end; of two with one key the later counts. -/
def fields? : (fuel depth : Nat) → List Char → Option (List (String × Value) × List Char)
  | 0, _, _ => none
  | fuel + 1, depth, l => do
    let (key, rest) ← string? (skipBlanks l)
    match skipBlanks rest with
    | ':' :: rest =>
      let (v, rest) ← value? fuel depth rest
      match skipBlanks rest with
      | ',' :: rest =>
        let (fields, rest) ← fields? fuel depth rest
        return (if fields.any fun f => f.1 = key then fields else (key, v) :: fields, rest)
      | '\x7d' :: rest => return ([(key, v)], rest)
      | _ => none
    | _ => none

end

def parse? (s : String) : Option Value := do
  let l := s.toList
  let (v, rest) ← value? (l.length + 1) maxDepth l
  if skipBlanks rest = [] then return v else none

end DriveLog.Config.Json
