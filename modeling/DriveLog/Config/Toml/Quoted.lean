import DriveLog.Text.Numeral
set_option autoImplicit false

namespace DriveLog.Config.Toml

def isBlank (c : Char) : Bool := c = ' ' || c = '\t'

def isPlain (c : Char) : Bool := c = '\t' || (0x20 ≤ c.toNat && c.toNat ≠ 0x7f)

structure Quotes where
  mark : Char
  escapes : Bool
  multiline : Bool := false

namespace Quotes

/-- The closing quotes at the start of a text: what they still add to the quoted text, and what
follows them. Up to two quotes before the closing three belong to the text. -/
def close? (q : Quotes) (l : List Char) : Option (List Char × List Char) :=
  let n := (l.takeWhile (· = q.mark)).length
  if q.multiline then
    if n < 3 then none
    else
      let kept := min (n - 3) 2
      some (List.replicate kept q.mark, l.drop (kept + 3))
  else if n = 0 then none
  else some ([], l.drop 1)

def allows (q : Quotes) (c : Char) : Bool := isPlain c || (q.multiline && c = '\n')

def push (c : Char) (p : List Char × List Char) : List Char × List Char := (c :: p.1, p.2)

def body? (q : Quotes) : List Char → Option (List Char × List Char)
  | [] => none
  | c :: rest =>
    match q.close? (c :: rest) with
    | some p => some p
    | none =>
      if !q.allows c then none
      else if q.escapes && c = '\\' then
        match rest with
        | d :: rest => if q.allows d then (q.body? rest).map fun p => push c (push d p) else none
        | [] => none
      else (q.body? rest).map (push c)

end Quotes

def shortEscape? : Char → Option Char
  | '"' => some '"'
  | '\\' => some '\\'
  | 'b' => some '\x08'
  | 'f' => some '\x0c'
  | 'n' => some '\n'
  | 'r' => some '\r'
  | 't' => some '\t'
  | _ => none

def codedChar? (digits : List Char) : Option Char := do
  let n ← Text.naturalIn? 16 digits
  if n.isValidChar then return Char.ofNat n else none

def endsLine (l : List Char) : Bool := (l.dropWhile isBlank).head? = some '\n'

/-- What a text with escapes stands for. A backslash at the end of a line takes away all blanks and
line ends that follow. -/
def unescape? (folding : Bool) : List Char → Option (List Char)
  | [] => some []
  | '\\' :: 'u' :: a :: b :: c :: d :: rest => do
    let x ← codedChar? [a, b, c, d]
    return x :: (← unescape? false rest)
  | '\\' :: 'U' :: a :: b :: c :: d :: e :: f :: g :: h :: rest => do
    let x ← codedChar? [a, b, c, d, e, f, g, h]
    return x :: (← unescape? false rest)
  | '\\' :: c :: rest =>
    match shortEscape? c with
    | some x => (x :: ·) <$> unescape? false rest
    | none => if endsLine (c :: rest) then unescape? true rest else none
  | c :: rest =>
    if folding && (isBlank c || c = '\n') then unescape? true rest
    else (c :: ·) <$> unescape? false rest

/-- The opening quotes of a text, and what follows them. A line end right after three quotes does
not count. -/
def openQuotes? : List Char → Option (Quotes × List Char)
  | '"' :: '"' :: '"' :: '\n' :: rest => some (⟨'"', true, true⟩, rest)
  | '"' :: '"' :: '"' :: rest => some (⟨'"', true, true⟩, rest)
  | '"' :: rest => some (⟨'"', true, false⟩, rest)
  | '\'' :: '\'' :: '\'' :: '\n' :: rest => some (⟨'\'', false, true⟩, rest)
  | '\'' :: '\'' :: '\'' :: rest => some (⟨'\'', false, true⟩, rest)
  | '\'' :: rest => some (⟨'\'', false, false⟩, rest)
  | _ => none

def quotedIn? (q : Quotes) (l : List Char) : Option (String × List Char) := do
  let (body, rest) ← q.body? l
  let text ← if q.escapes then unescape? false body else some body
  return (String.ofList text, rest)

end DriveLog.Config.Toml
