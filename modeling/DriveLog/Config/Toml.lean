import DriveLog.Config.Toml.Quoted
import DriveLog.Config.Toml.Tree
import DriveLog.Config.Toml.Word
set_option autoImplicit false

namespace DriveLog.Config.Toml

def skipBlanks (l : List Char) : List Char := l.dropWhile isBlank

/-- The text with plain line ends and without the mark of its encoding. A carriage return belongs to
a line end. -/
def plainLines? : List Char → Option (List Char)
  | [] => some []
  | '\r' :: '\n' :: l => ('\n' :: ·) <$> plainLines? l
  | '\r' :: _ => none
  | c :: l => (c :: ·) <$> plainLines? l

def endLine? (l : List Char) : Option (List Char) :=
  let l := match skipBlanks l with
    | '#' :: l => l.dropWhile isPlain
    | l => l
  match l with
  | [] => some []
  | '\n' :: l => some l
  | _ => none

def skipLayout? (comment : Bool) : List Char → Option (List Char)
  | [] => some []
  | c :: l =>
    if c = '\n' then skipLayout? false l
    else if comment then if isPlain c then skipLayout? true l else none
    else if c = '#' then skipLayout? true l
    else if isBlank c then skipLayout? false l
    else some (c :: l)

def isKeyChar (c : Char) : Bool := c.isAlphanum || c == '_' || c == '-'

def keyPart? (l : List Char) : Option (String × List Char) :=
  match l with
  | '"' :: rest => quotedIn? ⟨'"', true, false⟩ rest
  | '\'' :: rest => quotedIn? ⟨'\'', false, false⟩ rest
  | l =>
    let name := l.takeWhile isKeyChar
    if name = [] then none else some (String.ofList name, l.dropWhile isKeyChar)

def key? (limit : Nat) (l : List Char) : Option ((String × List String) × List Char) :=
  match limit with
  | 0 => none
  | limit + 1 => do
    let (part, rest) ← keyPart? (skipBlanks l)
    match skipBlanks rest with
    | '.' :: rest =>
      let ((next, more), rest) ← key? limit rest
      return ((part, next :: more), rest)
    | rest => return ((part, []), rest)

def maxDepth : Nat := 79

mutual

def value? : (fuel depth : Nat) → List Char → Option (Node × List Char)
  | 0, _, _ => none
  | fuel + 1, depth, l =>
    match l with
    | '[' :: rest =>
      if depth = 0 then none
      else (items? fuel (depth - 1) rest).map fun p => (.list p.1, p.2)
    | '\x7b' :: rest =>
      if depth = 0 then none
      else match skipBlanks rest with
        | '\x7d' :: rest => some (.table .braced [], rest)
        | rest => (fields? fuel (depth - 1) [] rest).map fun p => (.table .braced p.1, p.2)
    | l =>
      match openQuotes? l with
      | some (q, rest) => (quotedIn? q rest).map fun p => (.quoted p.1, p.2)
      | none =>
        let (word, rest) := takeWord l
        (word? word).map fun s => (.word s, rest)

def items? : (fuel depth : Nat) → List Char → Option (List Node × List Char)
  | 0, _, _ => none
  | fuel + 1, depth, l => do
    match ← skipLayout? false l with
    | ']' :: rest => return ([], rest)
    | l =>
      let (n, rest) ← value? fuel depth l
      match ← skipLayout? false rest with
      | ',' :: rest =>
        let (items, rest) ← items? fuel depth rest
        return (n :: items, rest)
      | ']' :: rest => return ([n], rest)
      | _ => none

def fields? : (fuel depth : Nat) → Fields → List Char → Option (Fields × List Char)
  | 0, _, _, _ => none
  | fuel + 1, depth, fields, l => do
    match ← key? maxDepth l with
    | ((key, more), '=' :: rest) =>
      let (n, rest) ← value? fuel depth (skipBlanks rest)
      let fields ← fields.add n key more
      match skipBlanks rest with
      | ',' :: rest => fields? fuel depth fields rest
      | '\x7d' :: rest => return (fields, rest)
      | _ => none
    | _ => none

end

/-- What a text has stated so far, and the header that is open. -/
structure Document where
  fields : Fields := []
  header : List String := []

namespace Document

def openTable (d : Document) (parents : List String) (key : String) : Option Document := do
  return { fields := ← d.fields.within (·.openTable key) parents, header := parents ++ [key] }

def openRow (d : Document) (parents : List String) (key : String) : Option Document := do
  return { fields := ← d.fields.within (·.openRow key) parents, header := parents ++ [key] }

def add (d : Document) (n : Node) (key : String) (more : List String) : Option Document := do
  return { d with fields := ← d.fields.within (·.add n key more) d.header }

def header? (l : List Char) : Option (List String × String × List Char) := do
  let ((key, more), rest) ← key? maxDepth l
  let parts := key :: more
  return (parts.dropLast, parts.getLastD key, rest)

def readLine? (d : Document) (l : List Char) : Option (Document × List Char) :=
  match l with
  | '[' :: '[' :: l => do
    match ← header? l with
    | (parents, key, ']' :: ']' :: rest) => return (← d.openRow parents key, ← endLine? rest)
    | _ => none
  | '[' :: l => do
    match ← header? l with
    | (parents, key, ']' :: rest) => return (← d.openTable parents key, ← endLine? rest)
    | _ => none
  | l => do
    match ← key? maxDepth l with
    | ((key, more), '=' :: rest) =>
      let rest := skipBlanks rest
      let (n, rest) ← value? (rest.length + 1) maxDepth rest
      return (← d.add n key more, ← endLine? rest)
    | _ => none

def read? : (fuel : Nat) → Document → List Char → Option Document
  | 0, _, _ => none
  | fuel + 1, d, l => do
    match ← skipLayout? false l with
    | [] => return d
    | l =>
      let (d, rest) ← d.readLine? l
      read? fuel d rest

end Document

/-- The value that a whole text stands for, which is a table unless its first key makes a date or a
time of it. -/
def parse? (s : String) : Option Value := do
  let l := match s.toList with
    | '\ufeff' :: l => l
    | l => l
  let l ← plainLines? l
  let d ← Document.read? (l.length + 1) {} l
  tableValue? d.fields

end DriveLog.Config.Toml
