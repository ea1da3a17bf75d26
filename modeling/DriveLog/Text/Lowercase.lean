import DriveLog.Text.LetterCase
/-!
Lower-casing in all scripts. The small form of a letter depends on its place for one letter only: a
sigma at the end of a word has a form of its own.
-/
set_option autoImplicit false

namespace DriveLog.Text

def isCased (c : Char) : Bool := casedRanges.contains c

def isCaseIgnorable (c : Char) : Bool := caseIgnorableRanges.contains c

def smallForm (c : Char) : List Char :=
  if c.toNat < 0x80 then [c.toLower]
  else if c = 'İ' then ['i', '\u0307']
  else match capitalRuns.find? (·.contains c) with
    | some r => [r.small c]
    | none => [c]

def meetsCased (l : List Char) : Bool :=
  match l.dropWhile isCaseIgnorable with
  | c :: _ => isCased c
  | [] => false

/-- The small forms of a text after the characters `before`, the last of them first. A sigma ends a
word if a cased character comes before it and none after it. -/
def smallForms (before : List Char) : List Char → List Char
  | [] => []
  | c :: rest =>
    let small :=
      if c = 'Σ' then [if meetsCased before && !meetsCased rest then 'ς' else 'σ'] else smallForm c
    small ++ smallForms (c :: before) rest

def lowercase (s : String) : String := String.ofList (smallForms [] s.toList)

end DriveLog.Text
