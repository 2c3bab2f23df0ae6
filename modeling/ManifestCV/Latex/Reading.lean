import ManifestCV.Latex.Body

namespace ManifestCV.Latex

open Foundation

inductive Token where
  | char (c : Char)
  | start (emphasis : Emphasis)
  | stop
  deriving DecidableEq

def spellings : List (Str × Token) :=
  specialChars.map (fun special => (special.2, .char special.1)) ++
    [("\\_".toList, .char '_'), (Emphasis.bold.command, .start .bold),
      (Emphasis.italic.command, .start .italic), (['}'], .stop)]

/-- The characters that stand for themselves nowhere. -/
def reserved : List Char := "\\&%$#\x7b\x7d~^_".toList

def readTokens : Nat → Str → Option (List Token)
  | _, [] => some []
  | 0, _ :: _ => none
  | fuel + 1, c :: rest =>
    match firstEntry spellings (c :: rest) with
    | some (token, after) => (readTokens fuel after).map (token :: ·)
    | none => if reserved.contains c then none else (readTokens fuel rest).map (.char c :: ·)

def groupsClose : Nat → List Token → Bool
  | depth, [] => depth = 0
  | depth, .char _ :: rest => groupsClose depth rest
  | depth, .start _ :: rest => groupsClose (depth + 1) rest
  | 0, .stop :: _ => false
  | depth + 1, .stop :: rest => groupsClose depth rest

def readInline (source : Str) : Option (List Token) :=
  (readTokens source.length source).filter (groupsClose 0)

inductive LatexLine where
  | blank
  | heading (command : Str) (text : List Token)
  | item (text : List Token)
  | paragraph (text : List Token)
  | opening (mode : ListMode)
  | closing (mode : ListMode)
  deriving DecidableEq

def headings : List (Str × Str) :=
  ["section*".toList, "subsection*".toList, "subsubsection*".toList].map fun command =>
    ('\\' :: command ++ ['{'], command)

def readHeading (line : Str) : Option LatexLine :=
  (firstEntry headings line).bind fun (command, rest) =>
    if rest.getLast? = some '}' then (readInline rest.dropLast).map (.heading command) else none

def readEnvironment (line : Str) : Option LatexLine :=
  [ListMode.itemize, ListMode.enumerate].findSome? fun mode =>
    if line = beginLine mode then some (.opening mode) else if line = endLine mode then some (.closing mode)
      else none

def readItem (line : Str) : Option LatexLine :=
  (line.dropPrefix? "\\item ".toList).bind fun rest => (readInline rest).map .item

def readLatexLine (line : Str) : Option LatexLine :=
  if line = [] then some .blank
  else (((readEnvironment line).or (readHeading line)).or (readItem line)).or
    ((readInline line).map .paragraph)

def listsClose : Option ListMode → List LatexLine → Bool
  | mode, [] => mode = none
  | none, .opening mode :: rest => listsClose (some mode) rest
  | some mode, .closing other :: rest => mode = other && listsClose none rest
  | some mode, .item _ :: rest => listsClose (some mode) rest
  | none, .blank :: rest => listsClose none rest
  | none, .heading _ _ :: rest => listsClose none rest
  | none, .paragraph _ :: rest => listsClose none rest
  | _, _ :: _ => false

def Token.text : Token → Option Char
  | .char c => some c
  | _ => none

def textOf (tokens : List Token) : Str := tokens.filterMap Token.text

def LatexLine.text : LatexLine → Option Str
  | .heading _ text => some (textOf text)
  | .item text => some (textOf text)
  | .paragraph text => some (textOf text)
  | _ => none

def pairUp (emphasis : Emphasis) (tokens : List Token) : List Token :=
  substitute (emphasis.delimiters.map (·.map Token.char)) (fun group => .start emphasis :: group ++ [.stop])
    tokens

def markUp (text : Str) : List Token := pairUp .italic (pairUp .bold (text.map .char))

def plainText (text : Str) : Str := textOf (markUp text)

def unmarked (isDecimal : Char → Bool) (line : Str) : Str :=
  let stripped := strip line
  ((((headingMatch stripped).map Prod.snd).or (bulletMatch stripped)).or
    (numberedMatch isDecimal stripped)).getD stripped

example : plainText "**a _b** c_ *d".toList = "a b c *d".toList := by decide

end ManifestCV.Latex
