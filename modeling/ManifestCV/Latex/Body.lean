import ManifestCV.Foundation.Delimiters
import ManifestCV.Foundation.Splitting

namespace ManifestCV.Latex

open Foundation

def specialChars : List (Char × Str) := [
  ('\\', "\\textbackslash\x7b\x7d".toList), ('&', "\\&".toList), ('%', "\\%".toList), ('$', "\\$".toList),
  ('#', "\\#".toList), ('{', "\\\x7b".toList), ('}', "\\\x7d".toList),
    ('~', "\\textasciitilde\x7b\x7d".toList),
  ('^', "\\textasciicircum\x7b\x7d".toList)]

def escapeChar (c : Char) : Str := (specialChars.lookup c).getD [c]

def escapeLatex (text : Str) : Str := text.flatMap escapeChar

inductive Emphasis where
  | bold
  | italic
  deriving DecidableEq

def Emphasis.command : Emphasis → Str
  | .bold => "\\textbf\x7b".toList
  | .italic => "\\textit\x7b".toList

/-- The delimiters of `_BOLD_RE` and of the two alternatives of `_ITALIC_RE`. -/
def Emphasis.delimiters : Emphasis → List Str
  | .bold => ["**".toList]
  | .italic => ["*".toList, "_".toList]

/-- One of the two passes over a line; a line has no newline, so that `.` matches all of it. -/
def emphasize (emphasis : Emphasis) (text : Str) : Str :=
  substitute emphasis.delimiters (fun group => emphasis.command ++ group ++ ['}']) text

def inlineToLatex (text : Str) : Str :=
  replaceChar '_' "\\_".toList (emphasize .italic (emphasize .bold (escapeLatex text)))

def afterSpaces (rest : Str) : Option Str := if rest.head?.any isSpace then some (lstrip rest) else none

def headingMatch (stripped : Str) : Option (Nat × Str) :=
  let hashes := stripped.takeWhile (· = '#')
  if 1 ≤ hashes.length ∧ hashes.length ≤ 6 then
    (afterSpaces (stripped.dropWhile (· = '#'))).map (hashes.length, ·)
  else none

def bulletMatch : Str → Option Str
  | c :: rest => if c = '-' ∨ c = '*' then afterSpaces rest else none
  | [] => none

inductive ListMode where
  | itemize
  | enumerate
  deriving DecidableEq

def ListMode.name : ListMode → Str
  | .itemize => "itemize".toList
  | .enumerate => "enumerate".toList

def beginLine (mode : ListMode) : Str := "\\begin\x7b".toList ++ mode.name ++ ['}']

def endLine (mode : ListMode) : Str := "\\end\x7b".toList ++ mode.name ++ ['}']

def headingCommand (level : Nat) : Str :=
  if level = 1 then "section*".toList else if level = 2 then "subsection*".toList else "subsubsection*".toList

def headingLine (level : Nat) (text : Str) : Str :=
  '\\' :: headingCommand level ++ ['{'] ++ inlineToLatex text ++ ['}']

def itemLine (text : Str) : Str := "\\item ".toList ++ inlineToLatex text

structure Output where
  out : List Str
  listMode : Option ListMode

def Output.closeList (output : Output) : Output :=
  match output.listMode with
  | some mode => ⟨output.out ++ [endLine mode], none⟩
  | none => output

def Output.add (output : Output) (line : Str) : Output := { output with out := output.out ++ [line] }

def Output.addItem (output : Output) (mode : ListMode) (text : Str) : Output :=
  let output := if output.listMode = some mode then output else
    { output.closeList.add (beginLine mode) with listMode := some mode }
  output.add (itemLine text)

section Lines

-- `\d` of `re`: the decimal digits of Unicode.
variable (isDecimal : Char → Bool)

def numberedMatch (stripped : Str) : Option Str :=
  if stripped.takeWhile isDecimal = [] then none
  else
    match stripped.dropWhile isDecimal with
    | '.' :: rest => afterSpaces rest
    | _ => none

def readLine (output : Output) (line : Str) : Output :=
  let stripped := strip line
  if stripped.isEmpty then output.closeList.add []
  else
    match headingMatch stripped with
    | some (level, text) => output.closeList.add (headingLine level text)
    | none =>
      match bulletMatch stripped with
      | some text => output.addItem .itemize text
      | none =>
        match numberedMatch isDecimal stripped with
        | some text => output.addItem .enumerate text
        | none => output.closeList.add (inlineToLatex stripped)

def markdownToLatexBody (content : Str) : Str :=
  joinWith ['\n'] ((splitlines content).foldl (readLine isDecimal) ⟨[], none⟩).closeList.out

end Lines

set_option maxRecDepth 20000 in
example : markdownToLatexBody Char.isDigit "# Go\n- **a _b** c_ & d\n1. e_f".toList =
    "\\section*\x7bGo\x7d\n\\begin\x7bitemize\x7d\n".toList ++
      "\\item \\textbf\x7ba \\textit\x7bb\x7d c\x7d \\& d\n\\end\x7bitemize\x7d\n".toList ++
      "\\begin\x7benumerate\x7d\n\\item e\\_f\n\\end\x7benumerate\x7d".toList := by
  decide

end ManifestCV.Latex
