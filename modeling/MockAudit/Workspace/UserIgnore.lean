import MockAudit.Workspace.FileTree
import MockAudit.Workspace.IgnoreRule

namespace MockAudit.UserIgnore

def isSpace (c : Char) : Bool := c == ' ' || ('\t' ≤ c && c ≤ '\r')

def blanks (text : List Char) : List Char := text.takeWhile isSpace

def skipSpaces (text : List Char) : List Char := text.dropWhile isSpace

def onlyBlanks (text : List Char) : Bool := (blanks text).contains '\n' || (skipSpaces text).isEmpty

def endsValue (text : List Char) : Bool :=
  onlyBlanks text ||
    match skipSpaces text with
    | '"' :: rest => onlyBlanks rest
    | _ => false

def word? : List Char → Option (List Char)
  | [] => none
  | c :: rest =>
      if isSpace c then none
      else if endsValue rest then some [c]
      else (word? rest).map (c :: ·)

/-- The value at the start of a text. A quote before it is left out unless it is the value. -/
def value? (text : List Char) : Option (List Char) :=
  match skipSpaces text with
  | '"' :: rest => word? (skipSpaces rest) <|> word? ('"' :: rest)
  | text => word? text

def setting? (name : List Char) (text : List Char) : Option (List Char) :=
  let text := skipSpaces text
  if (text.take name.length).map Char.toLower = name then
    match skipSpaces (text.drop name.length) with
    | '=' :: rest => value? rest
    | _ => none
  else none

def firstSetting? (name : List Char) (atStart : Bool) : List Char → Option (List Char)
  | [] => none
  | c :: rest =>
      (if atStart then setting? name (c :: rest) else none) <|> firstSetting? name (c == '\n') rest

def pathOfSettings? (home : Path) (settings : String) : Option Path :=
  (firstSetting? "excludesfile".toList true settings.toList).map fun path =>
    String.ofList (path.flatMap fun c => if c = '~' then home.toList else [c])

def path (fs : FileSystem) (home : Path) : Path :=
  let named (file : String) : Option Path :=
    (fs.read (home.join file)).toOption.bind (pathOfSettings? home)
  (named ".gitconfig" <|> named ".config/git/config").getD (home.join ".config/git/ignore")

def rules (fs : FileSystem) (home : Option Path) : IgnoreFile :=
  match home.bind fun home => (fs.read (path fs home)).toOption with
  | some text => IgnoreFile.ofText text
  | none => .empty

end MockAudit.UserIgnore
