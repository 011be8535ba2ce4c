namespace MockAudit

def pieces (separator : Char) : List Char → List (List Char)
  | [] => [[]]
  | c :: rest =>
      if c = separator then [] :: pieces separator rest
      else
        match pieces separator rest with
        | [] => [[c]]
        | piece :: others => (c :: piece) :: others

def splitText (separator : Char) (text : String) : List String :=
  (pieces separator text.toList).map String.ofList

/-- The lines that end before the separators between pieces. A carriage return before a line feed belongs to the
line end; what follows the last line feed is a line unless it is empty. -/
def linesOfPieces : List (List Char) → List (List Char)
  | [] => []
  | [last] => if last.isEmpty then [] else [last]
  | line :: rest =>
      (if line.getLast? == some '\r' then line.dropLast else line) :: linesOfPieces rest

def textLines (text : List Char) : List (List Char) := linesOfPieces (pieces '\n' text)

def isBlank (c : Char) : Bool :=
  let n := c.toNat
  (9 ≤ n && n ≤ 13) || n == 0x20 || n == 0x85 || n == 0xA0 || n == 0x1680
    || (0x2000 ≤ n && n ≤ 0x200A) || n == 0x2028 || n == 0x2029 || n == 0x202F || n == 0x205F
    || n == 0x3000

def trimEnd (text : List Char) : List Char := (text.reverse.dropWhile isBlank).reverse

def trimBlanks (text : String) : String := String.ofList (trimEnd (text.toList.dropWhile isBlank))

end MockAudit
