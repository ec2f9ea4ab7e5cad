/-!
# Terminal text

A text for a terminal may hold control sequences: an escape opens one, and its kind decides where it ends.  `plain`
is what is left of a text where they have no meaning, the characters that print and the controls that lay text out.

A layout control may stand inside a sequence.  It is kept, and so is what follows it, up to the next character that
does not print; from there on the sequence is read further, unless that character opens or cancels one.
-/

namespace PulseWidth.Text

/-- What a character belongs to. -/
inductive Passage where
  /-- Plain text. -/
  | text
  /-- A sequence of which only the escape has been seen. -/
  | escape
  /-- An escape sequence that one more character completes. -/
  | escapeTail
  /-- A control sequence, opened by `[`. -/
  | control
  /-- A device string, opened by `P`, before its parameters. -/
  | deviceHead
  /-- A device string in its parameters. -/
  | deviceParameters
  /-- A device string after its parameters. -/
  | deviceTail
  /-- The content of a device string, or a string of another kind that no terminal shows. -/
  | string
  /-- A command to the system that the terminal runs on, opened by `]`. -/
  | command
deriving DecidableEq, Repr

/-- Whether the character is a control that lays text out. -/
def isLayout (c : Char) : Bool := c = '\t' || c = '\n' || c = '\x0c' || c = '\r'

/-- Whether the character belongs to a text that is shown. -/
def prints (c : Char) : Bool := (' ' ≤ c && c ≠ '\x7f') || isLayout c

/-- Whether `c` lies between two characters. -/
def isWithin (first last c : Char) : Bool := first ≤ c && c ≤ last

namespace Passage

/-- What a character after an escape opens. -/
def opened : Char → Passage
  | '[' => control
  | 'P' => deviceHead
  | ']' => command
  | 'X' | '^' | '_' => string
  | _ => text

/-- Whether the character ends a string: its encoding holds the byte of the string terminator. -/
def endsString (c : Char) : Bool := (String.utf8EncodeChar c).contains 0x9C

/-- The passage that a character leads to, unless it stays in the same one, and whether the character is shown. -/
def next (p : Passage) (c : Char) : Option Passage × Bool :=
  if c = '\x18' || c = '\x1a' then (some text, false)
  else if c = '\x1b' then (some escape, false)
  else match p with
  | text => (if c ≤ '\x7f' then none else some text, prints c)
  | escape =>
    (if isWithin ' ' '/' c then some escapeTail else if isWithin '0' '~' c then some (opened c) else none, isLayout c)
  | escapeTail => (if isWithin '0' '~' c then some text else none, isLayout c)
  | control => (if isWithin '@' '~' c then some text else none, isLayout c)
  | deviceHead =>
    (if isWithin ' ' '/' c then some deviceTail
      else if isWithin '0' '?' c then some deviceParameters
      else if isWithin '@' '~' c then some string
      else none, false)
  | deviceParameters =>
    (if isWithin ' ' '/' c then some deviceTail else if isWithin '<' '~' c then some string else none, false)
  | deviceTail => (if isWithin '0' '~' c then some string else none, false)
  | string => (if endsString c then some text else none, false)
  | command => (if c = '\x07' then some text else none, false)

/-- Reads a character, given whether the one before it was shown: while characters are shown they are read as plain
text. -/
def read (p : Passage) (showing : Bool) (c : Char) : Passage × Bool :=
  let (left?, shown) := text.next c
  let p := if showing then left?.getD p else p
  if showing && shown then (p, true)
  else
    let (left?, shown) := p.next c
    (left?.getD p, shown)

/-- What is shown of a text. -/
def visible : Passage → Bool → List Char → List Char
  | _, _, [] => []
  | p, showing, c :: rest =>
    match p.read showing c with
    | (p, true) => c :: visible p true rest
    | (p, false) => visible p false rest

end Passage

/-- The text without control sequences. -/
def plain (text : String) : String := String.ofList (Passage.text.visible false text.toList)

/-- The text in bold. -/
def bold (text : String) : String := "\x1b[1m" ++ text ++ "\x1b[0m"

/-- The text in bold and underlined. -/
def underlined (text : String) : String := "\x1b[1m\x1b[4m" ++ text ++ "\x1b[0m"

/-- The text with every line after the first behind an indentation. -/
def indented (indentation text : String) : String :=
  String.ofList (text.toList.flatMap fun c => if c = '\n' then '\n' :: indentation.toList else [c])

/-- The lines of a text, each of which a line feed ends, or a carriage return and a line feed; the last line needs no
end.  `line` is what has been read of the first one, the last character first. -/
def linesFrom (line : List Char) : List Char → List String
  | [] => if line.isEmpty then [] else [String.ofList line.reverse]
  | '\n' :: rest =>
    let line := if line.head? = some '\r' then line.drop 1 else line
    String.ofList line.reverse :: linesFrom [] rest
  | c :: rest => linesFrom (c :: line) rest

/-- The lines of a text. -/
def lines (text : String) : List String := linesFrom [] text.toList

end PulseWidth.Text
