import PulseWidth.Arguments
import PulseWidth.Text.Terminal

/-!
# Help

The help lists what the arguments may say.  In brief, an entry is one line and the descriptions stand in one column;
in full, the description and the notes of an entry stand below it.  The notes of an option are the value that the
environment gives it and the value that holds when nothing is said.

The help is a text for a terminal.  What it quotes from the environment may hold control sequences of its own, so it
is shown plain, unless the environment asks for colour.
-/

namespace PulseWidth

open Text

/-- The name of the program. -/
def programName : String := "pwm-blaster"

/-- The line that tells the version. -/
def versionLine : String := programName ++ " 0.1.0"

/-- An entry of the help. -/
structure HelpEntry where
  /-- What is typed, indented, for a terminal. -/
  form : String
  description : String
  notes : List String
deriving DecidableEq, Repr

namespace HelpEntry

/-- The pins. -/
def pins : HelpEntry := ⟨"  [PIN]...", "GPIO pins to drive [default: 4 17 18 21 22 23 24 25]", []⟩

/-- An argument of two dashes and a name. -/
def dashed (name : String) : String := bold ("--" ++ name)

/-- A switch with a short form. -/
def ofLetter (letter name description : String) : HelpEntry :=
  ⟨"  " ++ bold ("-" ++ letter) ++ ", " ++ dashed name, description, []⟩

/-- A switch. -/
def ofSwitch (name : SwitchName) : HelpEntry := ⟨"      " ++ dashed name.text, name.description, []⟩

/-- An option. -/
def ofOption (environment : List (String × String)) (name : OptionName) : HelpEntry :=
  let source := name.environmentName
  ⟨"      " ++ dashed name.text ++ " <" ++ name.valueName ++ ">", name.description,
    ["[env: " ++ source ++ "=" ++ (environment.lookup source).getD "" ++ "]",
     "[default: " ++ name.standardText ++ "]"]⟩

/-- The number of columns that what is typed takes. -/
def width (e : HelpEntry) : Nat := (plain e.form).length

/-- The description and the notes, with a separator after the description and one between notes. -/
def body (e : HelpEntry) (afterDescription betweenNotes : String) : String :=
  let notes := betweenNotes.intercalate e.notes
  if e.description.isEmpty then notes
  else if e.notes.isEmpty then e.description
  else e.description ++ afterDescription ++ notes

/-- A number of blanks. -/
def blanks (n : Nat) : String := String.ofList (List.replicate n ' ')

/-- The entry with its description in the column two after `widest`. -/
def brief (widest : Nat) (e : HelpEntry) : String :=
  e.form ++ blanks (widest + 2 - e.width) ++ indented (blanks (widest + 2)) (e.body " " " ")

/-- The entry with its description and its notes below what is typed. -/
def full (e : HelpEntry) : String := e.form ++ indented (blanks 10) ("\n" ++ e.body "\n\n" "\n")

/-- Some entries under a heading. -/
def group (inFull : Bool) (heading : String) (entries : List HelpEntry) : String :=
  underlined heading ++ "\n" ++
    if inFull then "\n\n".intercalate (entries.map full)
    else "\n".intercalate (entries.map (brief ((entries.map width).foldl max 0)))

end HelpEntry

/-- The entries that begin with a dash. -/
def dashedEntries (inFull : Bool) (environment : List (String × String)) : List HelpEntry :=
  let option := HelpEntry.ofOption environment
  let other := if inFull then "(see a summary with '-h')" else "(see more with '--help')"
  [.ofSwitch .invert, .ofSwitch .pcm, option .cycle, option .sample, option .dmaChannel, option .soc,
   .ofSwitch .dryRun, option .logLevel,
   .ofLetter "h" "help" ("Print help " ++ other), .ofLetter "V" "version" "Print version"]

/-- What the program is for. -/
def purpose (inFull : Bool) : String :=
  if inFull then
    "Multi-channel software PWM on GPIO, paced by DMA.\n\n"
      ++ "Reads one command per line from stdin: `<pin>=<fraction>`, `<pin>=<slices>s`, `release <pin>`, `stop`, "
      ++ "`start`, `status` or `quit`."
  else "Daemon driving DMA-paced software PWM from line commands on stdin"

/-- The help as a text for a terminal. -/
def helpText (inFull : Bool) (environment : List (String × String)) : String :=
  purpose inFull ++ "\n\n"
    ++ underlined "Usage:" ++ " " ++ bold programName ++ " [OPTIONS] [PIN]...\n\n"
    ++ HelpEntry.group inFull "Arguments:" [.pins] ++ "\n\n"
    ++ HelpEntry.group inFull "Options:" (dashedEntries inFull environment) ++ "\n"

/-- The variables of the environment that rule out and ask for colour, when they are not empty. -/
def colourVariables : List String := ["NO_COLOR", "CLICOLOR_FORCE"]

/-- Whether the environment asks for colour where no terminal shows it. -/
def wantsColour (environment : List (String × String)) : Bool :=
  let isSet (name : String) : Bool := !((environment.lookup name).getD "").isEmpty
  colourVariables.map isSet == [false, true]

/-- The lines of the help. -/
def helpLines (inFull : Bool) (environment : List (String × String)) : List String :=
  let text := helpText inFull environment
  lines (if wantsColour environment then text else plain text)

end PulseWidth
