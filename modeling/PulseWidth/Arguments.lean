import PulseWidth.Config
import PulseWidth.Log
import PulseWidth.Text.Basic

/-!
# Arguments

The arguments are pins, switches and options with a value; `--` ends the options.  An option may also be set by a
variable of the environment, which the argument overrides.  A value is read as soon as the next argument shows that
it is complete, and the first fault decides the error.
-/

namespace PulseWidth

open Text

/-- An option with a value. -/
inductive OptionName where
  | cycle
  | sample
  | dmaChannel
  | soc
  | logLevel
deriving DecidableEq, Repr

/-- A switch. -/
inductive SwitchName where
  | invert
  | pcm
  | dryRun
deriving DecidableEq, Repr

/-- Why the arguments cannot be understood, or what they ask for instead of a run. -/
inductive UsageError where
  | unknownArgument
  | tooManyValues
  | missingValue
  | repeated
  /-- A value that its reader refuses, with the reader's reason. -/
  | badValue (reason : String)
  | helpWanted (inFull : Bool)
  | versionWanted
deriving DecidableEq, Repr

/-- What is said about arguments that lead to no run. -/
def UsageError.message : UsageError → String
  | unknownArgument => "an argument is not known"
  | tooManyValues => "a switch takes no value"
  | missingValue => "an option lacks its value"
  | repeated => "an argument is given more than once"
  | badValue reason => reason
  | helpWanted _ => "help is asked for"
  | versionWanted => "the version is asked for"

/-- What the arguments say. -/
structure Arguments where
  pins : List Pin
  invert : Bool
  pcm : Bool
  cycleMicros : UInt32
  sampleMicros : UInt32
  dmaChannel : UInt8
  soc : Platform
  dryRun : Bool
  logLevel : Threshold
deriving DecidableEq, Repr

namespace Arguments

/-- What holds when nothing is said. -/
def standard : Arguments where
  pins := []
  invert := false
  pcm := false
  cycleMicros := 10000
  sampleMicros := 10
  dmaChannel := 14
  soc := .bcm2836
  dryRun := false
  logLevel := ⟨some .info⟩

/-- The configuration that the arguments ask for. -/
def config (a : Arguments) : Config where
  cycleMicros := a.cycleMicros
  sampleMicros := a.sampleMicros
  invert := a.invert
  pacer := if a.pcm then .pcm else .pwm
  dmaChannel := a.dmaChannel
  platform := a.soc
  pins := if a.pins.isEmpty then Config.defaultPins else a.pins

end Arguments

namespace OptionName

/-- The options in the order in which the environment is consulted. -/
def all : List OptionName := [cycle, sample, dmaChannel, soc, logLevel]

/-- The name of the option. -/
def text : OptionName → String
  | cycle => "cycle-us"
  | sample => "sample-us"
  | dmaChannel => "dma-channel"
  | soc => "soc"
  | logLevel => "log-level"

/-- The option of that name. -/
def named? (name : List Char) : Option OptionName := all.find? (·.text.toList == name)

/-- The variable of the environment that stands in for the option. -/
def environmentName : OptionName → String
  | cycle => "PWM_CYCLE_US"
  | sample => "PWM_SAMPLE_US"
  | dmaChannel => "PWM_DMA_CHANNEL"
  | soc => "PWM_SOC"
  | logLevel => "PWM_LOG"

/-- What the value of the option is called. -/
def valueName (name : OptionName) : String :=
  String.ofList (name.text.toList.map fun c => if c = '-' then '_' else c.toUpper)

/-- The value that holds when nothing is said. -/
def standardText : OptionName → String
  | cycle => toString Arguments.standard.cycleMicros.toNat
  | sample => toString Arguments.standard.sampleMicros.toNat
  | dmaChannel => toString Arguments.standard.dmaChannel.toNat
  | soc => Arguments.standard.soc.name
  | logLevel => Arguments.standard.logLevel.text

/-- What the option sets. -/
def description : OptionName → String
  | cycle => "PWM period in microseconds"
  | sample => "Duty resolution in microseconds"
  | dmaChannel => "DMA channel, 0 to 14"
  | soc => "SoC: bcm2835 (Pi 1/Zero), bcm2836/bcm2837 (Pi 2/3) or bcm2711 (Pi 4)"
  | logLevel => ""

/-- Reads a number from zero to `max`. -/
def ranged (max : Nat) (text : List Char) : Except UsageError Nat :=
  match integer text with
  | .error reason => .error (.badValue reason.message)
  | .ok n =>
    if 0 ≤ n ∧ n ≤ max then .ok n.toNat
    else .error (.badValue (toString n ++ " is not in 0..=" ++ toString max))

/-- Sets the option to the value that a text stands for. -/
def assign (name : OptionName) (text : List Char) (a : Arguments) : Except UsageError Arguments :=
  match name with
  | cycle => (ranged (UInt32.size - 1) text).map fun n => { a with cycleMicros := UInt32.ofNat n }
  | sample => (ranged (UInt32.size - 1) text).map fun n => { a with sampleMicros := UInt32.ofNat n }
  | dmaChannel => (ranged 255 text).map fun n => { a with dmaChannel := UInt8.ofNat n }
  | soc => match Platform.ofName? text with
    | some platform => .ok { a with soc := platform }
    | none => .error (.badValue Platform.unknownMessage)
  | logLevel => match Threshold.ofName? text with
    | some threshold => .ok { a with logLevel := threshold }
    | none => .error (.badValue "attempted to convert a string that doesn't match an existing log level")

end OptionName

namespace SwitchName

/-- The name of the switch. -/
def text : SwitchName → String
  | invert => "invert"
  | pcm => "pcm"
  | dryRun => "dry-run"

/-- The switch of that name. -/
def named? (name : List Char) : Option SwitchName := [invert, pcm, dryRun].find? (·.text.toList == name)

/-- What the switch turns on. -/
def description : SwitchName → String
  | invert => "Drive pins low while active"
  | pcm => "Pace with the PCM block instead of PWM, leaving PWM free for audio"
  | dryRun => "Run against simulated hardware; no root required"

/-- Turns the switch on. -/
def turnOn (name : SwitchName) (a : Arguments) : Arguments :=
  match name with
  | invert => { a with invert := true }
  | pcm => { a with pcm := true }
  | dryRun => { a with dryRun := true }

end SwitchName

/-- An argument that is not complete before the next one is seen. -/
inductive Pending where
  | option (name : OptionName) (value? : Option (List Char))
  | pins (texts : List (List Char))
deriving DecidableEq, Repr

/-- What has been read of the arguments. -/
structure Reading where
  arguments : Arguments
  options : List OptionName
  switches : List SwitchName
  pending? : Option Pending
  /-- Whether `--` has been seen. -/
  trailing : Bool
deriving DecidableEq, Repr

namespace Reading

/-- Nothing has been read. -/
def start : Reading := ⟨.standard, [], [], none, false⟩

/-- Sets an option, which must not have been set before. -/
def setOption (r : Reading) (name : OptionName) (value : List Char) : Except UsageError Reading :=
  if r.options.contains name then .error .repeated
  else (name.assign value r.arguments).map fun arguments =>
    { r with arguments, options := name :: r.options }

/-- Reads some pins. -/
def readPins : List (List Char) → Except UsageError (List Pin)
  | [] => .ok []
  | text :: rest =>
    match Pin.ofText text with
    | .error reason => .error (.badValue reason.message)
    | .ok pin => (readPins rest).map (pin :: ·)

/-- Reads what is pending. -/
def settle (r : Reading) : Except UsageError Reading :=
  match r.pending? with
  | none => .ok r
  | some (.option _ none) => .error .missingValue
  | some (.option name (some value)) => { r with pending? := none }.setOption name value
  | some (.pins texts) =>
    (readPins texts).map fun pins =>
      { r with pending? := none, arguments := { r.arguments with pins := r.arguments.pins ++ pins } }

/-- Turns a switch on, which must not have been turned on before. -/
def setSwitch (r : Reading) (name : SwitchName) : Except UsageError Reading :=
  if r.switches.contains name then .error .repeated
  else .ok { r with arguments := name.turnOn r.arguments, switches := name :: r.switches }

/-- Reads a pin; adjacent pins are completed together. -/
def positional (r : Reading) (text : List Char) : Except UsageError Reading :=
  match r.pending? with
  | some (.pins texts) => .ok { r with pending? := some (.pins (texts ++ [text])) }
  | _ => r.settle.map fun r => { r with pending? := some (.pins [text]) }

/-- Reads an argument without a value. -/
def bare (r : Reading) (name : List Char) : Except UsageError Reading :=
  match OptionName.named? name, SwitchName.named? name, String.ofList name with
  | some option, _, _ => r.settle.map fun r => { r with pending? := some (.option option none) }
  | none, some switch, _ => r.settle.bind fun r => r.setSwitch switch
  | none, none, "help" => r.settle.bind fun _ => .error (.helpWanted true)
  | none, none, "version" => r.settle.bind fun _ => .error .versionWanted
  | _, _, _ => .error .unknownArgument

/-- Reads an argument with a value attached. -/
def attached (r : Reading) (name value : List Char) : Except UsageError Reading :=
  match OptionName.named? name, SwitchName.named? name, String.ofList name with
  | some option, _, _ => r.settle.bind fun r => r.setOption option value
  | none, some _, _ => .error .tooManyValues
  | none, none, "help" => .error .tooManyValues
  | none, none, "version" => .error .tooManyValues
  | _, _, _ => .error .unknownArgument

/-- Reads an argument of two dashes and a name. -/
def long (r : Reading) (text : List Char) : Except UsageError Reading :=
  if text.contains '=' then r.attached (text.takeWhile (· != '=')) ((text.dropWhile (· != '=')).drop 1)
  else r.bare text

/-- Reads an argument of one dash and a letter. -/
def short (r : Reading) (letter : Char) : Except UsageError Reading :=
  if letter = 'h' then r.settle.bind fun _ => .error (.helpWanted false)
  else if letter = 'V' then r.settle.bind fun _ => .error .versionWanted
  else .error .unknownArgument

/-- Reads an argument that is neither an option nor a switch. -/
def plain (r : Reading) (text : List Char) : Except UsageError Reading :=
  match r.pending? with
  | some (.option name none) => .ok { r with pending? := some (.option name (some text)) }
  | _ => r.positional text

/-- Reads an argument. -/
def step (r : Reading) (text : List Char) : Except UsageError Reading :=
  if r.trailing then r.positional text
  else match text with
    | ['-', '-'] => .ok { r with trailing := true }
    | '-' :: '-' :: rest => r.long rest
    | '-' :: letter :: _ => r.short letter
    | _ => r.plain text

/-- Sets the options that no argument has set from the environment. -/
def consult (environment : List (String × String)) (r : Reading) : Except UsageError Reading :=
  OptionName.all.foldlM
    (fun (r : Reading) name =>
      match environment.lookup name.environmentName with
      | none => .ok r
      | some value => if r.options.contains name then .ok r else r.setOption name value.toList)
    r

end Reading

/-- Understands arguments and environment. -/
def Arguments.parse (arguments : List String) (environment : List (String × String)) :
    Except UsageError Arguments := do
  let read ← arguments.foldlM (fun (r : Reading) text => r.step text.toList) Reading.start
  let settled ← read.settle
  let consulted ← settled.consult environment
  return consulted.arguments

end PulseWidth
