import Fulfilment.Text.Numeral

/-!
# Options

What a program can be told when it is started: options by their names on the command line, else by variables of the
environment, else by default. Arguments are read from the left, and the value of an option is looked at when the next
option begins, or at the end.

* `Options.parse`: the values of all options, or the first fault.
-/

namespace Fulfilment

/-- What the value of an option is. -/
inductive OptionKind
  | text
  /-- A number up to `hi`. -/
  | natural (hi : Int)
  /-- A word of 64 bits that must be between zero and `hi`. -/
  | upTo (hi : Int)
  /-- An option that is set by its name alone. -/
  | flag
  deriving DecidableEq, Repr

inductive OptionValue
  | text (s : String)
  | number (n : Int)
  | switch (on : Bool)
  deriving DecidableEq, Repr

structure CliOption where
  name : String
  kind : OptionKind
  /-- The variable of the environment that sets it. -/
  envName : Option String
  default? : Option OptionValue
  deriving DecidableEq, Repr

inductive UsageError
  /-- Help is asked for. -/
  | help
  | unknownArgument (argument : String)
  | missingValue (label : String)
  /-- The value is not one of those there are. -/
  | notListed (value label : String)
  /-- The value does not read as what it should be. -/
  | badValue (value label reason : String)
  | repeated (label : String)
  | unexpectedValue (value label : String)
  deriving DecidableEq, Repr

namespace UsageError

def message : UsageError → String
  | help => "help"
  | unknownArgument argument => s!"error: unexpected argument '{argument}' found"
  | missingValue label => s!"error: a value is required for '{label}' but none was supplied"
  | notListed value label => s!"error: invalid value '{value}' for '{label}'"
  | badValue value label reason => s!"error: invalid value '{value}' for '{label}': {reason}"
  | repeated label => s!"error: the argument '{label}' cannot be used multiple times"
  | unexpectedValue value label => s!"error: unexpected value '{value}' for '{label}' found; no more were expected"

end UsageError

namespace CliOption

/-- What its value is called. -/
def placeholder (o : CliOption) : String :=
  String.ofList (o.name.toList.map fun c => if c = '-' then '_' else c.toUpper)

/-- The option as it is shown. -/
def label (o : CliOption) : String :=
  if o.kind = .flag then "--" ++ o.name else s!"--{o.name} <{o.placeholder}>"

def readNumber (o : CliOption) (hi : Int) (value : String) : Except UsageError OptionValue :=
  ((readInt 0 hi value.toList).mapError fun e => .badValue value o.label e.message).map .number

def readBounded (o : CliOption) (hi : Int) (value : String) : Except UsageError OptionValue :=
  match readInt min64 max64 value.toList with
  | .error e => .error (.badValue value o.label e.message)
  | .ok n =>
    if 0 ≤ n ∧ n ≤ hi then .ok (.number n) else .error (.badValue value o.label s!"{n} is not in 0..={hi}")

def readSwitch (o : CliOption) (value : String) : Except UsageError OptionValue :=
  if value = "true" then .ok (.switch true)
  else if value = "false" then .ok (.switch false)
  else if value = "" then .error (.missingValue o.label)
  else .error (.notListed value o.label)

def readValue (o : CliOption) (value : String) : Except UsageError OptionValue :=
  match o.kind with
  | .text => .ok (.text value)
  | .natural hi => o.readNumber hi value
  | .upTo hi => o.readBounded hi value
  | .flag => o.readSwitch value

end CliOption

/-- The values that were set, by the names of their options. -/
abbrev Settings := List (String × OptionValue)

namespace Options

/-- What was read so far, and the option that may still get its value. -/
structure Progress where
  given : Settings
  pending : Option (CliOption × Option String)

/-- Sets an option that has not been set before. -/
def set (given : Settings) (o : CliOption) (value : String) : Except UsageError Settings :=
  if given.any (·.1 == o.name) then .error (.repeated o.label)
  else (o.readValue value).map fun v => given ++ [(o.name, v)]

/-- Sets the option that waits for its value. -/
def Progress.settle (p : Progress) : Except UsageError Settings :=
  match p.pending with
  | none => .ok p.given
  | some (o, none) => .error (.missingValue o.label)
  | some (o, some value) => set p.given o value

/-- The parts before and behind the first `=`. -/
def splitValue (cs : List Char) : String × Option String :=
  (String.ofList (cs.takeWhile (· != '=')), ((cs.dropWhile (· != '=')).tail?).map String.ofList)

def askForHelp (p : Progress) : Except UsageError Progress := p.settle.bind fun _ => .error .help

/-- An argument behind two hyphens. -/
def long (os : List CliOption) (p : Progress) (cs : List Char) : Except UsageError Progress := do
  let (name, value) := splitValue cs
  match os.find? (·.name == name), value with
  | none, none => if name = "help" then askForHelp p else throw (.unknownArgument ("--" ++ name))
  | none, some v =>
    if name = "help" then throw (.unexpectedValue v "--help") else throw (.unknownArgument ("--" ++ name))
  | some o, none =>
    let given ← p.settle
    if o.kind = .flag then return ⟨← set given o "true", none⟩ else return ⟨given, some (o, none)⟩
  | some o, some v =>
    if o.kind = .flag then throw (.unexpectedValue v o.label)
    else return ⟨← set (← p.settle) o v, none⟩

/-- An argument behind one hyphen. -/
def short (p : Progress) (c : Char) : Except UsageError Progress :=
  if c = 'h' then askForHelp p else .error (.unknownArgument (String.ofList ['-', c]))

/-- Any other argument can only be the value that is waited for. -/
def plain (p : Progress) (argument : String) : Except UsageError Progress :=
  match p.pending with
  | some (o, none) => .ok ⟨p.given, some (o, some argument)⟩
  | _ => .error (.unknownArgument argument)

def readArguments (os : List CliOption) (p : Progress) : List String → Except UsageError Settings
  | [] => p.settle
  | argument :: rest =>
    match argument.toList, rest with
    | ['-', '-'], [] => p.settle
    | ['-', '-'], next :: _ => .error (.unknownArgument next)
    | '-' :: '-' :: cs, _ => (long os p cs).bind fun p => readArguments os p rest
    | '-' :: c :: _, _ => (short p c).bind fun p => readArguments os p rest
    | _, _ => (plain p argument).bind fun p => readArguments os p rest

/-- Sets from the environment what was not given, option after option. -/
def readVariables (given : Settings) (environment : List (String × String)) :
    List CliOption → Except UsageError Settings
  | [] => .ok given
  | o :: os =>
    match if given.any (·.1 == o.name) then none else o.envName.bind fun v => environment.lookup v with
    | none => readVariables given environment os
    | some value => (set given o value).bind fun given => readVariables given environment os

/-- The value of each option; one without a value and a default has none. -/
def parse (os : List CliOption) (arguments : List String) (environment : List (String × String)) :
    Except UsageError (List (String × Option OptionValue)) := do
  let given ← readArguments os ⟨[], none⟩ arguments
  let settings ← readVariables given environment os
  return os.map fun o => (o.name, (settings.lookup o.name).or o.default?)

end Options

end Fulfilment
