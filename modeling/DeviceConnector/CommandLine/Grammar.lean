/-!
# Grammars of command lines

A command has options, operands and further commands. Arguments are taken in order: a fault ends the
reading where it is met, and so do the flags that ask for help or for the version. The value of an
option is checked when the next argument is taken up, or after the commands below it have been read.
Options that are not given take their value from the environment, and then from a default.
-/

namespace DeviceConnector.CommandLine

structure Flag where
  /-- Name behind two hyphens. -/
  name : String
  /-- Letter behind one hyphen. -/
  letter : Option Char := none
  takesValue : Bool := true
  accepts : String → Bool := fun _ => true
  environment : Option String := none
  byDefault : Option String := none
  /-- Options that must be given with this one. -/
  requires : List String := []
  /-- The commands below take this option as well. -/
  shared : Bool := false

structure Grammar where
  name : String
  flags : List Flag := []
  /-- Number of operands, all of them required. -/
  operands : Nat := 0
  commands : List Grammar := []
  /-- The command tells its version. -/
  versioned : Bool := false

inductive Stop where
  | help
  | version
  | rejected
  deriving DecidableEq, Repr

/-- Where a value comes from, the weaker first. -/
inductive Source where
  | byDefault
  | environment
  | given
  deriving DecidableEq, Repr

def Source.rank : Source → Nat
  | byDefault => 0
  | environment => 1
  | given => 2

structure Setting where
  name : String
  value : String
  source : Source
  deriving DecidableEq, Repr

structure Level where
  command : String
  settings : List Setting
  operands : List String
  deriving DecidableEq, Repr

structure Progress where
  settings : List Setting := []
  /-- An option whose value, once it is there, is still to be checked. -/
  pending : Option (Flag × Option String) := none
  operands : List String := []
  /-- Everything that follows is an operand. -/
  literal : Bool := false

namespace Progress

def isAwaiting (p : Progress) : Bool := p.pending.any (·.2.isNone)

/-- Record the value of an option, which may be given once. -/
def give (p : Progress) (flag : Flag) (value : String) : Except Stop Progress :=
  if p.settings.any (·.name == flag.name) || !flag.accepts value then .error .rejected
  else .ok { p with settings := p.settings ++ [⟨flag.name, value, .given⟩] }

def settle (p : Progress) : Except Stop Progress :=
  match p.pending with
  | none => .ok p
  | some (_, none) => .error .rejected
  | some (flag, some value) => { p with pending := none }.give flag value

def takeOption (p : Progress) (flag : Flag) (value : Option String) : Except Stop Progress := do
  let p ← p.settle
  match value with
  | some value => p.give flag value
  | none => return { p with pending := some (flag, none) }

end Progress

inductive Switch where
  | set (flag : Flag)
  | option (flag : Flag)
  | help
  | version

def findName? (g : Grammar) (flags : List Flag) (name : String) : Option Switch :=
  if name = "help" then some .help
  else if name = "version" && g.versioned then some .version
  else (flags.find? (·.name == name)).map fun flag =>
    if flag.takesValue then .option flag else .set flag

def findLetter? (g : Grammar) (flags : List Flag) (letter : Char) : Option Switch :=
  if letter = 'h' then some .help
  else if letter = 'V' && g.versioned then some .version
  else (flags.find? (·.letter == some letter)).map fun flag =>
    if flag.takesValue then .option flag else .set flag

def takeSwitch (p : Progress) : Switch → Except Stop Progress
  | .option flag => p.takeOption flag none
  | .set flag => do (← p.settle).give flag "true"
  | .help => do
    let _ ← p.settle
    throw .help
  | .version => do
    let _ ← p.settle
    throw .version

/-- Take what follows two hyphens: a name, perhaps with a value behind an equals sign. -/
def takeLong (g : Grammar) (flags : List Flag) (p : Progress) (text : List Char) :
    Except Stop Progress :=
  let name := String.ofList (text.takeWhile (· != '='))
  match findName? g flags name, text.dropWhile (· != '=') with
  | none, _ => .error .rejected
  | some switch, [] => takeSwitch p switch
  | some (.option flag), _ :: value => p.takeOption flag (some (String.ofList value))
  | some _, _ :: _ => .error .rejected

/-- Take the letters that follow one hyphen. The rest behind a letter that takes a value is its
value, with or without an equals sign. -/
def takeLetters (g : Grammar) (flags : List Flag) (p : Progress) :
    List Char → Except Stop Progress
  | [] => .ok p
  | letter :: rest =>
    match findLetter? g flags letter with
    | none => .error .rejected
    | some (.option flag) =>
      match rest with
      | [] => p.takeOption flag none
      | '=' :: value => p.takeOption flag (some (String.ofList value))
      | value => p.takeOption flag (some (String.ofList value))
    | some switch => do takeLetters g flags (← takeSwitch p switch) rest

def takeOperand (g : Grammar) (p : Progress) (text : String) : Except Stop Progress := do
  if p.operands.length < g.operands then
    let p ← p.settle
    return { p with operands := p.operands ++ [text] }
  else throw .rejected

def takeArgument (g : Grammar) (flags : List Flag) (p : Progress) (argument : String) :
    Except Stop Progress :=
  if p.literal then takeOperand g p argument
  else
    match argument.toList with
    | ['-', '-'] => .ok { p with literal := true }
    | '-' :: '-' :: text => takeLong g flags p text
    | '-' :: letter :: letters => takeLetters g flags p (letter :: letters)
    | _ =>
      match p.pending with
      | some (flag, none) => .ok { p with pending := some (flag, some argument) }
      | _ => takeOperand g p argument

/-- The values that options take from the environment, which are checked as well. -/
def fromEnvironment (environment : List (String × String)) (settings : List Setting) :
    List Flag → Except Stop (List Setting)
  | [] => .ok []
  | flag :: flags => do
    let value := if settings.any (·.name == flag.name) then none
      else flag.environment.bind (environment.lookup ·)
    match value with
    | none => fromEnvironment environment settings flags
    | some value =>
      if flag.accepts value then
        return ⟨flag.name, value, .environment⟩ :: (← fromEnvironment environment settings flags)
      else throw .rejected

def fromDefaults (settings : List Setting) (flags : List Flag) : List Setting :=
  flags.filterMap fun flag =>
    if settings.any (·.name == flag.name) then none
    else flag.byDefault.map (⟨flag.name, ·, .byDefault⟩)

def finish (g : Grammar) (flags : List Flag) (environment : List (String × String))
    (hasCommand : Bool) (p : Progress) : Except Stop Level := do
  let p ← p.settle
  let settings := p.settings ++ (← fromEnvironment environment p.settings flags)
  let isSet (name : String) := settings.any (·.name == name)
  if p.operands.length < g.operands || (!g.commands.isEmpty && !hasCommand) then throw .rejected
  if flags.all fun flag => !isSet flag.name || flag.requires.all isSet then
    return ⟨g.name, settings ++ fromDefaults settings flags, p.operands⟩
  else throw .rejected

def helpFor (commands : List Grammar) : List String → Stop
  | [] => .help
  | name :: names =>
    match commands.find? (·.name == name) with
    | some g => helpFor g.commands names
    | none => if name = "help" && !commands.isEmpty && names.isEmpty then .help else .rejected

/-- Read the arguments of a command behind what has been read of it already. The result has one
level for each command on the way. -/
def read (g : Grammar) (inherited : List Flag) (environment : List (String × String))
    (p : Progress) : List String → Except Stop (List Level)
  | [] => do return [← finish g (inherited ++ g.flags) environment false p]
  | argument :: rest =>
    let command := if p.literal || p.isAwaiting then none
      else g.commands.find? (·.name == argument)
    match command with
    | some sub => do
      let shared := (inherited ++ g.flags).filter (·.shared)
      let levels ← read sub shared environment {} rest
      return (← finish g (inherited ++ g.flags) environment true p) :: levels
    | none =>
      if !p.literal && !p.isAwaiting && !g.commands.isEmpty && argument = "help" then
        .error (helpFor g.commands rest)
      else do read g inherited environment (← takeArgument g (inherited ++ g.flags) p argument) rest

def usage (g : Grammar) : List String :=
  ["Usage: " ++ g.name ++ " [OPTIONS] <COMMAND>", "", "Commands:"] ++
    g.commands.map fun command => "  " ++ command.name

/-- The value of an option: the innermost one, unless an outer one has a stronger source. -/
def value? (levels : List Level) (name : String) : Option String :=
  let stronger (found : Option Setting) (level : Level) : Option Setting :=
    match found, level.settings.find? (·.name == name) with
    | some outer, some inner =>
      if inner.source.rank < outer.source.rank then some outer else some inner
    | found, none => found
    | none, found => found
  (levels.foldl stronger none).map (·.value)

end DeviceConnector.CommandLine
