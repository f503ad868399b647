import TimeSeries.Text.Pieces

/-!
# The command line

Every argument is an option. A switch stands alone; the others take a value, which follows as the
next argument or after an equals sign. No option is given twice. Two options can also be given by
variables of the environment, which count only when the option is absent.

The daemon declares its options and leaves it to a parser to read them. This is the documented
behaviour of the parser for long options that are declared like these: a value may not look like an
option, a path may not be empty, and a variable is read like an argument, also an empty one.
-/

namespace TimeSeries

/-- The options that take a value. -/
inductive ValueOption where
  | config
  | httpBind
  | dataset
  | spillDir
  | ingestFile
  deriving DecidableEq, Repr

namespace ValueOption

/-- The option of a name. -/
def ofName? : String → Option ValueOption
  | "config" => some config
  | "http-bind" => some httpBind
  | "dataset" => some dataset
  | "spill-dir" => some spillDir
  | "ingest-file" => some ingestFile
  | _ => none

/-- Whether the value names a file or a directory, and so is not empty. -/
def isPath : ValueOption → Bool
  | config | spillDir | ingestFile => true
  | httpBind | dataset => false

/-- The variable of the environment that stands in for an option. -/
def variableName? : ValueOption → Option String
  | config => some "CHUNKDB_CONFIG"
  | httpBind => some "CHUNKDB_HTTP_BIND"
  | _ => none

end ValueOption

/-- The options that take no value. -/
inductive SwitchOption where
  | noConfig
  | validateConfig
  deriving DecidableEq, Repr

/-- The switch of a name. -/
def SwitchOption.ofName? : String → Option SwitchOption
  | "no-config" => some noConfig
  | "validate-config" => some validateConfig
  | _ => none

/-- The options that were given. -/
structure CommandLine where
  switches : List SwitchOption := []
  values : List (ValueOption × String) := []
  deriving DecidableEq, Repr

/-- What the arguments ask for. -/
inductive Invocation where
  | run (line : CommandLine)
  | version
  deriving DecidableEq, Repr

namespace CommandLine

/-- The value of an option. -/
def value? (line : CommandLine) (o : ValueOption) : Option String := line.values.lookup o

/-- Whether a switch was given. -/
def has (line : CommandLine) (s : SwitchOption) : Bool := line.switches.contains s

/-- Gives a switch, which has not been given before. -/
def addSwitch (line : CommandLine) (s : SwitchOption) : Option CommandLine :=
  if line.has s then none else some { line with switches := s :: line.switches }

/-- Gives an option, which has not been given before, a value that it accepts. -/
def addValue (line : CommandLine) (o : ValueOption) (value : String) : Option CommandLine :=
  if (line.value? o).isSome || (o.isPath && value.isEmpty) then none
  else some { line with values := (o, value) :: line.values }

/-- Whether an argument can be the value of the option before it. -/
def canBeValue (arg : String) : Bool :=
  match arg.toList with
  | ['-'] => true
  | '-' :: _ => false
  | _ => true

/-- The name of a long option, and the value that is attached to it. -/
def splitOption (cs : List Char) : String × Option String :=
  let (name, value) := Text.cutFirst (· == '=') cs
  (String.ofList name, value.map String.ofList)

/-- Takes an option, with the value that is attached to it. What is left is the option that waits
for its value, if one does. -/
def addOption (line : CommandLine) (name : String) (attached : Option String) :
    Option (CommandLine × Option ValueOption) :=
  match SwitchOption.ofName? name, ValueOption.ofName? name, attached with
  | some s, _, none => (line.addSwitch s).map (·, none)
  | none, some o, none => some (line, some o)
  | none, some o, some value => (line.addValue o value).map (·, none)
  | _, _, _ => none

/-- Reads arguments one after the other, while an option may be waiting for its value. -/
def parseFrom (line : CommandLine) :
    (waiting : Option ValueOption) → List String → Option Invocation
  | none, [] => some (.run line)
  | some _, [] => none
  | some o, arg :: rest =>
    if canBeValue arg then (line.addValue o arg).bind fun line => parseFrom line none rest else none
  | none, arg :: rest =>
    match arg.toList with
    | ['-', 'V'] => some .version
    | ['-', '-'] => if rest = [] then some (.run line) else none
    | '-' :: '-' :: cs =>
      let (name, attached) := splitOption cs
      if name = "version" ∧ attached = none then some .version
      else
        (line.addOption name attached).bind fun (line, waiting) => parseFrom line waiting rest
    | _ => none

/-- Takes the value of an option that is absent from its variable. -/
def addVariable (env : List (String × String)) (line : CommandLine) (o : ValueOption) :
    Option CommandLine :=
  if (line.value? o).isSome then some line
  else
    match o.variableName?.bind fun name => env.lookup name with
    | none => some line
    | some value => line.addValue o value

/-- Reads the arguments and the variables that stand in for options. -/
def parse? (args : List String) (env : List (String × String)) : Option Invocation := do
  match ← parseFrom {} none args with
  | .version => return .version
  | .run line =>
    let line ← addVariable env line .config
    let line ← addVariable env line .httpBind
    return .run line

end CommandLine

end TimeSeries
