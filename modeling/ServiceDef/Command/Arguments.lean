/-!
# Command lines

The commands of the program and how they are written on the command line. Arguments are read
one after the other; a request for help or for the version is answered as soon as it is met,
and a mistake ends the reading at once.
-/

namespace ServiceDef

/-- What a format command is to do. -/
structure FormatRequest where
  /-- The file or directory to work on. -/
  path : String := "."
  /-- List the files that would change. -/
  check : Bool := false
  /-- Show how the files would change. -/
  diff : Bool := false
  /-- Change the files. -/
  write : Bool := true
  /-- The name of the layout of actions. -/
  actions : Option String := none
  lineLength : Option Nat := none
  jobs : Option Nat := none
  /-- The settings file to use. -/
  config : Option String := none
deriving DecidableEq, Repr

/-- What the program is asked for. -/
inductive Invocation where
  | help
  | version
  | format (request : FormatRequest)
  | validate (path : String) (jobs : Option Nat)
  | compile (path : String)
  /-- The command line is mistaken. -/
  | misuse
deriving DecidableEq, Repr

namespace Arguments

/-- The commands. -/
inductive CommandName where
  | format
  | validate
  | compile
  | help
deriving DecidableEq, Repr

/-- The command with the given name. -/
def CommandName.ofName? : String → Option CommandName
  | "fmt" => some .format
  | "validate" => some .validate
  | "compile" => some .compile
  | "help" => some .help
  | _ => none

/-- The options that can be given to the program or to a command. -/
inductive OptionName where
  | help
  | version
  | noColor
  | verbose
  | check
  | diff
  | write
  | actions
  | lineLength
  | jobs
  | config
deriving DecidableEq, Repr

/-- Whether an option takes a value. -/
inductive Arity where
  | flag
  /-- A value can be given behind an equals sign. -/
  | attached
  | required
deriving DecidableEq, Repr

namespace OptionName

/-- The option with the given long name. -/
def ofLong? : String → Option OptionName
  | "help" => some .help
  | "version" => some .version
  | "no-color" => some .noColor
  | "verbose" => some .verbose
  | "check" => some .check
  | "diff" => some .diff
  | "write" => some .write
  | "actions" => some .actions
  | "line-length" => some .lineLength
  | "jobs" => some .jobs
  | "config" => some .config
  | _ => none

/-- The option with the given letter. -/
def ofShort? : Char → Option OptionName
  | 'h' => some .help
  | 'V' => some .version
  | 'v' => some .verbose
  | 'j' => some .jobs
  | _ => none

/-- Whether an option takes a value. -/
def arity : OptionName → Arity
  | .write => .attached
  | .actions | .lineLength | .jobs | .config => .required
  | _ => .flag

/-- Whether an option can be given to a command, or to the program in front of one. -/
def belongsTo (option : OptionName) (command : Option CommandName) : Bool :=
  match option with
  | .help | .noColor | .verbose => command ≠ some .help
  | .version => command = none
  | .jobs => command = some .format || command = some .validate
  | .check | .diff | .write | .actions | .lineLength | .config => command = some .format

end OptionName

/-- The number that a decimal text stands for. A plus sign may stand in front of it, and it has to
fit into 64 bits. -/
def natural? (text : String) : Option Nat :=
  let digits :=
    match text.toList with
    | '+' :: rest => rest
    | cs => cs
  if digits.isEmpty || !digits.all Char.isDigit then none
  else
    let value := digits.foldl (fun value c => 10 * value + (c.toNat - '0'.toNat)) 0
    if value < Nat.pow 2 64 then some value else none

/-- Whether a value may be given to an option. -/
def admits (option : OptionName) (value : String) : Bool :=
  match option with
  | .write => value = "true" || value = "false"
  | .lineLength | .jobs => (natural? value).isSome
  | .config => !value.isEmpty
  | _ => true

/-- What has been read of a command line. -/
structure State where
  command : Option CommandName := none
  /-- The options of the command with their values. -/
  given : List (OptionName × String) := []
  operands : List String := []
  /-- The option that waits for its value. -/
  pending : Option OptionName := none
  /-- Whether all further arguments are operands. -/
  operandsOnly : Bool := false
deriving DecidableEq, Repr

namespace State

/-- The state with one more option. No option can be given twice. -/
def give (state : State) (option : OptionName) (value : String) : Except Invocation State :=
  if state.given.any fun given => given.1 = option then .error .misuse
  else if !admits option value then .error .misuse
  else .ok { state with given := state.given ++ [(option, value)], pending := none }

/-- Reads an option with the value that is attached to it. -/
def readOption (state : State) (option : OptionName) (attached : Option String) :
    Except Invocation State :=
  if !option.belongsTo state.command then .error .misuse
  else
    match option.arity, attached with
    | .flag, some _ => .error .misuse
    | .flag, none =>
      match option with
      | .help => .error .help
      | .version => .error .version
      | _ => state.give option ""
    | .attached, value => state.give option (value.getD "true")
    | .required, some value => state.give option value
    | .required, none =>
      if state.given.any fun given => given.1 = option then .error .misuse
      else .ok { state with pending := some option }

/-- Reads the letters of short options. What follows the letter of an option with a value is that
value. -/
def readLetters (state : State) : List Char → Except Invocation State
  | [] => .ok state
  | letter :: rest =>
    match OptionName.ofShort? letter with
    | none => .error .misuse
    | some option =>
      match option.arity, rest with
      | .required, [] => state.readOption option none
      | .required, '=' :: value => state.readOption option (some (String.ofList value))
      | .required, value => state.readOption option (some (String.ofList value))
      | _, _ =>
        match state.readOption option none with
        | .error stop => .error stop
        | .ok state => state.readLetters rest

/-- Reads an operand. In front of the command it is the name of the command. -/
def readOperand (state : State) (operand : String) : Except Invocation State :=
  match state.command with
  | none =>
    match CommandName.ofName? operand with
    | some command =>
      if state.operandsOnly then .error .misuse else .ok { command := some command }
    | none => .error .misuse
  | some .help =>
    if state.operands.isEmpty && (CommandName.ofName? operand).isSome then
      .ok { state with operands := [operand] }
    else .error .misuse
  | some _ =>
    if state.operands.isEmpty && !operand.isEmpty then .ok { state with operands := [operand] }
    else .error .misuse

/-- The name and the attached value of a long option, behind its dashes. -/
def splitLong (text : List Char) : String × Option String :=
  let name := String.ofList (text.takeWhile (· ≠ '='))
  match text.dropWhile (· ≠ '=') with
  | [] => (name, none)
  | _ :: value => (name, some (String.ofList value))

/-- Reads one argument. -/
def read (state : State) (argument : String) : Except Invocation State :=
  match state.operandsOnly, state.pending, argument.toList with
  | true, _, _ => state.readOperand argument
  | false, some option, ['-'] => state.give option argument
  | false, some _, '-' :: _ => .error .misuse
  | false, some option, _ => state.give option argument
  | false, none, ['-', '-'] => .ok { state with operandsOnly := true }
  | false, none, '-' :: '-' :: text =>
    let (name, value) := splitLong text
    match OptionName.ofLong? name with
    | some option => state.readOption option value
    | none => .error .misuse
  | false, none, '-' :: letter :: letters => state.readLetters (letter :: letters)
  | false, none, _ => state.readOperand argument

/-- The value of an option. -/
def value? (state : State) (option : OptionName) : Option String :=
  (state.given.find? fun given => given.1 = option).map (·.2)

/-- Whether an option has been given. -/
def has (state : State) (option : OptionName) : Bool :=
  (state.value? option).isSome

/-- The number that has been given for an option. -/
def number? (state : State) (option : OptionName) : Option Nat :=
  (state.value? option).bind natural?

/-- The file or directory that has been named, or the working directory. -/
def path (state : State) : String :=
  state.operands.head?.getD "."

/-- What the program is asked for at the end of the command line. -/
def invocation (state : State) : Invocation :=
  match state.pending, state.command with
  | some _, _ => .misuse
  | none, none => .misuse
  | none, some .help => .help
  | none, some .compile => .compile state.path
  | none, some .validate => .validate state.path (state.number? .jobs)
  | none, some .format =>
    .format
      { path := state.path
        check := state.has .check
        diff := state.has .diff
        write := state.value? .write ≠ some "false"
        actions := state.value? .actions
        lineLength := state.number? .lineLength
        jobs := state.number? .jobs
        config := state.value? .config }

end State

/-- What the program is asked for by its arguments. -/
def parse (arguments : List String) : Invocation :=
  match arguments.foldlM State.read {} with
  | .ok state => state.invocation
  | .error stop => stop

end Arguments

end ServiceDef
