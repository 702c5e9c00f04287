import HostInventory.CommandLine

/-! Reading a command line. Options come first, then at most one command with arguments of its
own. A value given as a separate argument is checked when the next option is met or the line
ends, so an unknown argument or a fault in a command is reported before a bad value. -/
namespace HostInventory.CommandLine

/-- Why a line cannot be used, or what it asks to be shown instead of a run. -/
inductive UsageFault
  | unknownArgument
  | invalidValue
  | argumentConflict
  | invalidCommand
  | missingArgument
  | tooManyValues
  | help
  | version
  deriving DecidableEq

/-- The form of an argument. -/
inductive Form
  | escape
  | long (name : String) (value : Option String)
  | short (letters : List Char)
  | plain

def form (argument : String) : Form :=
  match argument.toList with
  | ['-', '-'] => .escape
  | '-' :: '-' :: cs =>
    match Text.cut? '=' cs with
    | none => .long (String.ofList cs) none
    | some (name, value) => .long (String.ofList name) (some (String.ofList value))
  | '-' :: c :: cs => .short (c :: cs)
  | _ => .plain

inductive ValueOption
  | root
  | only
  | exclude
  | format
  | logFile
  deriving DecidableEq

inductive Flag
  | pretty
  | verbose
  | quiet
  | logJson
  | help
  | version
  deriving DecidableEq

def longOption? : String → Option (ValueOption ⊕ Flag)
  | "root" => some (.inl .root)
  | "only" => some (.inl .only)
  | "exclude" => some (.inl .exclude)
  | "format" => some (.inl .format)
  | "log-file" => some (.inl .logFile)
  | "pretty" => some (.inr .pretty)
  | "verbose" => some (.inr .verbose)
  | "quiet" => some (.inr .quiet)
  | "log-json" => some (.inr .logJson)
  | "help" => some (.inr .help)
  | "version" => some (.inr .version)
  | _ => none

def shortFlag? : Char → Option Flag
  | 'v' => some .verbose
  | 'q' => some .quiet
  | 'h' => some .help
  | 'V' => some .version
  | _ => none

/-- The options seen so far. -/
structure Draft where
  root : Option String
  only : List String
  exclude : List String
  format : Option Format
  logFile : Option String
  pretty : Bool
  quiet : Bool
  logJson : Bool
  verbose : Nat

namespace Draft

def start : Draft := ⟨none, [], [], none, none, false, false, false, 0⟩

/-- A value for an option that can be given once. -/
def once {α : Type} (old : Option α) (new : Option α) : Except UsageFault (Option α) :=
  if old.isSome then .error .argumentConflict
  else match new with
    | none => .error .invalidValue
    | some value => .ok (some value)

def nonempty? (value : String) : Option String := if value = "" then none else some value

def format? : String → Option Format
  | "json" => some .json
  | "text" => some .text
  | _ => none

/-- The names between commas. -/
def namesIn (value : String) : List String :=
  (Text.splitAt ',' value.toList).map String.ofList

def give (d : Draft) (option : ValueOption) (value : String) : Except UsageFault Draft :=
  match option with
  | .root => (once d.root (nonempty? value)).map fun root => { d with root }
  | .only => .ok { d with only := d.only ++ namesIn value }
  | .exclude => .ok { d with exclude := d.exclude ++ namesIn value }
  | .format => (once d.format (format? value)).map fun format => { d with format }
  | .logFile => (once d.logFile (nonempty? value)).map fun logFile => { d with logFile }

def switch (d : Draft) : Flag → Except UsageFault Draft
  | .pretty => if d.pretty then .error .argumentConflict else .ok { d with pretty := true }
  | .quiet => if d.quiet then .error .argumentConflict else .ok { d with quiet := true }
  | .logJson => if d.logJson then .error .argumentConflict else .ok { d with logJson := true }
  | .verbose => .ok { d with verbose := min 255 (d.verbose + 1) }
  | .help => .error .help
  | .version => .error .version

end Draft

/-- An option whose value is still to come, or has come but is not checked yet. -/
inductive Pending
  | nothing
  | awaiting (option : ValueOption)
  | holding (option : ValueOption) (value : String)

structure State where
  draft : Draft
  pending : Pending

namespace State

/-- Checks the pending value and takes it over. -/
def settle (s : State) : Except UsageFault Draft :=
  match s.pending with
  | .nothing => .ok s.draft
  | .awaiting _ => .error .invalidValue
  | .holding option value => s.draft.give option value

def long (s : State) (name : String) (value : Option String) : Except UsageFault State :=
  match longOption? name with
  | none => .error .unknownArgument
  | some (.inl option) =>
    match s.settle, value with
    | .error fault, _ => .error fault
    | .ok d, none => .ok ⟨d, .awaiting option⟩
    | .ok d, some value => (d.give option value).map fun d => ⟨d, .nothing⟩
  | some (.inr flag) =>
    match value with
    | some _ => .error .tooManyValues
    | none => (s.settle.bind fun d => d.switch flag).map fun d => ⟨d, .nothing⟩

def short (s : State) : List Char → Except UsageFault State
  | [] => .ok s
  | c :: cs =>
    match shortFlag? c with
    | none => .error .unknownArgument
    | some flag =>
      match s.settle.bind fun d => d.switch flag with
      | .error fault => .error fault
      | .ok d => short ⟨d, .nothing⟩ cs

def isAwaiting (s : State) : Bool :=
  match s.pending with
  | .awaiting _ => true
  | _ => false

/-- An argument that is neither option nor command: the value that an option awaits. -/
def plain (s : State) (argument : String) : Except UsageFault State :=
  match s.pending with
  | .awaiting option => .ok ⟨s.draft, .holding option argument⟩
  | _ => .error .invalidCommand

end State

/-- A fault in an argument of a command that takes no options but `--help`. -/
def optionFault : Form → UsageFault
  | .long "help" none => .help
  | .long "help" (some _) => .tooManyValues
  | .short ('h' :: _) => .help
  | _ => .unknownArgument

def listCommand : List String → Except UsageFault Command
  | [] => .ok .list
  | argument :: rest =>
    match form argument with
    | .escape => if rest.isEmpty then .ok .list else .error .unknownArgument
    | other => .error (optionFault other)

/-- The two arguments of a look-up. After `--` every argument is plain. -/
def lookupCommand (given : List String) (escaped : Bool) :
    List String → Except UsageFault Command
  | [] =>
    match given with
    | [implementer, part] => .ok (.lookup implementer part)
    | _ => .error .missingArgument
  | argument :: rest =>
    match if escaped then Form.plain else form argument with
    | .plain =>
      if given.length < 2 then lookupCommand (given ++ [argument]) escaped rest
      else .error .unknownArgument
    | .escape => lookupCommand given true rest
    | other => .error (optionFault other)

def isCommandName (name : String) : Bool := ["list", "lookup", "help"].contains name

/-- What `help` answers: it shows help for one command at most. -/
def helpFault : List String → UsageFault
  | [] => .help
  | [name] => if isCommandName name then .help else .invalidCommand
  | _ => .invalidCommand

/-- A command and its arguments, if the first argument names a command. -/
def command? (argument : String) (rest : List String) : Option (Except UsageFault Command) :=
  match argument with
  | "list" => some (listCommand rest)
  | "lookup" => some (lookupCommand [] false rest)
  | "help" => some (.error (helpFault rest))
  | _ => none

/-- Arguments after `--` at the top could only be commands, which are not looked for there. -/
def escaped (s : State) : List String → Except UsageFault (Draft × Option Command)
  | [] => s.settle.map fun d => (d, none)
  | argument :: _ =>
    if isCommandName argument then .error .unknownArgument else .error .invalidCommand

def readArguments (s : State) : List String → Except UsageFault (Draft × Option Command)
  | [] => s.settle.map fun d => (d, none)
  | argument :: rest =>
    match if s.isAwaiting then none else command? argument rest with
    | some command =>
      match command with
      | .error fault => .error fault
      | .ok command => s.settle.map fun d => (d, some command)
    | none =>
      match form argument with
      | .escape => escaped s rest
      | .long name value => (s.long name value).bind fun s => readArguments s rest
      | .short letters => (s.short letters).bind fun s => readArguments s rest
      | .plain => (s.plain argument).bind fun s => readArguments s rest

/-- The root named on the line, else by the environment, else the top directory. -/
def rootOf (d : Draft) (rootVariable : Option String) : Except UsageFault Path :=
  match d.root, rootVariable with
  | some root, _ => .ok ⟨root⟩
  | none, some "" => .error .invalidValue
  | none, some root => .ok ⟨root⟩
  | none, none => .ok ⟨"/"⟩

/-- Reads the arguments after the program's name. -/
def read (arguments : List String) (rootVariable : Option String) :
    Except UsageFault CommandLine :=
  match readArguments ⟨.start, .nothing⟩ arguments with
  | .error fault => .error fault
  | .ok (d, command) =>
    (rootOf d rootVariable).map fun root =>
      { root
        only := d.only
        exclude := d.exclude
        format := d.format.getD .json
        pretty := d.pretty
        verbose := d.verbose
        quiet := d.quiet
        logFile := d.logFile.map Path.mk
        logJson := d.logJson
        command }

end HostInventory.CommandLine
