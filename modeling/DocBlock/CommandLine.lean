import DocBlock.Completion.Request

/-! The command line: a subcommand with options and inputs, and the variables of the environment
that stand in for options. -/

namespace DocBlock

inductive Command
  | list (inputs : List String) (format : String)
  | check (inputs : List String) (format : String)
  | generate (inputs : List String) (includeStale : Bool) (settings : Completion.Settings)
  deriving DecidableEq, Repr

def Command.inputs : Command → List String
  | list inputs _ | check inputs _ | generate inputs _ _ => inputs

structure Invocation where
  command : Command
  verbose : Bool
  deriving DecidableEq, Repr

/-- Why a command line does not lead to a run. -/
inductive Usage
  | help
  | invalid
  deriving DecidableEq, Repr

namespace CommandLine

/-- An option with its names. -/
structure Switch where
  long : String
  short : Option Char
  takesValue : Bool
  deriving DecidableEq, Repr

def verbose : Switch := ⟨"verbose", some 'v', false⟩

def help : Switch := ⟨"help", some 'h', false⟩

def reportOptions : List Switch := [verbose, help, ⟨"format", some 'f', true⟩]

def generateOptions : List Switch :=
  [verbose, help, ⟨"stale", none, false⟩, ⟨"api-key", none, true⟩, ⟨"base-uri", none, true⟩,
    ⟨"model", none, true⟩]

/-- What a command line has said so far: each option once, with its value, and the inputs. -/
structure Said where
  options : List (String × String)
  inputs : List String
  deriving DecidableEq, Repr

namespace Said

def nothing : Said := ⟨[], []⟩

/-- Adds an option; help ends the reading, and no option may come twice. -/
def addOption (said : Said) (option : Switch) (value : String) : Except Usage Said :=
  if option.long = help.long then .error .help
  else if said.options.any fun given => given.1 = option.long then .error .invalid
  else .ok { said with options := said.options ++ [(option.long, value)] }

def addInput (said : Said) (input : String) : Said :=
  { said with inputs := said.inputs ++ [input] }

def has (said : Said) (option : String) : Bool := (said.options.lookup option).isSome

end Said

/-- An argument in one of the forms that may hold options. -/
inductive Shape
  | long (name : String) (attached : Option String)
  | short (letters : List Char)
  | endOfOptions
  | plain
  deriving DecidableEq, Repr

/-- A lone hyphen is a plain argument. -/
def shapeOf (argument : String) : Shape :=
  match argument.toList with
  | ['-', '-'] => .endOfOptions
  | '-' :: '-' :: rest =>
    let name := rest.takeWhile (· != '=')
    match rest.drop name.length with
    | [] => .long (.ofList name) none
    | _ :: value => .long (.ofList name) (some (.ofList value))
  | '-' :: c :: rest => .short (c :: rest)
  | _ => .plain

/-- What an argument leaves to be read: nothing, or the value of an option. -/
inductive Pending
  | nothing
  | valueOf (option : Switch)
  deriving DecidableEq, Repr

def readLong (options : List Switch) (said : Said) (name : String) (attached : Option String) :
    Except Usage (Said × Pending) :=
  match options.find? fun option => option.long = name with
  | none => .error .invalid
  | some option =>
    match option.takesValue, attached with
    | true, some value => (·, .nothing) <$> said.addOption option value
    | true, none => .ok (said, .valueOf option)
    | false, some _ => .error .invalid
    | false, none => (·, .nothing) <$> said.addOption option ""

/-- Flags may share a hyphen; the rest after an option that takes a value is that value. -/
def readShort (options : List Switch) (said : Said) : List Char → Except Usage (Said × Pending)
  | [] => .ok (said, .nothing)
  | letter :: rest =>
    match options.find? fun option => option.short = some letter with
    | none => .error .invalid
    | some option =>
      if option.takesValue then
        match rest with
        | [] => .ok (said, .valueOf option)
        | '=' :: value => (·, .nothing) <$> said.addOption option (.ofList value)
        | value => (·, .nothing) <$> said.addOption option (.ofList value)
      else
        match said.addOption option "" with
        | .ok said => readShort options said rest
        | .error usage => .error usage

/-- Reads the arguments of a subcommand. The value of an option may not look like an option. -/
def read (options : List Switch) : Pending → Said → List String → Except Usage Said
  | .nothing, said, [] => .ok said
  | .valueOf _, _, [] => .error .invalid
  | .valueOf option, said, argument :: arguments =>
    match shapeOf argument with
    | .plain =>
      match said.addOption option argument with
      | .ok said => read options .nothing said arguments
      | .error usage => .error usage
    | _ => .error .invalid
  | .nothing, said, argument :: arguments =>
    match shapeOf argument with
    | .plain => read options .nothing (said.addInput argument) arguments
    | .endOfOptions => .ok (arguments.foldl Said.addInput said)
    | .long name attached =>
      match readLong options said name attached with
      | .ok (said, pending) => read options pending said arguments
      | .error usage => .error usage
    | .short letters =>
      match readShort options said letters with
      | .ok (said, pending) => read options pending said arguments
      | .error usage => .error usage

/-- The value of an option, of the variable that stands in for it, or none. -/
def valueOf (environment : String → Option String) (said : Said) (option variableName : String) :
    Option String :=
  (said.options.lookup option) <|> environment variableName

def settings (environment : String → Option String) (said : Said) : Completion.Settings :=
  { Completion.Settings.default with
    apiKey := valueOf environment said "api-key" "OPENAI_KEY"
    baseUri := valueOf environment said "base-uri" "BASE_URI"
    model := (valueOf environment said "model" "MODEL").getD Completion.Settings.defaultModel }

def format (said : Said) : String := (said.options.lookup "format").getD "text"

/-- The subcommand of a name, applied to the arguments after it. -/
def subcommand (environment : String → Option String) (name : String) (arguments : List String) :
    Except Usage Invocation := do
  match name with
  | "list" =>
    let said ← read reportOptions .nothing .nothing arguments
    return ⟨.list said.inputs (format said), said.has verbose.long⟩
  | "check" =>
    let said ← read reportOptions .nothing .nothing arguments
    return ⟨.check said.inputs (format said), said.has verbose.long⟩
  | "generate" =>
    let said ← read generateOptions .nothing .nothing arguments
    return ⟨.generate said.inputs (said.has "stale") (settings environment said),
      said.has verbose.long⟩
  | "help" =>
    if arguments.all ["list", "check", "generate", "help"].contains ∧ arguments.length ≤ 1 then
      throw .help
    else throw .invalid
  | _ => throw .invalid

/-- Reads a command line. Before the subcommand only the options of every subcommand may stand. -/
def parseFrom (environment : String → Option String) : Said → List String → Except Usage Invocation
  | _, [] => .error .invalid
  | said, argument :: arguments =>
    match shapeOf argument with
    | .plain =>
      (subcommand environment argument arguments).map fun invocation =>
        { invocation with verbose := invocation.verbose || said.has verbose.long }
    | .endOfOptions => .error .invalid
    | .long name attached =>
      match readLong [verbose, help] said name attached with
      | .ok (said, _) => parseFrom environment said arguments
      | .error usage => .error usage
    | .short letters =>
      match readShort [verbose, help] said letters with
      | .ok (said, _) => parseFrom environment said arguments
      | .error usage => .error usage

def parse (environment : String → Option String) (arguments : List String) :
    Except Usage Invocation :=
  parseFrom environment .nothing arguments

end CommandLine

end DocBlock
