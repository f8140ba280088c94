/-!
# Command line arguments

The arguments name a command after the options that hold for all of them. Options and words mix;
after `--` everything is a word. Arguments are taken from the left, and the first fault, or the
first request for help or the version, decides.
-/

set_option autoImplicit false

namespace SqlShell.CommandLine

inductive Command where
  | translate
  | demos
  | docs
  | doc
  deriving DecidableEq, Repr

def Command.ofName? : String → Option Command
  | "translate" => some .translate
  | "demos" => some .demos
  | "docs" => some .docs
  | "doc" => some .doc
  | _ => none

inductive Request where
  | translate (words : List String) (file : Option String) (outline : Bool)
  | demos
  | docs
  | doc (topic : String)
  | version
  | help (command : Option Command)
  deriving DecidableEq, Repr

structure Invocation where
  verbose : Bool
  request : Request
  deriving DecidableEq, Repr

inductive Switch where
  | verbose
  | version
  | help
  | ast
  | file
  deriving DecidableEq, Repr

namespace Switch

def name : Switch → String
  | verbose => "--verbose"
  | version => "--version"
  | help => "--help"
  | ast => "--ast"
  | file => "--file"

def ofShort? : Char → Option Switch
  | 'v' => some verbose
  | 'V' => some version
  | 'h' => some help
  | 'f' => some file
  | _ => none

def ofLong? (name : List Char) : Option Switch :=
  [verbose, version, help, ast, file].find? fun s => s.name.toList == '-' :: '-' :: name

def takesValue (s : Switch) : Bool := s == file

def isAllowed (s : Switch) : Option Command → Bool
  | none => s == verbose || s == version || s == help
  | some .translate => s == verbose || s == help || s == ast || s == file
  | some _ => s == verbose || s == help

end Switch

inductive UsageError where
  | unknownArgument (argument : String)
  | unknownCommand (name : String)
  | missingCommand
  | missingTopic
  | missingValue (switch : Switch)
  | unwantedValue (switch : Switch)
  | repeated (switch : Switch)
  deriving DecidableEq, Repr

def UsageError.message : UsageError → String
  | unknownArgument argument => "unexpected argument '" ++ argument ++ "' found"
  | unknownCommand name => "unrecognized subcommand '" ++ name ++ "'"
  | missingCommand => "a subcommand is required"
  | missingTopic => "a topic is required"
  | missingValue switch => "a value is required for '" ++ switch.name ++ "'"
  | unwantedValue switch => "unexpected value for '" ++ switch.name ++ "' found"
  | repeated switch => "the argument '" ++ switch.name ++ "' cannot be used multiple times"

inductive Item where
  | switch (switch : Switch)
  | value (switch : Switch) (value : String)
  | word (word : String)
  | terminator
  | fault (error : UsageError)
  deriving DecidableEq, Repr

def isDashed (argument : String) : Bool :=
  match argument.toList with
  | '-' :: _ :: _ => true
  | _ => false

def valueItem (switch : Switch) (value : List Char) : Item :=
  if value.isEmpty then .fault (.missingValue switch) else .value switch (String.ofList value)

/-- The switches in an argument with one dash. The letters after one that takes a value are its
value, and without them the next argument is. -/
def clusterItems (command : Option Command) : List Char → List Item × Option Switch
  | [] => ([], none)
  | c :: rest =>
    match (Switch.ofShort? c).filter (·.isAllowed command) with
    | none => ([.fault (.unknownArgument ("-" ++ c.toString))], none)
    | some switch =>
      if switch.takesValue then
        match rest with
        | [] => ([], some switch)
        | '=' :: value => ([valueItem switch value], none)
        | value => ([valueItem switch value], none)
      else
        let more := clusterItems command rest
        (.switch switch :: more.1, more.2)

def longItems (command : Option Command) (argument : List Char) : List Item × Option Switch :=
  match (Switch.ofLong? (argument.takeWhile (· != '='))).filter (·.isAllowed command) with
  | none => ([.fault (.unknownArgument ("--" ++ String.ofList argument))], none)
  | some switch =>
    match argument.dropWhile (· != '='), switch.takesValue with
    | [], true => ([], some switch)
    | [], false => ([.switch switch], none)
    | _ :: value, true => ([valueItem switch value], none)
    | _ :: _, false => ([.fault (.unwantedValue switch)], none)

def items (command : Option Command) : Option Switch → List String → List Item
  | none, [] => []
  | some switch, [] => [.fault (.missingValue switch)]
  | some switch, argument :: rest =>
    if isDashed argument then [.fault (.missingValue switch)]
    else valueItem switch argument.toList :: items command none rest
  | none, argument :: rest =>
    match argument.toList with
    | ['-', '-'] => .terminator :: rest.map .word
    | '-' :: '-' :: long =>
      let taken := longItems command long
      taken.1 ++ items command taken.2 rest
    | '-' :: c :: cluster =>
      let taken := clusterItems command (c :: cluster)
      taken.1 ++ items command taken.2 rest
    | _ => .word argument :: items command none rest

structure Found where
  verbose : Bool
  outline : Bool
  file : Option String
  words : List String
  deriving DecidableEq, Repr

def Command.maxWords : Command → Option Nat
  | translate => none
  | demos => some 0
  | docs => some 0
  | doc => some 1

def Command.request (command : Command) (found : Found) : Except UsageError Request :=
  match command, found.words with
  | translate, words => .ok (.translate words found.file found.outline)
  | demos, _ => .ok .demos
  | docs, _ => .ok .docs
  | doc, topic :: _ => .ok (.doc topic)
  | doc, [] => .error .missingTopic

def afterCommand (command : Command) (found : Found) : List Item → Except UsageError Invocation
  | [] => (command.request found).map (⟨found.verbose, ·⟩)
  | .fault e :: _ => .error e
  | .terminator :: items => afterCommand command found items
  | .word word :: items =>
    if command.maxWords.any (· ≤ found.words.length) then .error (.unknownArgument word)
    else afterCommand command { found with words := found.words ++ [word] } items
  | .value switch value :: items =>
    if found.file.isSome then .error (.repeated switch)
    else afterCommand command { found with file := some value } items
  | .switch .verbose :: items =>
    if found.verbose then .error (.repeated .verbose)
    else afterCommand command { found with verbose := true } items
  | .switch .ast :: items =>
    if found.outline then .error (.repeated .ast)
    else afterCommand command { found with outline := true } items
  | .switch .help :: _ => .ok ⟨found.verbose, .help (some command)⟩
  | .switch switch :: _ => .error (.unknownArgument switch.name)

def helpRequest : List String → Except UsageError Request
  | [] => .ok (.help none)
  | [name] =>
    match Command.ofName? name with
    | some command => .ok (.help (some command))
    | none => .error (.unknownCommand name)
  | _ :: argument :: _ => .error (.unknownArgument argument)

def commandFrom (verbose : Bool) : List String → Except UsageError Invocation
  | [] => .error .missingCommand
  | "help" :: rest => (helpRequest rest).map (⟨verbose, ·⟩)
  | name :: rest =>
    match Command.ofName? name with
    | some command =>
      (afterCommand command ⟨false, false, none, []⟩ (items (some command) none rest)).map
        fun invocation => { invocation with verbose := verbose || invocation.verbose }
    | none => .error (.unknownCommand name)

def beforeCommand (rest : List String) (verbose : Bool) :
    List Item → Except UsageError Invocation
  | [] => commandFrom verbose rest
  | .fault e :: _ => .error e
  | .switch .verbose :: items =>
    if verbose then .error (.repeated .verbose) else beforeCommand rest true items
  | .switch .version :: _ => .ok ⟨verbose, .version⟩
  | .switch .help :: _ => .ok ⟨verbose, .help none⟩
  | _ :: _ => .error .missingCommand

def Invocation.ofArguments (arguments : List String) : Except UsageError Invocation :=
  beforeCommand (arguments.dropWhile isDashed) false
    (items none none (arguments.takeWhile isDashed))

end SqlShell.CommandLine
