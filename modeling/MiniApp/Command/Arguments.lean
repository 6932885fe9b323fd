import MiniApp.Settings.Basic
import MiniApp.Text.Digit
import MiniApp.Text.Quoted

/-!
# Arguments of commands

Arguments are sorted first: into words, flags, and the separator behind which everything is a word.
A flag may be shortened as long as no other one is meant, and its value may be attached by an equals
sign. The sorted arguments are then read from left to right. What nothing takes is left over.

The tool's own flags come before the name of a command; all that follows the name is sorted and read
anew, by the flags of that command.

## Main definitions

* `Flag`, `Dialect`: the flags there are, and whose they are
* `Item`, `sortAll`: sorted arguments
* `Dialect.read`: what arguments say
* `Invocation.ofArguments`: the invocation of a command
-/

namespace MiniApp.Command

/-- What giving a flag does. -/
inductive Effect where
  | help
  | version
  | switch
  /-- Set a value, one of the choices if there are any. -/
  | value (choices : List String)
  deriving DecidableEq, Repr

/-- A flag with its names. -/
structure Flag where
  names : List String
  effect : Effect
  deriving DecidableEq, Repr

/-- All names of a flag. -/
def Flag.label (f : Flag) : String := "/".intercalate f.names

/-- Something attached to a flag. Behind a long name, which an equals sign ends, it is a value;
behind a short one it may also be the letters of further short flags. -/
inductive Attachment where
  | value (text : String)
  | letters (text : String)
  deriving DecidableEq, Repr

namespace Attachment

/-- The text attached. -/
def text : Attachment → String
  | value s | letters s => s

/-- What an equals sign attaches to a name. -/
def behind (name text : String) : Attachment :=
  if name.startsWith "--" then value text else letters text

end Attachment

/-- An argument by its sort. -/
inductive Item where
  | word (text : String)
  | separator
  /-- A flag, perhaps with something attached to it. -/
  | flag (text : String) (f : Flag) (attached : Option Attachment)
  | unknownFlag (text : String)
  deriving DecidableEq, Repr

/-- The argument itself. -/
def Item.text : Item → String
  | .word s | .flag s _ _ | .unknownFlag s => s
  | .separator => "--"

/-- The names of flags with the flags they name. -/
def nameTable (flags : List Flag) : List (String × Flag) :=
  flags.flatMap fun f => f.names.map fun name => (name, f)

/-- Split a text at its first equals sign. -/
def splitEquals? (s : String) : Option (String × String) :=
  let stem := s.toList.takeWhile (· != '=')
  match s.toList.drop stem.length with
  | [] => none
  | _ :: rest => some (String.ofList stem, String.ofList rest)

/-- The flags that an argument may mean: the long ones that begin with it, up to an equals sign, or
the short one that it begins with. -/
def candidates (flags : List Flag) (arg : String) : List (String × Flag × Option Attachment) :=
  if arg.startsWith "--" then
    let (stem, attached) : String × Option Attachment := match splitEquals? arg with
      | some (stem, value) => (stem, some (.value value))
      | none => (arg, none)
    (nameTable flags).filterMap fun (name, f) =>
      if name.startsWith stem then some (name, f, attached) else none
  else
    let short := String.ofList (arg.toList.take 2)
    let tail := String.ofList (arg.toList.drop 2)
    (nameTable flags).filterMap fun (name, f) =>
      if name = short then some (name, f, some (.letters tail))
      else if name.startsWith arg then some (name, f, none)
      else none

/-- Whether a text is a line with a negative number, written with or without a point. The line may
be ended. -/
def isNegativeNumber (s : String) : Bool :=
  let isDigit (c : Char) : Bool := (Text.digitValue? c).isSome
  let isOver (cs : List Char) : Bool := cs.isEmpty || cs == ['\n']
  match s.toList with
  | '-' :: cs =>
    let whole := cs.takeWhile isDigit
    match cs.drop whole.length with
    | '.' :: cs =>
      let fraction := cs.takeWhile isDigit
      !fraction.isEmpty && isOver (cs.drop fraction.length)
    | rest => !whole.isEmpty && isOver rest
  | _ => false

/-- The sort of an argument that is no flag's name, whole or up to an equals sign. -/
def sortUnnamed (flags : List Flag) (arg : String) : Except String Item :=
  match candidates flags arg with
  | [] =>
    -- what looks like a number or like a sentence is not meant as a flag
    if isNegativeNumber arg || arg.toList.contains ' ' then .ok (.word arg)
    else .ok (.unknownFlag arg)
  | [(_, f, attached)] => .ok (.flag arg f attached)
  | many =>
    .error ("ambiguous option: " ++ arg ++ " could match " ++ ", ".intercalate (many.map (·.1)))

/-- The sort of an argument other than the separator, or what is wrong with it. -/
def sort (flags : List Flag) (arg : String) : Except String Item :=
  if !arg.startsWith "-" then .ok (.word arg)
  else
    match (nameTable flags).lookup arg with
    | some f => .ok (.flag arg f none)
    | none =>
      if arg = "-" then .ok (.word arg)
      else
        match splitEquals? arg with
        | some (stem, value) =>
          match (nameTable flags).lookup stem with
          | some f => .ok (.flag arg f (some (.behind stem value)))
          | none => sortUnnamed flags arg
        | none => sortUnnamed flags arg

/-- Sort all arguments. -/
def sortAll (flags : List Flag) : List String → Except String (List Item)
  | [] => .ok []
  | arg :: args => do
    if arg = "--" then return .separator :: args.map .word
    else
      let item ← sort flags arg
      let items ← sortAll flags args
      return item :: items

/-- Why arguments lead to no command being carried out. -/
inductive Stop where
  | help (program : String)
  | version
  | misuse (program message : String)
  deriving DecidableEq, Repr

/-- What arguments have said so far. -/
structure Parsed where
  /-- The labels of the switches given. -/
  switches : List String := []
  /-- The labels of flags with what was given for a value, the latest first. -/
  values : List (String × Option String) := []
  /-- What the operand has taken. -/
  operand : List String := []
  /-- What nothing has taken. -/
  extras : List String := []
  /-- Whether the operand has been taken just now. -/
  closing : Bool := false
  deriving DecidableEq, Repr

/-- Whose arguments are read: the name for messages, the flags, and whether the operand is a name
of a command, which takes everything behind it, or a single word. -/
structure Dialect where
  program : String
  flags : List Flag
  takesCommand : Bool
  deriving DecidableEq, Repr

/-- Texts between quotes, separated by commas. -/
def choiceList (choices : List String) : String := ", ".intercalate (choices.map Text.quoted)

/-- What is wrong with a value that is none of the choices. -/
def invalidChoice (label value : String) (choices : List String) : String :=
  "argument " ++ label ++ ": invalid choice: " ++ Text.quoted value ++ " (choose from " ++
    choiceList choices ++ ")"

/-- What is wrong with something attached to a flag that takes no value. -/
def ignoredAttachment (f : Flag) (text : String) : String :=
  "argument " ++ f.label ++ ": ignored explicit argument " ++ Text.quoted text

/-- A short flag and the short flags whose letters follow it. The first letter that names none makes
all that is left of the letters an attachment of the flag before it. -/
def cluster (flags : List Flag) (f : Flag) : List Char → Except String (List Flag)
  | [] => .ok [f]
  | c :: cs =>
    match (nameTable flags).lookup (String.ofList ['-', c]) with
    | some g => do return f :: (← cluster flags g cs)
    | none => .error (ignoredAttachment f (String.ofList (c :: cs)))

namespace Dialect

/-- Stop with a message. -/
def misuse (d : Dialect) {α : Type} (message : String) : Except Stop α :=
  .error (.misuse d.program message)

/-- Give a flag that takes no value. -/
def give (d : Dialect) (p : Parsed) (f : Flag) : Except Stop Parsed :=
  match f.effect with
  | .help => .error (.help d.program)
  | .version => .error .version
  | _ => .ok { p with switches := f.label :: p.switches }

/-- Give a flag with a value. The separator, which only an equals sign can attach, is no value: it
takes back what was given before. -/
def giveValue (d : Dialect) (p : Parsed) (f : Flag) (choices : List String) (value : String) :
    Except Stop Parsed :=
  if value = "--" then .ok { p with values := (f.label, none) :: p.values }
  else if choices.isEmpty || choices.contains value then
    .ok { p with values := (f.label, some value) :: p.values }
  else d.misuse (invalidChoice f.label value choices)

/-- Leave an argument over. -/
def leave (p : Parsed) (s : String) : Parsed :=
  { p with extras := p.extras ++ [s], closing := false }

/-- Give a flag that takes no value, though something is attached to it. -/
def giveAttached (d : Dialect) (p : Parsed) (f : Flag) : Attachment → Except Stop Parsed
  | .value text => d.misuse (ignoredAttachment f text)
  | .letters "" => d.misuse (ignoredAttachment f "")
  | .letters text =>
    match cluster d.flags f text.toList with
    | .ok fs => fs.foldlM d.give p
    | .error message => d.misuse message

/-- Read sorted arguments. A separator right in front of the operand or right behind it belongs to
it; any other one is left over. -/
def readItems (d : Dialect) : Parsed → List Item → Except Stop Parsed
  | p, [] => .ok p
  | p, .unknownFlag s :: items => d.readItems (leave p s) items
  | p, .flag _ f attached :: items =>
    let p := { p with closing := false }
    match f.effect, attached with
    | .value choices, some a => do d.readItems (← d.giveValue p f choices a.text) items
    | .value choices, none =>
      match items with
      | .word value :: rest => do d.readItems (← d.giveValue p f choices value) rest
      | _ => d.misuse ("argument " ++ f.label ++ ": expected one argument")
    | _, some a => do d.readItems (← d.giveAttached p f a) items
    | _, none => do d.readItems (← d.give p f) items
  | p, .word s :: items =>
    if d.takesCommand then .ok { p with operand := s :: items.map Item.text }
    else if p.operand.isEmpty then d.readItems { p with operand := [s], closing := true } items
    else d.readItems (leave p s) items
  | p, .separator :: items =>
    if p.closing then d.readItems { p with closing := false } items
    else if items.isEmpty || !p.operand.isEmpty then d.readItems (leave p "--") items
    else if d.takesCommand then .ok { p with operand := "--" :: items.map Item.text }
    else d.readItems p items

/-- What arguments say. -/
def read (d : Dialect) (args : List String) : Except Stop Parsed :=
  match sortAll d.flags args with
  | .ok items => d.readItems {} items
  | .error message => d.misuse message

end Dialect

/-! ## The tool and its commands -/

/-- The commands. -/
inductive Verb where
  | run | lint | tokens | format
  deriving DecidableEq, Repr

namespace Verb

/-- All commands. -/
def all : List Verb := [run, lint, tokens, format]

/-- The name of a command. -/
def word : Verb → String
  | run => "run"
  | lint => "lint"
  | tokens => "tokens"
  | format => "format"

/-- The command of a name. -/
def ofWord? (s : String) : Option Verb := all.find? (·.word == s)

end Verb

/-- The flag that asks for help. -/
def helpFlag : Flag := ⟨["-h", "--help"], .help⟩

/-- The flag that names the file with the settings. -/
def configFlag : Flag := ⟨["--config"], .value []⟩

/-- The flag that asks for more detail in reports of failures. -/
def verboseFlag : Flag := ⟨["--verbose"], .switch⟩

/-- The word for warnings that the flag for logging admits besides the regular ones. -/
def shortWarning : String := "warn"

/-- The flag that sets the level of logging. -/
def levelFlag : Flag := ⟨["--log-level"], .value (LogLevel.all.map LogLevel.word ++ [shortWarning])⟩

/-- The flag that asks for the result of a run as JSON. -/
def jsonFlag : Flag := ⟨["--json"], .switch⟩

/-- The flag that has a file overwritten. -/
def writeFlag : Flag := ⟨["--write"], .switch⟩

/-- The tool's own arguments. -/
def tool : Dialect where
  program := "homy"
  flags := [helpFlag, ⟨["--version"], .version⟩, configFlag, verboseFlag, levelFlag]
  takesCommand := true

/-- The arguments of a command. -/
def Verb.dialect (v : Verb) : Dialect where
  program := "homy " ++ v.word
  flags := helpFlag :: match v with
    | .run => [jsonFlag]
    | .format => [writeFlag]
    | .lint | .tokens => []
  takesCommand := false

/-- What is to be done with a file. -/
structure Task where
  verb : Verb
  file : String
  /-- Whether the result of a run is to be shown as JSON. -/
  asJson : Bool := false
  /-- Whether a formatted file is to be overwritten. -/
  inPlace : Bool := false
  deriving DecidableEq, Repr

/-- An invocation of the tool. -/
structure Invocation where
  config : Option String := none
  verbose : Bool := false
  logLevel : Option LogLevel := none
  task : Option Task := none
  deriving DecidableEq, Repr

/-- Refuse arguments that are left over. -/
def refuseExtras (extras : List String) : Except Stop Unit :=
  if extras.isEmpty then .ok ()
  else tool.misuse ("unrecognized arguments: " ++ " ".intercalate extras)

/-- A first argument that is neither flag nor command is the file of a run. -/
def withVerb : List String → List String
  | [] => []
  | arg :: args =>
    if arg.startsWith "-" || (Verb.ofWord? arg).isSome then arg :: args
    else Verb.run.word :: arg :: args

/-- The task that the name of a command and its arguments give, and the arguments left over. -/
def readTask (name : String) (args : List String) : Except Stop (Task × List String) :=
  match Verb.ofWord? name with
  | none => tool.misuse (invalidChoice "command" name (Verb.all.map Verb.word))
  | some verb => do
    let p ← verb.dialect.read args
    match p.operand with
    | [] => verb.dialect.misuse "the following arguments are required: file"
    | file :: _ =>
      let given (f : Flag) : Bool := p.switches.contains f.label
      return ({ verb, file, asJson := given jsonFlag, inPlace := given writeFlag }, p.extras)

/-- The latest value of a flag, if that is one. -/
def Parsed.value? (p : Parsed) (f : Flag) : Option String := (p.values.lookup f.label).join

namespace Invocation

/-- The invocation that the tool's own flags give. -/
def ofParsed (p : Parsed) (task : Option Task) : Invocation where
  config := (p.value? configFlag).filter fun s => !s.isEmpty
  verbose := p.switches.contains verboseFlag.label
  logLevel := (p.value? levelFlag).map fun s => (LogLevel.ofWord? s).getD .warning
  task := task

/-- The invocation that arguments give. -/
def ofArguments (args : List String) : Except Stop Invocation := do
  let p ← tool.read (withVerb args)
  match p.operand with
  | [] =>
    refuseExtras p.extras
    return ofParsed p none
  | name :: args =>
    let (task, extras) ← readTask name args
    refuseExtras (p.extras ++ extras)
    return ofParsed p (some task)

end Invocation

end MiniApp.Command
