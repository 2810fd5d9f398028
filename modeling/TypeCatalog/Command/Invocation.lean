import TypeCatalog.Files.Path
import TypeCatalog.OrderedMap

/-! What a command line asks for. Options and the operand of a command may come in any order, but
none of them twice. -/
namespace TypeCatalog.Command

inductive Argument where
  /-- Two dashes alone; no argument behind them is an option. -/
  | dashes
  | long (name : String) (value? : Option String)
  /-- One dash and letters, of which the last may be followed by its value. -/
  | short (letters : List Char)
  /-- Anything else, a lone dash and the empty text included. -/
  | plain (text : String)
deriving DecidableEq, Repr

namespace Argument

def ofString (text : String) : Argument :=
  match text.toList with
  | ['-', '-'] => .dashes
  | '-' :: '-' :: body =>
    .long (String.ofList (body.takeWhile (· != '=')))
      (match body.dropWhile (· != '=') with
        | [] => none
        | _ :: value => some (String.ofList value))
  | ['-'] => .plain text
  | '-' :: letters => .short letters
  | _ => .plain text

end Argument

inductive Shell where
  | bash
  | elvish
  | fish
  | powershell
  | zsh
deriving DecidableEq, Repr

def Shell.named? (name : String) : Option Shell :=
  [("bash", bash), ("elvish", elvish), ("fish", fish), ("powershell", powershell),
    ("zsh", zsh)].lookup name

def standardSettings : Path := ⟨"envuse.toml"⟩

structure StoreOptions where
  settings : Path
  definition? : Option Path
  declarations? : Option Path
deriving DecidableEq, Repr

inductive Invocation where
  | help
  | version
  | completions (shell : Shell)
  | render (document : Path) (name? : Option String)
  | attach (document : Path) (name? : Option String) (options : StoreOptions)
  | list (options : StoreOptions)
deriving DecidableEq, Repr

inductive Kind where
  | render
  | attach
  | list
  | completions
deriving DecidableEq, Repr

inductive Setting where
  | name
  | config
  | definition
  | declarations
deriving DecidableEq, Repr

inductive UsageError where
  | noCommand
  | unknownCommand (name : String)
  | unknownOption (text : String)
  | unexpected (text : String)
  | repeated (option : String)
  | noValue (option : String)
  /-- An option that is on or off has been given a value. -/
  | needlessValue (option : String)
  | emptyPath
  | noOperand
  | unknownShell (name : String)
deriving DecidableEq, Repr

def UsageError.message : UsageError → String
  | .noCommand => "a command is required"
  | .unknownCommand name => s!"unknown command '{name}'"
  | .unknownOption text => s!"unknown option '{text}'"
  | .unexpected text => s!"unexpected argument '{text}'"
  | .repeated option => s!"option '{option}' cannot be used multiple times"
  | .noValue option => s!"option '{option}' needs a value"
  | .needlessValue option => s!"option '{option}' takes no value"
  | .emptyPath => "a path cannot be empty"
  | .noOperand => "an argument is missing"
  | .unknownShell name => s!"unknown shell '{name}'"

namespace Kind

def named? (name : String) : Option Kind :=
  [("render", render), ("attach", attach), ("list", list), ("completions", completions)].lookup name

def settings : Kind → List Setting
  | render => [.name]
  | attach => [.name, .config, .definition, .declarations]
  | list => [.config, .definition, .declarations]
  | completions => []

def takesOperand : Kind → Bool
  | list => false
  | _ => true

end Kind

namespace Setting

def label : Setting → String
  | name => "name"
  | config => "config"
  | definition => "definition"
  | declarations => "declarations"

def letter? : Setting → Option Char
  | name => some 'n'
  | config => some 'c'
  | _ => none

def isPath (s : Setting) : Bool := s != name

end Setting

inductive Stop where
  | help
  | version
  | usage (e : UsageError)

structure Draft where
  operand? : Option String := none
  values : OrderedMap Setting String := ∅
  verbose : Bool := false
  /-- The option whose value has to come next. -/
  awaiting? : Option Setting := none
  /-- Whether the two dashes have been seen. -/
  plainOnly : Bool := false

namespace Draft

def putVerbose (d : Draft) : Except Stop Draft :=
  if d.verbose then .error (.usage (.repeated "verbose")) else .ok { d with verbose := true }

def putValue (d : Draft) (s : Setting) (value : String) : Except Stop Draft :=
  if d.values.contains s then .error (.usage (.repeated s.label))
  else if s.isPath ∧ value.isEmpty then .error (.usage .emptyPath)
  else .ok { d with values := d.values.insert s value, awaiting? := none }

def putOperand (d : Draft) (kind : Kind) (text : String) : Except Stop Draft :=
  if !kind.takesOperand || d.operand?.isSome then .error (.usage (.unexpected text))
  else if kind = .completions then
    if (Shell.named? text).isSome then .ok { d with operand? := some text }
    else .error (.usage (.unknownShell text))
  else if text.isEmpty then .error (.usage .emptyPath)
  else .ok { d with operand? := some text }

/-- A letter with a value takes the rest of the letters for it, less an equals sign. -/
def putLetters (d : Draft) (kind : Kind) : List Char → Except Stop Draft
  | [] => .ok d
  | 'h' :: _ => .error .help
  | 'v' :: rest => do (← d.putVerbose).putLetters kind rest
  | c :: rest =>
    match kind.settings.find? (·.letter? = some c), rest with
    | none, _ => .error (.usage (.unknownOption (String.ofList ['-', c])))
    | some s, [] => .ok { d with awaiting? := some s }
    | some s, '=' :: value => d.putValue s (String.ofList value)
    | some s, value => d.putValue s (String.ofList value)

def putLong (d : Draft) (kind : Kind) (name : String) (value? : Option String) :
    Except Stop Draft :=
  if name = "help" ∨ name = "verbose" then
    if value?.isSome then .error (.usage (.needlessValue name))
    else if name = "help" then .error .help
    else d.putVerbose
  else
    match kind.settings.find? (·.label = name), value? with
    | none, _ => .error (.usage (.unknownOption ("--" ++ name)))
    | some s, none => .ok { d with awaiting? := some s }
    | some s, some value => d.putValue s value

def put (kind : Kind) (d : Draft) (text : String) : Except Stop Draft :=
  if d.plainOnly then d.putOperand kind text
  else match d.awaiting?, Argument.ofString text with
    | some s, .plain value => d.putValue s value
    | some s, _ => .error (.usage (.noValue s.label))
    | none, .plain text => d.putOperand kind text
    | none, .dashes => .ok { d with plainOnly := true }
    | none, .long name value? => d.putLong kind name value?
    | none, .short letters => d.putLetters kind letters

def storeOptions (d : Draft) : StoreOptions where
  settings := ((d.values.get? .config).map Path.mk).getD standardSettings
  definition? := (d.values.get? .definition).map Path.mk
  declarations? := (d.values.get? .declarations).map Path.mk

def invocation (d : Draft) (kind : Kind) : Except UsageError Invocation :=
  match d.awaiting?, kind, d.operand? with
  | some s, _, _ => .error (.noValue s.label)
  | none, .list, _ => .ok (.list d.storeOptions)
  | none, _, none => .error .noOperand
  | none, .render, some document => .ok (.render ⟨document⟩ (d.values.get? .name))
  | none, .attach, some document => .ok (.attach ⟨document⟩ (d.values.get? .name) d.storeOptions)
  | none, .completions, some name =>
    match Shell.named? name with
    | some shell => .ok (.completions shell)
    | none => .error (.unknownShell name)

end Draft

structure Request where
  verbose : Bool
  invocation : Invocation
deriving DecidableEq, Repr

namespace Request

def ofKind (verbose : Bool) (kind : Kind) (args : List String) : Except Stop Request := do
  let d ← args.foldlM (Draft.put kind) {}
  match d.invocation kind with
  | .ok invocation => return ⟨verbose || d.verbose, invocation⟩
  | .error e => throw (.usage e)

def ofHelp : List String → Stop
  | [] => .help
  | [name] =>
    if name = "help" || (Kind.named? name).isSome then .help else .usage (.unknownCommand name)
  | _ :: text :: _ => .usage (.unexpected text)

def leadingLetters (verbose : Bool) : List Char → Except Stop Bool
  | [] => .ok verbose
  | 'h' :: _ => .error .help
  | 'V' :: _ => .error .version
  | 'v' :: rest =>
    if verbose then .error (.usage (.repeated "verbose")) else leadingLetters true rest
  | c :: _ => .error (.usage (.unknownOption (String.ofList ['-', c])))

def leadingLong (verbose : Bool) (name : String) (value? : Option String) : Except Stop Bool :=
  if name ∉ ["help", "version", "verbose"] then .error (.usage (.unknownOption ("--" ++ name)))
  else if value?.isSome then .error (.usage (.needlessValue name))
  else if name = "help" then .error .help
  else if name = "version" then .error .version
  else if verbose then .error (.usage (.repeated name))
  else .ok true

def ofLine (verbose : Bool) : List String → Except Stop Request
  | [] => .error (.usage .noCommand)
  | arg :: rest =>
    match Argument.ofString arg with
    | .dashes => .error (.usage .noCommand)
    | .short letters => do ofLine (← leadingLetters verbose letters) rest
    | .long name value? => do ofLine (← leadingLong verbose name value?) rest
    | .plain name =>
      if name = "help" then .error (ofHelp rest)
      else match Kind.named? name with
        | some kind => ofKind verbose kind rest
        | none => .error (.usage (.unknownCommand name))

def parse (args : List String) : Except UsageError Request :=
  match ofLine false args with
  | .ok request => .ok request
  | .error .help => .ok ⟨false, .help⟩
  | .error .version => .ok ⟨false, .version⟩
  | .error (.usage e) => .error e

end Request

end TypeCatalog.Command
