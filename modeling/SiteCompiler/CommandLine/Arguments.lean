import SiteCompiler.Settings.Load
set_option autoImplicit false

/-! # Arguments

The paths of a build can be chosen in front of the command and behind it; what stands behind it
counts. In either place each flag can be given once, with its value as the next argument or behind
an equals sign. The next argument is not taken as a value if it looks like a flag.
-/

namespace SiteCompiler.CommandLine

/-- What the program is to do. -/
inductive Command where
  | build (noMinify : Bool)
  | check
  | genConfig
  deriving DecidableEq, Repr

/-- What the arguments ask for. -/
inductive Request where
  | version
  | help
  | run (choice : BuildChoice) (command : Command)
  deriving DecidableEq, Repr

/-- An argument by its form. -/
inductive Argument where
  | flag (name : String) (value : Option String)
  | letter (c : Char)
  | endOfFlags
  | plain (text : String)
  deriving DecidableEq, Repr

/-- The flag behind two hyphens. -/
def longFlag (cs : List Char) : Argument :=
  let name := String.ofList (cs.takeWhile (· ≠ '='))
  match cs.dropWhile (· ≠ '=') with
  | [] => .flag name none
  | _ :: value => .flag name (some (String.ofList value))

/-- The form of an argument. Of letters behind one hyphen only the first counts. -/
def Argument.ofText (text : String) : Argument :=
  match text.toList with
  | ['-', '-'] => .endOfFlags
  | '-' :: '-' :: cs => longFlag cs
  | '-' :: c :: _ => .letter c
  | _ => .plain text

/-- The flags in one place: in front of the command or behind it. -/
structure Flags where
  choice : BuildChoice
  noMinify : Bool
  deriving DecidableEq, Repr

namespace Flags

/-- No flag. -/
def none : Flags := ⟨⟨.none, .none, .none, .none⟩, false⟩

/-- The value of a flag that is given for the first time. -/
def once? (before : Option String) (value : String) : Option (Option String) :=
  if before.isSome then .none else some (some value)

/-- The value of a flag for a path, which cannot be empty. -/
def path? (before : Option String) (value : String) : Option (Option String) :=
  if value.isEmpty then .none else once? before value

/-- Sets the value of a flag. -/
def set? (flags : Flags) (name value : String) : Option Flags :=
  let choice := flags.choice
  match name with
  | "src-root" =>
      (path? choice.srcRoot value).map fun v => { flags with choice := { choice with srcRoot := v } }
  | "out-dir" =>
      (path? choice.outDir value).map fun v => { flags with choice := { choice with outDir := v } }
  | "cache-dir" =>
      (path? choice.cacheDir value).map fun v =>
        { flags with choice := { choice with cacheDir := v } }
  | "base-path" =>
      (once? choice.basePath value).map fun v =>
        { flags with choice := { choice with basePath := v } }
  | _ => .none

end Flags

/-- What is chosen in two places; the first one counts. -/
def merge (inner outer : BuildChoice) : BuildChoice where
  srcRoot := inner.srcRoot <|> outer.srcRoot
  outDir := inner.outDir <|> outer.outDir
  cacheDir := inner.cacheDir <|> outer.cacheDir
  basePath := inner.basePath <|> outer.basePath

/-- The commands by name. -/
def command? (name : String) : Option Command :=
  match name with
  | "build" => some (.build false)
  | "check" => some .check
  | "gen-config" => some .genConfig
  | _ => none

/-- Whether a command has a switch to turn off minification. -/
def Command.hasSwitch : Command → Bool
  | .build _ => true
  | _ => false

/-- The command with its switch set. -/
def Command.withSwitch (noMinify : Bool) : Command → Command
  | .build _ => .build noMinify
  | command => command

/-- Reads the arguments behind the command. -/
def readBehind? (command : Command) (outer : BuildChoice) :
    Flags → List String → Option Request
  | flags, [] => some (.run (merge flags.choice outer) (command.withSwitch flags.noMinify))
  | flags, text :: rest =>
      match Argument.ofText text with
      | .flag "help" none => some .help
      | .letter 'h' => some .help
      | .flag "no-minify" none =>
          if command.hasSwitch && !flags.noMinify then
            readBehind? command outer { flags with noMinify := true } rest
          else none
      | .flag name (some value) => do readBehind? command outer (← flags.set? name value) rest
      | .flag name none =>
          match rest with
          | value :: rest =>
              match Argument.ofText value with
              | .plain value => do readBehind? command outer (← flags.set? name value) rest
              | _ => none
          | [] => none
      | .endOfFlags => if rest.isEmpty then readBehind? command outer flags rest else none
      | _ => none

/-- Reads the arguments in front of the command, and then the others. -/
def readFront? : Flags → List String → Option Request
  | _, [] => none
  | flags, text :: rest =>
      match Argument.ofText text with
      | .flag "version" none => some .version
      | .letter 'V' => some .version
      | .flag "help" none => some .help
      | .letter 'h' => some .help
      | .flag name (some value) => do readFront? (← flags.set? name value) rest
      -- A flag without an equals sign takes the next argument, unless that looks like a flag.
      | .flag name none =>
          match rest with
          | value :: rest =>
              match Argument.ofText value with
              | .plain value => do readFront? (← flags.set? name value) rest
              | _ => none
          | [] => none
      | .plain "help" => some .help
      | .plain name => do readBehind? (← command? name) flags.choice Flags.none rest
      | _ => none

/-- What arguments ask for; nothing if they are not understood. -/
def Request.ofArguments? (arguments : List String) : Option Request :=
  readFront? Flags.none arguments

end SiteCompiler.CommandLine
