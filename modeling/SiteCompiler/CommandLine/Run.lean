import SiteCompiler.Build.Report
import SiteCompiler.Build.Site
import SiteCompiler.CommandLine.Arguments
import SiteCompiler.Settings.Stock
set_option autoImplicit false

/-! # Running a command

A run is a function of the arguments, the working directory and the files, and of the libraries and
the race between pages. It gives what is printed, the files afterwards, the exit status, and what is
reported besides.
-/

namespace SiteCompiler.CommandLine

/-- The outcome of a run. -/
structure Outcome where
  status : Nat
  output : String
  tree : FileTree
  events : List Event
  error : Option String

/-- The exit status of arguments that are not understood. -/
def usageStatus : Nat := 2

/-- The name and version of the program. -/
def versionText : String := "dinomlx 0.1.0\n"

/-- How the program is called. -/
def usageText : String :=
  "Usage: dinomlx [--src-root DIR] [--out-dir DIR] [--cache-dir DIR] [--base-path PATH] COMMAND\n"
    ++ "Commands: build [--no-minify], check, gen-config\n"

/-- Lines as they are printed. -/
def printed (lines : List String) : String := String.join (lines.map fun line => line ++ "\n")

/-- A run that has gone well. -/
def success (tree : FileTree) (lines : List String) (events : List Event) : Outcome :=
  ⟨0, printed lines, tree, events, none⟩

/-- A run that has ended with an error, after some lines were printed. -/
def failure (tree : FileTree) (lines : List String) (error : String) : Outcome :=
  ⟨1, printed lines, tree, [], some error⟩

/-- The paths and the settings of a build. -/
def site (libraries : Libraries) (tree : FileTree) (cwd : Path) (choice : BuildChoice) :
    Except ConfigError Build.SiteContext := do
  let paths ← BuildPaths.resolve tree cwd choice
  .ok ⟨libraries, paths, ← SiteSettings.load libraries.readToml tree paths.srcRoot⟩

/-- The settings without minification. -/
def withoutMinification (context : Build.SiteContext) : Build.SiteContext :=
  { context with settings :=
    { context.settings with css := { context.settings.css with minify := false } } }

/-- Builds a site. -/
def build (race : Build.Race) (tree : FileTree) (context : Build.SiteContext) : Outcome :=
  let opening := "==> Building " ++ context.paths.srcRoot.text
  match Build.run race tree context with
  | (tree, .error e) => failure tree [opening] e.message
  | (tree, .ok (result, events)) =>
      success tree (opening :: Report.build result
        ++ ["==> Build complete: " ++ context.paths.outDir.text]) events

/-- Checks a site. -/
def check (race : Build.Race) (tree : FileTree) (context : Build.SiteContext) : Outcome :=
  let opening := "==> Checking " ++ context.paths.srcRoot.text
  match Build.compile race tree context with
  | .error e => failure tree [opening] e.message
  | .ok checked =>
      success tree (opening :: Report.check checked.registry checked.result
        ++ ["==> Site is valid"]) checked.events

/-- Runs a command. -/
def runCommand (libraries : Libraries) (race : Build.Race) (tree : FileTree) (cwd : Path)
    (choice : BuildChoice) (command : Command) : Outcome :=
  match command with
  | .genConfig => ⟨0, Settings.stock, tree, [], none⟩
  | .build noMinify =>
      match site libraries tree cwd choice with
      | .error e => failure tree [] e.message
      | .ok context => build race tree (if noMinify then withoutMinification context else context)
  | .check =>
      match site libraries tree cwd choice with
      | .error e => failure tree [] e.message
      | .ok context => check race tree context

/-- Runs the program. -/
def run (libraries : Libraries) (race : Build.Race) (tree : FileTree) (cwd : Path)
    (arguments : List String) : Outcome :=
  match Request.ofArguments? arguments with
  | none => ⟨usageStatus, "", tree, [], some usageText⟩
  | some .version => ⟨0, versionText, tree, [], none⟩
  | some .help => ⟨0, usageText, tree, [], none⟩
  | some (.run choice command) => runCommand libraries race tree cwd choice command

end SiteCompiler.CommandLine
