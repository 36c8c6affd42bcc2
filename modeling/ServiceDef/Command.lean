import ServiceDef.Command.Format
import ServiceDef.Command.Validate

/-!
# The program

The outcome of the program for its arguments and the files it finds.
-/

namespace ServiceDef

/-- The name and version of the program. -/
def versionText : String := "sdl 0.1.0\n"

/-- How the program is used. -/
def helpText : String :=
  "Format, validate, and compile service definition files\n\n" ++
  "Usage: sdl [--no-color] [-v] fmt [PATH] [--check] [--diff] [--write[=BOOL]]\n" ++
  "           [--actions STYLE] [--line-length N] [-j N] [--config FILE]\n" ++
  "       sdl [--no-color] [-v] validate [PATH] [-j N]\n" ++
  "       sdl [--no-color] [-v] compile [PATH]\n"

/-- Does what the program is asked for. -/
def Invocation.run (invocation : Invocation) (fileSystem : FileSystem) : Outcome :=
  match invocation with
  | .help => { output := helpText }
  | .version => { output := versionText }
  | .format request => request.run fileSystem
  | .validate path jobs => ValidateCommand.run path jobs fileSystem
  | .compile _ => { output := "compile is not implemented yet\n" }
  | .misuse => { code := 2 }

/-- Runs the program. -/
def runProgram (arguments : List String) (fileSystem : FileSystem) : Outcome :=
  (Arguments.parse arguments).run fileSystem

end ServiceDef
