/- The command line: it gathers what the command needs, runs it, and prints what comes of it. -/
import Delimited.Command.Run
import Delimited.Settings.Writer

namespace Delimited.CommandLine

/-- The number and the words of an error of the operating system. -/
def systemFault : IO.Error → SystemFault
  | .alreadyExists _ code words | .otherError code words | .resourceBusy code words
  | .resourceVanished code words | .unsupportedOperation code words | .hardwareFault code words
  | .unsatisfiedConstraints code words | .illegalOperation code words | .protocolError code words
  | .timeExpired code words | .interrupted _ code words | .noFileOrDirectory _ code words
  | .invalidArgument _ code words | .permissionDenied _ code words
  | .resourceExhausted _ code words | .inappropriateType _ code words
  | .noSuchThing _ code words => ⟨code.toNat, words.toList⟩
  | .unexpectedEof => ⟨0, "end of file".toList⟩
  | .userError words => ⟨0, words.toList⟩

def fileAt (path : Text) : IO (Text × Except SystemFault Stream) := do
  try
    let bytes ← IO.FS.readBinFile (String.ofList path)
    return (path, .ok { bytes := bytes.toList })
  catch e => return (path, .error (systemFault e))

partial def readAll (stream : IO.FS.Stream) (found : ByteArray) : IO ByteArray := do
  let more ← stream.read 65536
  if more.isEmpty then return found else readAll stream (found ++ more)

def surroundings (a : Command.Arguments) : IO Command.Surroundings := do
  let environment ← Tunables.environmentVariables.filterMapM fun name => do
    return (← IO.getEnv (String.ofList name)).map fun value => (name, value.toList)
  let paths := Path.normal a.source :: a.config.toList
  let files ← paths.mapM fileAt
  let input ← if a.source = ['-'] then readAll (← IO.getStdin) .empty else pure .empty
  return {
    environment := fun name => environment.lookup name
    files := fun path => (files.lookup path).getD (.error .missing)
    obstacle := fun _ => none
    input := { bytes := input.toList } }

/-- The words of an error that ends the command where it arises. -/
def escaping : Command.Trouble → Text
  | .environment fault => fault.message
  | .input fault | .sample (.unread _ fault) | .seedUnread _ fault => fault.message
  | .sample (.cannotOpen path fault) | .seedClosed path fault | .output path fault =>
    fault.message path
  | .seedBroken _ (.meaningless why) => why
  | .guess (.quote .scoreTooLarge) => "integer division result too large for a float".toList
  | _ => []

def finish (outcome : Command.Outcome) : IO UInt32 := do
  IO.print (String.ofList outcome.outputText)
  IO.eprint (String.ofList outcome.errorText)
  match outcome with
  | .printed fragment => IO.println (String.ofList (Document.written fragment))
  | .written path fragment _ =>
    IO.FS.writeFile (String.ofList path) (String.ofList (Document.written fragment ++ ['\n']))
  | .refused _ => IO.eprintln "usage: delimited [-v] (guess | preview) --source FILE [options]"
  | .stopped trouble =>
    if trouble.report?.isNone then throw (IO.userError (String.ofList (escaping trouble)))
  | _ => pure ()
  return ((outcome.exitCode?).getD 1).toUInt32

end Delimited.CommandLine

open Delimited in
def main (arguments : List String) : IO UInt32 := do
  let arguments := arguments.map String.toList
  match Command.Arguments.read arguments with
  | .error why => CommandLine.finish (.refused why)
  | .ok a => CommandLine.finish (Command.run (← CommandLine.surroundings a) arguments)
