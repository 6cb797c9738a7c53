import Offside.CommandLine

/-!
# The program

Read what the arguments name, run the command, and write what it leaves.
-/

namespace Offside.CommandLine

def ReadFault.ofError : IO.Error → ReadFault
  | .noFileOrDirectory _ _ _ => .noSuchFile
  | .permissionDenied _ _ _ => .permissionDenied
  | .inappropriateType _ _ _ => .isADirectory
  | error => .other (toString error)

partial def readAll (stream : IO.FS.Stream) (sofar : ByteArray) : IO ByteArray := do
  let chunk ← stream.read 65536
  if chunk.isEmpty then return sofar
  readAll stream (sofar ++ chunk)

def Source.read (source : Source) : IO (Except ReadFault String) := do
  try
    match source with
    | .standardInput => return decode (← readAll (← IO.getStdin) ByteArray.empty)
    | .file path => return decode (← IO.FS.readBinFile path)
  catch error =>
    return .error (ReadFault.ofError error)

end Offside.CommandLine

def main (arguments : List String) : IO UInt32 := do
  let report ← Offside.CommandLine.run arguments Offside.CommandLine.Source.read
  (← IO.getStdout).putStr report.output
  (← IO.getStderr).putStr report.complaint
  return report.status.toUInt32
