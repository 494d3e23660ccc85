import Rescan.Settings.Report
import Rescan.Source.Bytes

/-!
# The command

Reads a settings document from standard input and prints its report.
-/

namespace Rescan

/-- All bytes of a stream. -/
partial def readAll (stream : IO.FS.Stream) (sofar : ByteArray) : IO ByteArray := do
  let chunk ← stream.read 65536
  if chunk.isEmpty then return sofar else readAll stream (sofar ++ chunk)

end Rescan

/-- Prints the report on standard input and answers its exit code. -/
def main : IO UInt32 := do
  let bytes ← Rescan.readAll (← IO.getStdin) .empty
  let report := (Rescan.Settings.read (Rescan.ByteSource.ofBytes bytes.toList)).report
  (← IO.getStderr).putStr report.err
  (← IO.getStdout).putStr report.out
  return report.exit
