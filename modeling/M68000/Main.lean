import M68000.Session

/-!
# The command

Runs an image file: `m68000 [OPTIONS] IMAGE`.
-/

open M68000

def readFile (path : String) : IO (Except String ByteArray) := do
  try
    return .ok (← IO.FS.readBinFile path)
  catch error =>
    return .error (toString error)

def main (arguments : List String) : IO UInt32 := do
  let report ← Session.session readFile arguments
  if let some text := report.output then
    IO.println text
  if let some text := report.diagnostics then
    IO.eprintln text
  return report.exitCode.toUInt32
