import NoticeLedger.Command.Answer

/-!
# The program

The files that a command line names are read once, and the answer to it is printed.
-/

namespace NoticeLedger

/-- Put what is on the disk at a path, and in it if it is a directory, into a tree. -/
def snapshot (files : FileTree) (word : String) : IO FileTree := do
  let here ← IO.currentDir
  let place := (Path.ofString word).resolved files.workingDirectory
  let onDisk := here / word
  if ← onDisk.isDir then
    let mut files := files.put place .directory
    for entry in ← onDisk.readDir do
      if ← entry.path.isDir then
        files := files.put (place ++ [entry.fileName]) .directory
      else
        try
          let content ← IO.FS.readBinFile entry.path
          files := files.put (place ++ [entry.fileName]) (.file content.data.toList)
        catch _ => pure ()
    return files
  else
    try
      let content ← IO.FS.readBinFile onDisk
      return files.put place (.file content.data.toList)
    catch _ => return files

/-- The tree with everything that a path passes through. -/
def snapshotAlong (files : FileTree) (word : String) : IO FileTree := do
  let p := Path.ofString word
  let steps := (List.range (p.parts.length + 1)).map fun n => ({ p with parts := p.parts.take n } : Path)
  steps.foldlM (fun files step => snapshot files step.text) files

end NoticeLedger

open NoticeLedger in
/-- Answer a command line. -/
def main (arguments : List String) : IO UInt32 := do
  let files ← arguments.foldlM snapshotAlong {}
  let answer := answerArguments files arguments
  IO.eprint answer.messageText
  match answer.ending with
  | .misuse         =>
    IO.eprintln "usage: compare BASELINE CANDIDATE | acceptance BASELINE CANDIDATE | summary REPORT"
  | .integerTooLong => IO.eprintln "a report holds an integer with too many digits"
  | .unnameable     => IO.eprintln "no report can have this name"
  | .pathTooLong    => IO.eprintln "the path to a report is too long"
  | _               => pure ()
  IO.print answer.outputText
  return answer.ending.exitCode.toUInt32
