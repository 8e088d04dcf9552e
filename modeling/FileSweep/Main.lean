import FileSweep.App

/-! The command line. The files below the current directory are read, the program runs on
them, and what it has written is written back. -/
namespace FileSweep
namespace Main

/-- Reads a directory entry with all that lies below it. -/
partial def readEntry (e : IO.FS.DirEntry) : IO (String × Entry) := do
  if ← e.path.isDir then
    let below ← e.path.readDir
    let children ← below.toList.mapM readEntry
    return (e.fileName, .dir children)
  else
    let bytes ← IO.FS.readBinFile e.path
    return (e.fileName, .file bytes.toList Host.fileMode)

/-- Writes the files of an entry that differ from what was read. -/
partial def writeBack (path : String) (old : Option Entry) (new : Entry) : IO Unit := do
  match new with
  | .dir children =>
    IO.FS.createDirAll path
    for (name, child) in children do
      writeBack (Path.join path name) (old.bind fun e => e.child? name) child
  | .file content _ =>
    let same := match old with
      | some (.file before _) => before == content
      | _ => false
    unless same do
      IO.FS.writeBinFile path ⟨content.toArray⟩
  | _ => return ()

end Main
end FileSweep

open FileSweep in
def main (args : List String) : IO UInt32 := do
  let here ← IO.currentDir
  let cwd := Path.normalize here.toString
  let entries ← (← here.readDir).toList.mapM Main.readEntry
  let home := (← IO.getEnv "HOME").getD "/"
  let environment : Environment := { values := [("HOME", home)], homes := [], home }
  let base := Entry.put (.dir [("bin", Shell.programDir)]) (.dir entries) (Path.components cwd)
  let host : Host := { root := base, cwd, environment }
  let result := App.run args host.configFile false host
  (← IO.getStdout).putStr result.stdout
  (← IO.getStderr).putStr result.stderr
  match result.host.root.at? (Path.components cwd) with
  | some tree => Main.writeBack cwd (some (.dir entries)) tree
  | none => pure ()
  return result.exit.toNat.toUInt32
