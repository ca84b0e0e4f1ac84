import ScriptHost.Command.Run
import ScriptHost.Disk
/-!
The command line. It takes a picture of the directories that a task can read, runs the task on the
picture, and writes what the task leaves.
-/

open ScriptHost

/-- The nodes at and below a name of the file system, down to a depth. -/
partial def nodesBelow (depth : Nat) (name : String) : IO (List (String × Node)) := do
  let here ← IO.currentDir
  let place := here / name
  if ← place.isDir then
    if depth = 0 then return [(name, .dir)]
    let entries ← try place.readDir catch _ => pure #[]
    let below ← entries.toList.mapM fun e => nodesBelow (depth - 1) (name ++ "/" ++ e.fileName)
    return (name, .dir) :: below.flatten
  else
    try
      let bytes ← IO.FS.readBinFile place
      return [(name, .file (String.fromUTF8? bytes))]
    catch _ => return []

/-- The directories that a task can read. -/
def rootsOf : Command.Wish → List String
  | .task modulesPath _ (.run dir _) => [".", modulesPath.text, dir.text]
  | .task modulesPath _ (.eval _) => [".", modulesPath.text]
  | _ => []

/-- A picture of directories, seen from the working directory. -/
def pictureOf (roots : List String) : IO Disk := do
  let home := (Disk.stepsOf (← IO.currentDir).toString).filter (!·.isEmpty)
  let mut disk : Disk := { nodes := [], home }
  for root in roots do
    for (name, node) in ← nodesBelow 32 root do
      let names := (Disk.stepsOf name).filter fun s => !s.isEmpty && s ≠ "."
      let front := if name.startsWith "/" then [] else home
      disk := { disk with nodes := (front ++ names, node) :: disk.nodes }
  return disk

/-- Wait until the process is stopped. -/
partial def waitForever : IO Unit := do
  IO.sleep 1000
  waitForever

/-- Run the command. -/
def main (args : List String) : IO UInt32 := do
  let disk ← match Command.Wish.ofArguments? args with
    | some wish => pictureOf (rootsOf wish)
    | none => pure { nodes := [], home := [] }
  match Command.run disk.files args with
  | none =>
    IO.eprintln (Command.helpText none)
    return Command.usageCode.toUInt32
  | some r =>
    IO.print r.output
    IO.eprint r.errors
    if r.waits then waitForever
    return r.code.toUInt32
