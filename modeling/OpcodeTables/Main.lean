import OpcodeTables.Command.Run

/-!
The command on the files of a machine.
-/

namespace OpcodeTables

--------------------------------------------------------------------------------
-- Files of a machine
--------------------------------------------------------------------------------

/-- The fault that a number of the system stands for. -/
def FileFault.ofCode (code : UInt32) (message : String) : FileFault :=
  match code with
  | 2 => .notFound
  | 16 => .busy
  | 17 => .alreadyExists
  | 20 => .notDirectory
  | 21 => .isDirectory
  | 36 => .nameTooLong
  | _ => .other code.toNat message.toList

/-- The fault behind an error of the system. -/
def FileFault.ofError : IO.Error → FileFault
  | .noFileOrDirectory _ code message => .ofCode code message
  | .alreadyExists _ code message => .ofCode code message
  | .inappropriateType _ code message => .ofCode code message
  | .invalidArgument _ code message => .ofCode code message
  | .resourceBusy code message => .ofCode code message
  | .permissionDenied _ code message => .ofCode code message
  | .resourceExhausted _ code message => .ofCode code message
  | .otherError code message => .ofCode code message
  | error => .other 5 error.toString.toList

/-- Does something with files and keeps the fault if it does not work. -/
def keepFault {α : Type} (action : IO α) : IO (Except FileFault α) := do
  try
    return .ok (← action)
  catch error =>
    return .error (.ofError error)

/-- Tells whether a path leads to a file, by reading from it. -/
def kindOnDisk (path : String) : IO (Except FileFault FileKind) := do
  match ← keepFault (IO.FS.Handle.mk path .read) with
  | .error fault => return .error fault
  | .ok handle =>
    match ← keepFault (handle.read 1) with
    | .error .isDirectory => return .ok .directory
    | _ => return .ok .file

/-- Makes a new file. -/
def createOnDisk (path : String) (content : Bytes) : IO Unit := do
  let handle ← IO.FS.Handle.mk path .writeNew
  handle.write ⟨content.toArray⟩
  handle.flush

instance : Storage IO where
  kind path := kindOnDisk (String.ofList path)
  read path := keepFault do return (← IO.FS.readBinFile (String.ofList path)).toList
  makeDirectory path := keepFault (IO.FS.createDir (String.ofList path))
  create path content := keepFault (createOnDisk (String.ofList path) content)
  move source target := keepFault (IO.FS.rename (String.ofList source) (String.ofList target))
  remove path := do
    let _ ← keepFault (IO.FS.removeFile (String.ofList path))
  reach := return Storage.standardReach

--------------------------------------------------------------------------------
-- The command
--------------------------------------------------------------------------------

/-- The characters of a tag. -/
def tagCharacters : List Char := "abcdefghijklmnopqrstuvwxyz0123456789_".toList

/-- Eight characters by chance. -/
def drawTag : IO Text :=
  (List.range 8).mapM fun _ => do
    let place ← IO.rand 0 (tagCharacters.length - 1)
    return tagCharacters.getD place '_'

/-- The variables of the environment that change settings. -/
def readEnvironment : IO Environment := do
  let values ← Environment.names.filterMapM fun name => do
    return (← IO.getEnv name).map fun value => (name, value.toList)
  return .ofVariables values

end OpcodeTables

open OpcodeTables in
/-- Runs the command and writes what it answers to the two channels. -/
def main (arguments : List String) : IO UInt32 := do
  let environment ← readEnvironment
  let tags : Tags := ⟨← drawTag, ← drawTag⟩
  match ← (Command.run environment tags (arguments.map String.toList)).run with
  | .error error => throw (IO.userError (String.ofList error.message))
  | .ok response =>
    let output := response.output
    (← IO.getStdout).putStr (String.ofList output.out)
    (← IO.getStderr).putStr (String.ofList output.err)
    return output.code.toUInt32
