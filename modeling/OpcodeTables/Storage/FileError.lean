import OpcodeTables.Detail
import OpcodeTables.Storage.Staging

/-!
File errors say which operation on which file did not work, and why.
-/

namespace OpcodeTables

/-- Why an operation on a file does not work. -/
inductive FileFault where
  | notFound
  | busy
  | alreadyExists
  | notDirectory
  | isDirectory
  | nameTooLong
  | nullInName
  | outOfReach
  | other (code : Int) (message : Text)
deriving DecidableEq, Repr

/-- An operation on a file that did not work. -/
inductive FileError where
  /-- An operation on a single path. -/
  | failed (fault : FileFault) (path : Text)
  /-- A directory stands where a file has to be put. -/
  | directoryAtTarget (target : Text)
  /-- The staging file could not be made. -/
  | unstaged (fault : FileFault) (staging : Staging)
  /-- The staging file could not be put in place. -/
  | unreplaced (fault : FileFault) (staging : Staging) (target : Text)
deriving DecidableEq, Repr

namespace FileFault

/-- The number by which the system knows the fault. A name with a null character never reaches the
system, and neither does a directory that is out of reach.
-/
def code? : FileFault → Option Int
  | notFound => some 2
  | busy => some 16
  | alreadyExists => some 17
  | notDirectory => some 20
  | isDirectory => some 21
  | nameTooLong => some 36
  | nullInName | outOfReach => none
  | other code _ => some code

def message : FileFault → Text
  | notFound => "No such file or directory".toList
  | busy => "Device or resource busy".toList
  | alreadyExists => "File exists".toList
  | notDirectory => "Not a directory".toList
  | isDirectory => "Is a directory".toList
  | nameTooLong => "File name too long".toList
  | nullInName => "embedded null byte".toList
  | outOfReach => "maximum recursion depth exceeded while calling a Python object".toList
  | other _ message => message

/-- The fault is one of the system, which has a number for it. -/
def ofSystem (fault : FileFault) : Bool :=
  fault.code?.isSome

/-- The fault tells that there is no such file. -/
def meansAbsent : FileFault → Bool
  | notFound | notDirectory | nullInName => true
  | _ => false

end FileFault

namespace FileError

def fault : FileError → FileFault
  | failed fault _ | unstaged fault _ | unreplaced fault _ _ => fault
  | directoryAtTarget _ => .isDirectory

/-- The fault in words. A directory that is in the way is called so. -/
def reason : FileError → Text
  | directoryAtTarget _ => "Output path is a directory".toList
  | error => error.fault.message

/-- The files that the error is about. -/
def subjects : FileError → List Text
  | failed _ path => [path]
  | directoryAtTarget target => [target]
  | unstaged _ staging => [staging.path]
  | unreplaced _ staging target => [staging.path, target]

def message (error : FileError) : Text :=
  match error.fault.code? with
  | none => error.reason
  | some code => systemMessage (.number code) (.text error.reason) (error.subjects.map .text)

/-- The error as it reads with another tag in the name of the staging file. Tags differ from run
to run, so the messages of two runs can be compared only with the same tag in both.
-/
def withTag (tag : Text) : FileError → FileError
  | unstaged fault staging => unstaged fault { staging with tag }
  | unreplaced fault staging target => unreplaced fault { staging with tag } target
  | error => error

end FileError

end OpcodeTables
