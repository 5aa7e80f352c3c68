set_option autoImplicit false

/-!
# Refusals of the operating system

The reasons for which an operation on files or programs is refused, with the texts that users see.
-/
namespace TraceWorkbench

inductive OsError where
  | noEntry
  | badProgram
  | noChild
  | denied
  | alreadyExists
  | notDirectory
  | isDirectory
  | nameTooLong
  | notEmpty
  | tooManyLinks
  | notText
  | nulInPath
  | nulInArgument
  deriving DecidableEq, Repr, Inhabited

namespace OsError

/-- The number under which the system knows the error, if it is one of the system's own. -/
def code? : OsError → Option Nat
  | noEntry => some 2
  | badProgram => some 8
  | noChild => some 10
  | denied => some 13
  | alreadyExists => some 17
  | notDirectory => some 20
  | isDirectory => some 21
  | nameTooLong => some 36
  | notEmpty => some 39
  | tooManyLinks => some 40
  | notText | nulInPath | nulInArgument => none

def meaning : OsError → String
  | noEntry => "No such file or directory"
  | badProgram => "Exec format error"
  | noChild => "No child processes"
  | denied => "Permission denied"
  | alreadyExists => "File exists"
  | notDirectory => "Not a directory"
  | isDirectory => "Is a directory"
  | nameTooLong => "File name too long"
  | notEmpty => "Directory not empty"
  | tooManyLinks => "Too many levels of symbolic links"
  | notText => "stream did not contain valid UTF-8"
  | nulInPath => "file name contained an unexpected NUL byte"
  | nulInArgument => "nul byte found in provided data"

def text (e : OsError) : String :=
  match e.code? with
  | some n => e.meaning ++ " (os error " ++ toString n ++ ")"
  | none => e.meaning

end OsError

end TraceWorkbench
