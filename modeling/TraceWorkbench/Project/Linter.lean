import TraceWorkbench.Project

set_option autoImplicit false

/-!
# Linter configuration

What a project tells the editor's linter about the compiler.
-/
namespace TraceWorkbench

structure LinterConfig where
  execPath : Path
  cFlags : String := "-Wall -c -fsyntax-only"
  includePaths : String := ".,./include,./path"
  suppressWarnings : Bool := false
  deriving DecidableEq, Repr, Inhabited

namespace LinterConfig

def fileName : String := ".gcc-flags.json"

def fields : List (Json.Field LinterConfig) := [
  .of "execPath" true Path.decoder fun v c => { c with execPath := v },
  .of "gccDefaultCFlags" true Json.string fun v c => { c with cFlags := v },
  .of "gccIncludePaths" true Json.string fun v c => { c with includePaths := v },
  .of "gccSuppressWarnings" true Json.boolean fun v c => { c with suppressWarnings := v }]

def decoder : Json.Decoder LinterConfig := Json.record "LinterConfig" default fields

def members (c : LinterConfig) : List (String × Json.Value) := [
  ("execPath", c.execPath.toJson), ("gccDefaultCFlags", .string c.cFlags),
  ("gccIncludePaths", .string c.includePaths), ("gccSuppressWarnings", .bool c.suppressWarnings)]

def toJson (c : LinterConfig) : Json.Value := .ofMembers c.members

def fileText (c : LinterConfig) : String := (Json.Value.object c.members).indentedText

end LinterConfig

end TraceWorkbench
