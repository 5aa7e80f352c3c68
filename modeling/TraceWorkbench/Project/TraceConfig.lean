import TraceWorkbench.Project

set_option autoImplicit false

/-!
# Trace configuration

The file that tells the instrumented program's logger how to write the two kinds of trace records,
and where. On the host the trace is named by its full path; in the container the program runs in
the directory of the trace.
-/
namespace TraceWorkbench

def Project.traceTarget (p : Project) : ExecutionMode → String
  | .onHost => p.traceFile.text
  | .inContainer => p.traceFileName

def Project.traceConfigText (p : Project) (f : TraceFormatting) (mode : ExecutionMode) : String :=
  let target := p.traceTarget mode
  "[formats]\n" ++
    "variable_values = \"" ++ f.variableValues ++ "\"\n" ++
    "function_calls = \"" ++ f.functionCalls ++ "\"\n" ++
    "[rules]\n" ++
    "variable_values_cat.DEBUG \"" ++ target ++ "\"; variable_values\n" ++
    "function_calls_cat.DEBUG \"" ++ target ++ "\"; function_calls\n"

end TraceWorkbench
