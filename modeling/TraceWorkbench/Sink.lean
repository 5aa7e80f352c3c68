import TraceWorkbench.Event

set_option autoImplicit false

/-!
# Event sinks

Where events go: nowhere, into a list, into the log, or to several sinks in turn.
-/
namespace TraceWorkbench

inductive LogLevel where
  | error
  | warn
  | info
  | debug
  | trace
  deriving DecidableEq, Repr, Inhabited

def LogLevel.text : LogLevel → String
  | error => "ERROR"
  | warn => "WARN"
  | info => "INFO"
  | debug => "DEBUG"
  | trace => "TRACE"

structure LogRecord where
  level : LogLevel
  message : String
  eventType : String
  eventData : String
  deriving DecidableEq, Repr, Inhabited

/-- Events are logged at the debug level where it is asked for, and at the info level otherwise. -/
def LogRecord.ofEvent (asked : LogLevel) (e : Event) : LogRecord where
  level := if asked = .debug then .debug else .info
  message := "Event: " ++ e.name
  eventType := e.name
  eventData := e.toJson.text

inductive Sink where
  | silent
  | collecting (events : List Event)
  | logging (level : LogLevel) (records : List LogRecord)
  | fanout (sinks : List Sink)
  deriving Repr, Inhabited

namespace Sink

def emit (e : Event) : Sink → Sink
  | silent => silent
  | collecting events => collecting (events ++ [e])
  | logging level records => logging level (records ++ [.ofEvent level e])
  | fanout sinks => fanout (sinks.map (emit e))

def events : Sink → List Event
  | collecting events => events
  | _ => []

def records : Sink → List LogRecord
  | logging _ records => records
  | _ => []

def clear : Sink → Sink
  | collecting _ => collecting []
  | s => s

def ofType (name : String) (s : Sink) : List Event := s.events.filter fun e => e.name == name

def console (s : Sink) : String := String.join (s.events.filterMap Event.consoleText?)

end Sink

end TraceWorkbench
