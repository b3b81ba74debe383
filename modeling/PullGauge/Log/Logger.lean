import PullGauge.Fault
import PullGauge.Log.Format
import PullGauge.Log.Redaction
import PullGauge.Number.Basic

/-!
# Loggers and handlers

All loggers are named under one package logger. A logger without a level of its own has
that of its nearest ancestor; every handler of the package then writes what a logger
lets through. Requests and replies are described in one line each with their credentials
masked.
-/

namespace PullGauge

structure LogLine where
  logger : Text
  level : Int
  message : Text
  deriving DecidableEq

namespace Log

def unset : Int := 0
def debug : Int := 10
def info : Int := 20
def warning : Int := 30
def error : Int := 40
def critical : Int := 50

def levelName (level : Int) : Text :=
  if level = debug then "DEBUG"
  else if level = info then "INFO"
  else if level = warning then "WARNING"
  else if level = error then "ERROR"
  else if level = critical then "CRITICAL"
  else if level = unset then "NOTSET"
  else "Level ".toList ++ Text.ofInt level

def package : Text := "prmetrics"

def loggerName : Option Text → Text
  | none => package
  | some suffix => package ++ '.' :: suffix

def httpLogger : Text := loggerName (some "http".toList)

def isUnder (ancestor name : Text) : Bool :=
  decide (name = ancestor) || (ancestor ++ ['.']).isPrefixOf name

def values (line : LogLine) : List (Text × LineFormat.Value) :=
  [("name", .text line.logger), ("levelname", .text (levelName line.level)),
   ("levelno", .number line.level), ("message", .text line.message), ("msg", .text line.message),
   ("args", .mark "()"), ("exc_info", .mark "None"), ("exc_text", .mark "None"),
   ("stack_info", .mark "None"), ("threadName", .text "MainThread"),
   ("processName", .text "MainProcess")]

def writeLine (format : Text) (line : LogLine) : Text :=
  match LineFormat.write? format (values line) with
  | some t => t ++ ['\n']
  | none => []

def bareFormat : Text := "%(message)s"

def readFormat (format : Text) : Outcome Text :=
  let format := if format.isEmpty then bareFormat else format
  if LineFormat.hasField format then .ok format else .error .unreadable

def namedLevels : List (Text × Int) :=
  [("CRITICAL", critical), ("FATAL", critical), ("ERROR", error), ("WARN", warning),
   ("WARNING", warning), ("INFO", info), ("DEBUG", debug), ("NOTSET", unset)]

def readLevel : Payload → Outcome Int
  | .int n => .ok n
  | .bool b => .ok (if b then 1 else 0)
  | .text t => match namedLevels.lookup t with
    | some n => .ok n
    | none => .error .unreadable
  | _ => .error .mismatch

def readLineLevel (p : Payload) : Outcome Int :=
  match p with
  | .text _ => .error .mismatch
  | p => readLevel p

def readDuration : Payload → Outcome Float
  | .text _ => .error .unreadable
  | p => match Number.ofPayload? p with
    | some n => n.toScalar
    | none => .error .mismatch

end Log

open Log

/-- The levels of the package logger and of the request logger under it, zero where none
is set, and the formats of the handlers. -/
structure Loggers where
  level : Int := 0
  httpLevel : Int := 0
  handlers : List Text := []

namespace Loggers

def configure (l : Loggers) (level : Int) (httpLevel : Option Int) (format : Text) : Loggers :=
  ⟨level, httpLevel.getD level, l.handlers ++ [format]⟩

def effective (l : Loggers) (name : Text) : Int :=
  if isUnder httpLogger name && l.httpLevel != 0 then l.httpLevel
  else if l.level ≠ 0 then l.level
  else warning

def lets (l : Loggers) (name : Text) (level : Int) : Bool :=
  decide (unset < level) && decide (l.effective name ≤ level)

def write (l : Loggers) (line : LogLine) : List Text :=
  l.handlers.map fun format => if l.lets line.logger line.level then writeLine format line else []

end Loggers

namespace Log

def describeFields (label : Text) (fields : Fields) : List Text :=
  if fields.isEmpty then []
  else [label ++ '=' :: (Payload.object (redact Redaction.sensitiveWords fields)).shown]

def requestMessage (method url : Text) (headers params : Fields) : Text :=
  List.intercalate [' ', '|', ' ']
    ((method ++ ' ' :: mask url) :: describeFields "headers" headers ++
      describeFields "params" params)

def replyMessage (status : Text) (url : Text) (elapsed : Option Float) (remaining : Option Text) :
    Text :=
  List.intercalate [' ', '|', ' ']
    (("Response ".toList ++ status ++ " from ".toList ++ mask url) ::
      (elapsed.map fun ms => "elapsed=".toList ++ writeFixed 2 ms ++ "ms".toList).toList ++
      (remaining.map fun n => "rate_limit_remaining=".toList ++ n).toList)

end Log

end PullGauge
