import ModelAssist.Data.Json.Writer
import ModelAssist.Log.Level

/-!
# Log records

An event with some fields, and the lines that tell of it.  The fields that every record has come
after its own ones: its event, its level, the time, and the request that was being answered.
-/

namespace ModelAssist

/-- An event that is logged. -/
structure LogRecord where
  /-- How much it matters. -/
  level : LogLevel
  event : String
  /-- The part of the program that tells of it. -/
  logger : Option String
  fields : Entries
  /-- The request that was being answered. -/
  requestId : Option String
deriving Inhabited

namespace LogRecord

/-- The key of the moment of a record. -/
def timeKey : String := "timestamp"

/-- All fields of a record that was made at a time. -/
def entries (record : LogRecord) (time : String) : Entries :=
  let bound : List (Key × Value) :=
    record.logger.toList.map fun name => (.text "logger", .text name)
  let common : List (Key × Value) :=
    [(.text "event", .text record.event), (.text "level", .text record.level.label),
      (.text timeKey, .text time)]
  let request : List (Key × Value) :=
    record.requestId.toList.map fun request => (.text "request_id", .text request)
  Entries.ofPairs (bound ++ record.fields ++ common ++ request)

/-- A record as one JSON object. -/
def jsonLine (record : LogRecord) (time : String) : String :=
  Json.write (.record (record.entries time))

/-- A record as the spelling of its fields. -/
def plainLine (record : LogRecord) (time : String) : String :=
  (Value.record (record.entries time)).spelling

/-- Holds of the characters for which a text is quoted in a line for people. -/
def needsQuotes (char : Char) : Bool :=
  [' ', '\t', '=', '\r', '\n', '"', '\''].contains char

/-- A value in a line for people. -/
def shown : Value → String
  | .text text => if text.toList.any needsQuotes then Text.quoted text else text
  | value => value.spelling

/-- The keys that have a place of their own in a line for people, in the order of these places, and
how their values are written there. -/
def columns : List (String × (String → String)) :=
  [(timeKey, id), ("level", fun level => "[" ++ level ++ "]"), ("event", id),
    ("logger", fun name => "[" ++ name ++ "]"), ("logger_name", fun name => "[" ++ name ++ "]")]

/-- A line without the spaces at its end. -/
def withoutTrailingSpaces (line : String) : String :=
  String.ofList ((line.toList.reverse.dropWhile (· = ' ')).reverse)

/-- A record as a line for people: the columns, and then the other fields in ascending order. -/
def consoleLine (record : LogRecord) (time : String) : String :=
  let entries := record.entries time
  let inColumns := columns.filterMap fun (key, write) =>
    (entries.field? key).map fun value => write value.display
  let others := (entries.filter fun (key, _) => !columns.any (·.1 = key.display)).mergeSort
    fun left right => !decide (right.1.display < left.1.display)
  let fields := others.map fun (key, value) => key.display ++ "=" ++ shown value
  withoutTrailingSpaces (String.intercalate " " ((inColumns ++ fields).filter (· ≠ "")))

end LogRecord

end ModelAssist
