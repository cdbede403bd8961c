import UiSuite.Config.Format

/-! Loading and checking configurations.

A configuration must poll at some distance and have an exit command; what it lacks is
reported part by part. A message says where the text came from. -/
namespace UiSuite

/-- What is wrong with a part of a configuration. -/
inductive Complaint where
  | belowOne
  | tooShort
deriving DecidableEq

def Complaint.message : Complaint → String
  | belowOne => "The number must be `>= 1`."
  | tooShort => "The length of the value must be `>= 1`."

/-- Complaints about the two groups of a configuration, each under a label of its own. -/
structure Complaints where
  waits : List (String × Complaint)
  polling : List (String × Complaint)
deriving DecidableEq

namespace Complaints

def isEmpty (cs : Complaints) : Bool :=
  cs.waits.isEmpty && cs.polling.isEmpty

/-- A report with errors of its own, which there are none of, and those of its parts. -/
def report (parts : List (String × Json)) : Json :=
  .ofFields [("errors", .array []), ("properties", .ofFields parts)]

def group (name : String) (cs : List (String × Complaint)) : List (String × Json) :=
  if cs.isEmpty then []
  else [(name, report (cs.map fun (label, c) =>
    (label, .ofFields [("errors", .array [.string c.message])])))]

def toJson (cs : Complaints) : Json :=
  report (group "waits" cs.waits ++ group "interactive" cs.polling)

end Complaints

namespace Config

/-- What is wrong with a configuration. -/
def complaints (c : Config) : Complaints where
  waits :=
    if c.waits.pollInterval = 0 then [("default_wait_poll_ms", .belowOne)] else []
  polling :=
    (if c.polling.exitCommand = "" then [("default_exit_command", .tooShort)] else []) ++
    (if c.polling.pollInterval = 0 then [("default_interactive_poll_ms", .belowOne)] else []) ++
    (if c.polling.requestTimeout = 0 then [("default_request_timeout_ms", .belowOne)] else [])

/-- Why a configuration cannot be used. -/
inductive Error where
  | unreadable (context : String)
  | invalid (complaints : Complaints)
deriving DecidableEq

/-- A configuration that was read, if it can be used; `context` says what was tried. -/
def checked (context : String) : Except Json.Fault Config → Except Error Config
  | .error _ => .error (.unreadable context)
  | .ok c => if c.complaints.isEmpty then .ok c else .error (.invalid c.complaints)

/-- A configuration from a text given directly. -/
def ofText (text : String) : Except Error Config :=
  checked "Failed to parse JSON config string into RunnerConfig" (record.readText text)

/-- A configuration from a stream. -/
def ofStream (bytes : List UInt8) : Except Error Config :=
  checked "Failed to parse JSON config from reader" (record.readOctets bytes)

/-- A configuration from the content of a file, if there is one, read as a stream. -/
def ofFile (content : Option (List UInt8)) (path : String) : Except Error Config :=
  match content with
  | some bytes => ofStream bytes
  | none => .error (.unreadable ("Failed to open config file " ++ path))

/-- A configuration from the content of a file, if there is one, read at once. -/
def ofWholeFile (content : Option (List UInt8)) (path : String) : Except Error Config :=
  match content with
  | some bytes => checked ("Failed to parse JSON config from " ++ path) (record.readOctets bytes)
  | none => .error (.unreadable ("Failed to read config file " ++ path))

end Config
end UiSuite
