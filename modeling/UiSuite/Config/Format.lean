import UiSuite.Config.Basic
import UiSuite.Json.Outline
import UiSuite.Suite.Format

/-! Configurations as JSON, and the outlines of all formats.

A configuration is a record of records, read straight from a text. -/
namespace UiSuite

open Json (Record Field Reader Outline)

def Waits.record : Record Waits where
  name := "WaitConfig"
  blank := .standard
  fields := [
    Field.plain "element_timeout_ms" .natural fun v w => { w with elementTimeout := v },
    Field.plain "wait_action_ms" .natural fun v w => { w with waitAction := v },
    Field.plain "poll_interval_ms" .natural fun v w => { w with pollInterval := v }]

def Polling.record : Record Polling where
  name := "InteractiveConfig"
  blank := .standard
  fields := [
    Field.plain "enabled" .truth fun v p => { p with enabled := v },
    Field.plain "server_url" (.optional .text) fun v p => { p with serverUrl := v },
    Field.plain "exit_command" .text fun v p => { p with exitCommand := v },
    Field.plain "poll_interval_ms" .natural fun v p => { p with pollInterval := v },
    Field.plain "request_timeout_ms" .natural fun v p => { p with requestTimeout := v },
    Field.plain "max_consecutive_errors" (.optional (.naturalWithin (UInt32.size - 1)))
      fun v p => { p with maxErrors := v }]

namespace Config

def record : Record Config where
  name := "RunnerConfig"
  blank := .standard
  fields := [
    Waits.record.asField "waits" fun v c => { c with waits := v },
    Polling.record.asField "interactive" fun v c => { c with polling := v },
    Field.plain "strict_type_names" .truth fun v c => { c with strictTypeNames := v }]

def toJson (c : Config) : Json :=
  .ofFields [
    ("waits", .ofFields [
      ("element_timeout_ms", Json.ofNat c.waits.elementTimeout),
      ("wait_action_ms", Json.ofNat c.waits.waitAction),
      ("poll_interval_ms", Json.ofNat c.waits.pollInterval)]),
    ("interactive", .ofFields [
      ("enabled", .bool c.polling.enabled),
      ("server_url", Json.ofOption c.polling.serverUrl),
      ("exit_command", .string c.polling.exitCommand),
      ("poll_interval_ms", Json.ofNat c.polling.pollInterval),
      ("request_timeout_ms", Json.ofNat c.polling.requestTimeout),
      ("max_consecutive_errors", (c.polling.maxErrors.map Json.ofNat).getD .null)]),
    ("strict_type_names", .bool c.strictTypeNames)]

/-- The names in a configuration. -/
def outline : Outline :=
  record.outline [Waits.record.asPart, Polling.record.asPart]

end Config

/-- The names in a suite; a wait time has none. -/
def Suite.outline : Outline :=
  record.outline [TestCase.record.asPart, Step.record.asPart, ("WaitTime", [])]

end UiSuite
