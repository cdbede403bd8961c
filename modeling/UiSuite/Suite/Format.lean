import UiSuite.Suite.Basic
import UiSuite.Json.Record

/-! Suites as JSON.

Steps, cases and suites are records. A suite is written with what it has: absent parts
are left out, and a wait time is written as it was given. -/
namespace UiSuite

open Json (Record Field Reader)

namespace Step

def record : Record Step where
  name := "Step"
  blank := blank
  fields := [
    Field.plain "action" .text fun v s => { s with action := v },
    Field.plain "selector" (.optional .text) fun v s => { s with selector := v },
    Field.plain "alias" (.optional .text) fun v s => { s with aliasName := v },
    Field.deep "value" .scalar fun v s => { s with value := v },
    Field.deep "expected" .scalar fun v s => { s with expected := v },
    Field.deep "waitTime" (.optional fun j => .ok (.ofJson j)) fun v s => { s with waitTime := v }]

def toJson (s : Step) : Json :=
  .ofFields ([("action", .string s.action)] ++
    Json.presentField "selector" (s.selector.map .string) ++
    Json.presentField "alias" (s.aliasName.map .string) ++
    Json.presentField "value" (s.value.map .string) ++
    Json.presentField "expected" (s.expected.map .string) ++
    Json.presentField "waitTime" (s.waitTime.map WaitTime.toJson))

end Step

namespace TestCase

def record : Record TestCase where
  name := "TestCase"
  blank := blank
  fields := [
    Field.plain "description" .text fun v c => { c with description := v },
    Field.plain "sourceFile" (.optional .text) fun v c => { c with sourceFile := v },
    Field.deep "steps" (.list Step.record.read) fun v c => { c with steps := v }]

def toJson (c : TestCase) : Json :=
  .ofFields ([("description", .string c.description)] ++
    Json.presentField "sourceFile" (c.sourceFile.map .string) ++
    [("steps", .array (c.steps.map Step.toJson))])

end TestCase

namespace Suite

def record : Record Suite where
  name := "TestSuite"
  blank := blank
  fields := [
    Field.plain "name" .text fun v s => { s with name := v },
    Field.plain "source" (.optional .text) fun v s => { s with source := v },
    Field.deep "testCases" (.list TestCase.record.read) fun v s => { s with cases := v }]

def toJson (s : Suite) : Json :=
  .ofFields ([("name", .string s.name)] ++
    Json.presentField "source" (s.source.map .string) ++
    [("testCases", .array (s.cases.map TestCase.toJson))])

end Suite
end UiSuite
