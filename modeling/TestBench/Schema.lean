import TestBench.Json.Printer
/-
  The schema of suite files.

  A suite has a name and cases; a case has a name, steps and perhaps a mark that skips it; a step is
  any mapping.
-/
namespace TestBench.Schema

def textType : Json := .object [("type", .text "string")]

def reference (name : String) : Json := .object [("$ref", .text ("#/definitions/" ++ name))]

/-- A list of values of a definition, empty if it is left out. -/
def listOf (name : String) : Json :=
  .object [("default", .array []), ("type", .text "array"), ("items", reference name)]

def skipMark : Json :=
  .object [("description", .text "1 when the case carries a skip marker"), ("default", .nat 0),
    ("type", .text "boolean")]

/-- The parts of an object with a name that has to be there. -/
def named (description : String) (properties : List (String × Json)) : List (String × Json) :=
  [("description", .text description), ("type", .text "object"), ("required", .array [.text "name"]),
    ("properties", .object (("name", textType) :: properties))]

def testCase : Json :=
  .object (named "Named, ordered sequence of steps" [("skip", skipMark), ("steps", listOf "TestStep")])

def testStep : Json := .object [("type", .text "object"), ("additionalProperties", .bool true)]

/-- The schema, with its fields in the order in which it is printed. -/
def document : Json :=
  .object ([("$schema", .text "http://json-schema.org/draft-07/schema#"), ("title", .text "TestSuite")]
    ++ named "Named collection of test cases loaded from one file" [("testcases", listOf "TestCase")]
    ++ [("definitions", .object [("TestCase", testCase), ("TestStep", testStep)])])

end TestBench.Schema
