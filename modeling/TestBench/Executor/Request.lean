import TestBench.Executor.Machine
import TestBench.Url.Basic
/-
  The executor that sends requests, up to the point where a request would leave the machine.

  1. A request has either a body or a form.  Its method, in upper case, is made of the characters that
     names of the protocol may hold; an empty one stands for the usual method.
  2. The address and the values of headers may refer to aliases.  An address without a host, or of a
     scheme that takes no requests, is refused by name; one that is no address at all, or a header that
     cannot be sent, is refused without a name.
  3. Nothing is there to answer, so a request that could be sent fails.
-/
namespace TestBench

/-- The parameters of a step that sends a request. -/
structure Request where
  method : String
  url : String
  path : String
  body : String
  /-- The fields of a form; values with an at sign in front name files. -/
  form? : Option (List (String × String))
  headers : List (String × String)
  trustsAnyone : Bool
  deriving Repr, DecidableEq, Inhabited

namespace Request

def name : String := "http"

def fields : List (Field Yaml Request) :=
  [{ name := "method", read := fun v r => v.asText.map fun method => { r with method } },
   { name := "url", read := fun v r => v.asText.map fun url => { r with url } },
   { name := "path", read := fun v r => v.asText.map fun path => { r with path } },
   { name := "body", read := fun v r => v.asText.map fun body => { r with body } },
   { name := "multipart_form"
     read := fun v r => match v with
       | .null => .ok { r with form? := none }
       | v => v.asTexts.map fun form => { r with form? := some form } },
   { name := "headers", read := fun v r => v.asTexts.map fun headers => { r with headers } },
   { name := "ignore_verify_ssl"
     read := fun v r => v.asTruth.map fun trustsAnyone => { r with trustsAnyone } }]

def decode (step : Step) : Except Refusal Request :=
  step.parameters fields ⟨"", "", "", "", none, [], false⟩

/-! ## Names of the protocol -/

/-- The characters that methods and names of headers are made of. -/
def isNameChar (c : Char) : Bool := c.isAlphanum || "!#$%&'*+-.^_\x60|~".toList.contains c

/-- Other characters whose upper case is made of ASCII letters: the dotless i, the long s, the sharp s
    and the joined letters. -/
def hasPlainUpper (c : Char) : Bool :=
  c.toNat = 0x131 || c.toNat = 0x17F || c.toNat = 0xDF || (0xFB00 ≤ c.toNat && c.toNat ≤ 0xFB06)

def isMethod (method : String) : Bool := method.toList.all fun c => isNameChar c || hasPlainUpper c

def isHeaderName (name : String) : Bool := !name.isEmpty && name.toList.all isNameChar

def isHeaderValue (value : String) : Bool :=
  value.toList.all fun c => c = '\t' || (0x20 ≤ c.toNat && c.toNat ≠ 0x7F)

/-! ## Building -/

/-- Why a request cannot be built, with the address if it is one. -/
def builderError (url? : Option Url) : ExecutorError :=
  match url? with
  | some url => .http s!"builder error for url ({url.text})"
  | none => .http "builder error"

/-- The address that a request is sent to. -/
def build (r : Request) (call : Call) : Except ExecutorError Url :=
  if !r.body.isEmpty && r.form?.isSome then
    .error (.invocation "Cannot use both 'body' and 'multipart_form'")
  else if !isMethod r.method then .error (.invocation s!"Invalid HTTP method: {r.method}")
  else match Url.ofText? (call.aliases.expand (r.url ++ r.path)) with
    | none => .error (builderError none)
    | some url =>
      let sendable := r.headers.all fun (name, value) =>
        isHeaderName name && isHeaderValue (call.aliases.expand value)
      if !url.hasHost then .error (builderError url)
      else if !sendable then .error (builderError none)
      else if !url.takesRequests then .error (builderError url)
      else .ok url

/-- How a request ends on a machine without a network: no answer ever comes, so what could be sent fails
    for that. -/
def outcome (r : Request) (call : Call) : Outcome :=
  match r.build call with
  | .error e => .error e
  | .ok url => .error (.http s!"error sending request for url ({url.text})")

def executor {ω : Type} (r : Request) : Executor ω where
  defaults := some ["result.statusCode ShouldEqual 200"]
  start := fun call world => (.prompt (r.outcome call), world)

end Request
end TestBench
