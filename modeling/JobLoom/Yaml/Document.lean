import JobLoom.Yaml.Token.Stream
import JobLoom.Yaml.Reading

/-!
# Documents from bytes

The way from the bytes of a stream to its first document: characters, tokens, events, tree. No stage
fails; each keeps what comes before a fault and hands the fault on.
-/

namespace JobLoom.Yaml

/-- The first document of a stream. -/
def Document.ofBytes (bytes : List UInt8) : Document :=
  let (ts, fault) := Yaml.tokens (Source.ofBytes bytes)
  let (es, fault) := Yaml.events ts fault
  Document.ofEvents es fault

/-- The value of the only document of a stream. -/
def Value.ofBytes (bytes : List UInt8) : Except Flaw Value :=
  readDocument (fun c n => readValue .any c depthLimit [] n) (Document.ofBytes bytes)

end JobLoom.Yaml
