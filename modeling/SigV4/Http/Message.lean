import SigV4.Http.Header
import SigV4.Http.Uri
import SigV4.Http.Status
import SigV4.Error
/-!
# Requests and responses
-/

namespace SigV4.Http

/-- The head of a request; its body travels beside it. -/
structure Request where
  method : Method := .get
  uri : Uri := .none
  header : Header := {}
deriving DecidableEq

structure Response where
  status : Status
  body : Bytes
deriving DecidableEq, Repr

namespace Response

/-- The body read as text. -/
def text (r : Response) : String := Utf8.decodeLossy r.body

end Response

namespace Request

/-- A request put together from texts; none when one of them cannot be part of a request. -/
def build? (method : Method) (uri : String) (fields : List (FieldName × String)) :
    Option Request := do
  let uri ← Uri.ofText? uri
  let fields ← fields.mapM fun f => (FieldValue.ofBytes? (utf8 f.2)).map (f.1, ·)
  some ⟨method, uri, ⟨fields⟩⟩

/-- The request with its URI gone. -/
def withoutUri (r : Request) : Request := { r with uri := .none }

end Request

end SigV4.Http
