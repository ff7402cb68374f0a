import TableGate.Error
import TableGate.Http.MediaType
import TableGate.Json.Printer
import TableGate.Query
import TableGate.Tenant
import TableGate.Text.Cut
import TableGate.Text.Numeral
import TableGate.Text.Utf8

/-!
# Requests and responses

A request as it arrives, what its parts say once they are decoded, and the responses with the
envelope `data` and `error` that every answer of a table has.  The target of a request is a path
with an optional query string, or a whole URI, of which scheme and authority do not matter here.  A
fragment is never part of what is asked for.
-/

namespace TableGate.Http

structure Request where
  method : String
  /-- What is asked for: a path with a query string, or a whole URI. -/
  target : String
  headers : List (String × String) := []
  body : String := ""
deriving Repr

/-- A response: its status and the text of its body. -/
structure Response where
  status : Nat
  body : String := ""
deriving Repr

/-! ### Targets -/

/-- What a request asks for: a path and a query string, both as they are spelled. -/
structure Target where
  path : List Char
  query : List Char
deriving DecidableEq, Repr

namespace Target

/-- A character that the scheme of a URI may have. -/
def isSchemeChar (c : Char) : Bool := c.isAlphanum || c == '+' || c == '-' || c == '.' || c == '~'

/-- What follows the scheme of a whole URI and the two slashes after it. -/
def afterScheme? (text : List Char) : Option (List Char) :=
  match Text.cutAt ':' text with
  | some (scheme, '/' :: '/' :: rest) => if scheme.all isSchemeChar then some rest else none
  | _ => none

/-- The text without scheme and authority, if it has them. -/
def withoutOrigin (text : List Char) : List Char :=
  match afterScheme? text with
  | some rest => rest.dropWhile fun c => c != '/' && c != '?'
  | none => text

/-- The text before the first `mark`, or all of it where there is none. -/
def before (mark : Char) (text : List Char) : List Char :=
  ((Text.cutAt mark text).map (·.1)).getD text

/-- The target that a text spells. -/
def ofString (text : String) : Target :=
  let resource := withoutOrigin (before '#' text.toList)
  ⟨before '?' resource, ((Text.cutAt '?' resource).map (·.2)).getD []⟩

end Target

/-! ### Decoding -/

/-- Bytes with each percent sign and two hexadecimal digits made the byte that they stand for. -/
def percentDecode : List UInt8 → List UInt8
  | percent :: high :: low :: rest =>
      if percent = 37 then
        match Text.hexValue? (Char.ofNat high.toNat), Text.hexValue? (Char.ofNat low.toNat) with
        | some first, some second =>
            UInt8.ofNat (first.val * 16 + second.val) :: percentDecode rest
        | _, _ => percent :: percentDecode (high :: low :: rest)
      else percent :: percentDecode (high :: low :: rest)
  | byte :: rest => byte :: percentDecode rest
  | [] => []

/-- A name or a value of a query string: a plus sign is a space, and bytes that are no text are
replaced. -/
def formText (text : List Char) : String :=
  let spaced := text.map fun c => if c = '+' then ' ' else c
  Text.Utf8.decodeLenient (percentDecode (Text.Utf8.encode (String.ofList spaced)))

/-- The parameters of a query string; empty pieces are none. -/
def formPairs (query : List Char) : List (String × String) :=
  ((query.splitOn '&').filter fun piece => !piece.isEmpty).map fun piece =>
    let (name, value) := (Text.cutAt '=' piece).getD (piece, [])
    (formText name, formText value)

namespace Request

/-- The path of the target, as it is spelled. -/
def path (request : Request) : List Char := (Target.ofString request.target).path

def query (request : Request) : Query := ⟨formPairs (Target.ofString request.target).query⟩

/-- The first header of a name, which is given in lower case. -/
def header? (request : Request) (name : String) : Option String :=
  (request.headers.find? fun header => header.1.toLower == name).map (·.2)

/-- Whether a header value is readable: visible ASCII characters, spaces and tabs. -/
def isReadable (value : String) : Bool :=
  value.toList.all fun c => c == '\t' || (decide (0x20 ≤ c.toNat) && decide (c.toNat ≤ 0x7E))

/-- The first header of a name, if its value is readable. -/
def readableHeader? (request : Request) (name : String) : Option String :=
  (request.header? name).filter isReadable

/-- The tenant that the request names, if its header is readable and not blank. -/
def tenant (request : Request) : TenantContext :=
  let name := (request.readableHeader? "x-tenant-id").map fun value =>
    String.ofList (Text.trim value.toList)
  match name.filter fun tenant => !tenant.isEmpty with
  | some tenant => .forTenant tenant
  | none => .none

def announcedLength? (request : Request) : Option Nat :=
  (request.readableHeader? "content-length").bind fun value => Text.word? value.toList

/-- How many bytes a body may have. -/
def maxBodyBytes : Nat := 1024 * 1024

def announcesTooMuch (request : Request) : Bool :=
  match request.announcedLength? with
  | some length => decide (maxBodyBytes < length)
  | none => false

/-- The status that refuses a body whose text has no value. -/
def faultStatus : Json.Fault → Nat
  | .malformed => 400
  | .unfit => 422

/-- The JSON value that the body starts with, or the status of the refusal: for a media type other
than JSON, for a body longer than allowed or announced, and for a text that has no value. -/
def jsonBody (request : Request) : Except Nat Json :=
  let longest := min maxBodyBytes (request.announcedLength?.getD maxBodyBytes)
  if (request.readableHeader? "content-type").any MediaType.isJson = false then .error 415
  else if longest < request.body.utf8ByteSize then .error 413
  else (Json.readFirst request.body).mapError faultStatus

end Request

/-! ### Envelopes -/

/-- The body of every answer of a table: data, or an error. -/
structure Envelope where
  data : Json
  error : Json := .null
deriving Repr

namespace Envelope

/-- Rows as a list, or where one row is wanted the first of them, null if there is none. -/
def ofRows (rows : List Json) (single : Bool) : Envelope :=
  if single then { data := rows.head?.getD .null } else { data := .array rows }

def ofError (error : Error) : Envelope :=
  { data := .null,
    error := .ofMembers [("code", .string error.code), ("message", .string error.message)] }

def value (envelope : Envelope) : Json :=
  .ofMembers [("data", envelope.data), ("error", envelope.error)]

/-- The response with the envelope as its body. -/
def respond (envelope : Envelope) (status : Nat) : Response := ⟨status, envelope.value.text⟩

end Envelope

def Response.ofError (error : Error) : Response := (Envelope.ofError error).respond error.status

def Response.withoutBody (response : Response) : Response := { response with body := "" }

end TableGate.Http
