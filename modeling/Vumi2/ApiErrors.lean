import Vumi2.Runtime

/-!
# API errors

The classes of `errors.py` that the applications raise. A `PyExc.apiError` carries the name of its
class; what a response says of the error are the attributes of the class.
-/

namespace Vumi2

open Text

/-- `HTTPStatus`. -/
inductive HttpStatus where
  | created
  | bad_request
  | unauthorized
  | internal_server_error
deriving DecidableEq, Repr

/-- The number of the status. -/
def HttpStatus.value : HttpStatus → ℕ
  | created => 201
  | bad_request => 400
  | unauthorized => 401
  | internal_server_error => 500

/-- The reason phrase of the status. -/
def HttpStatus.phrase : HttpStatus → Str
  | created => str "Created"
  | bad_request => str "Bad Request"
  | unauthorized => str "Unauthorized"
  | internal_server_error => str "Internal Server Error"

/-- What a response says of an error of a class. -/
structure ApiErrorClass where
  name : Str
  description : Str
  status : HttpStatus

namespace ApiErrorClass

/-- `ApiError`. -/
def base : ApiErrorClass := ⟨str "ApiError", str "Generic Error", .internal_server_error⟩

/-- `ApiUsageError`. -/
def usage : ApiErrorClass := ⟨str "ApiUsageError", str "api usage error", .bad_request⟩

/-- `JsonDecodeError`. -/
def jsonDecode : ApiErrorClass :=
  { usage with name := str "JsonDecodeError", description := str "json decode error" }

/-- `MessageNotFound`. -/
def messageNotFound : ApiErrorClass :=
  { usage with name := str "MessageNotFound", description := str "message not found" }

/-- `InvalidBody`, whose name is not that of the class. -/
def invalidBody : ApiErrorClass := { usage with name := str "invalid_body" }

/-- `TimeoutError`. -/
def timeoutError : ApiErrorClass :=
  { usage with name := str "TimeoutError", description := str "timeout" }

/-- `SignatureMismatchError`. -/
def signatureMismatch : ApiErrorClass where
  name := str "SignatureMismatchError"
  description := str "Authentication failed: Invalid HMAC signature"
  status := .unauthorized

/-- `HttpErrorResponse`, whose `code` is in the text of the error alone. -/
def httpErrorResponse : ApiErrorClass :=
  { base with name := str "HttpErrorResponse", description := str "HTTP error response" }

/-- The class of a name. -/
def named (cls : String) : ApiErrorClass :=
  if cls = "ApiUsageError" then usage
  else if cls = "JsonDecodeError" then jsonDecode
  else if cls = "MessageNotFound" then messageNotFound
  else if cls = "InvalidBody" then invalidBody
  else if cls = "TimeoutError" then timeoutError
  else if cls = "SignatureMismatchError" then signatureMismatch
  else if cls = "HttpErrorResponse" then httpErrorResponse
  else base

end ApiErrorClass

/-- An `ApiError`, of any class. -/
def IsApiError (e : PyExc) : Prop := ∃ cls args, e = .apiError cls args

/-- Another exception is no error of the API. -/
theorem not_isApiError {e : PyExc} (h : ∀ cls args, e ≠ .apiError cls args) : ¬ IsApiError e := by
  rintro ⟨cls, args, he⟩
  exact h cls args he

/-- `ApiUsageError(text)`. -/
def apiUsageError (text : String) : PyExc := .apiError "ApiUsageError" [str text]

/-- What a `JSONDecodeError` is raised as. -/
def jsonDecodeError : PyExc → PyExc
  | .jsonDecodeError text => .apiError "JsonDecodeError" [text]
  | e => e

/-- `str(e)` of an exception that was raised with these arguments, one at most. -/
def excText (args : List Str) : Str := args.headD []

end Vumi2
