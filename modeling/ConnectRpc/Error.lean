import ConnectRpc.Http
import ConnectRpc.Lib.Json

/-!
# Errors

Error codes with their three spellings (text, gRPC number, HTTP status), error
details, and the error type every part of the library reports through.
-/

namespace ConnectRpc

open Lib

/-- The Connect error codes. -/
inductive ErrorCode : Type where
  | canceled
  | unknown
  | invalidArgument
  | deadlineExceeded
  | notFound
  | alreadyExists
  | permissionDenied
  | resourceExhausted
  | failedPrecondition
  | aborted
  | outOfRange
  | unimplemented
  | internal
  | unavailable
  | dataLoss
  | unauthenticated
  deriving DecidableEq

namespace ErrorCode

/-- The text of a code. -/
def asStr : ErrorCode → String
  | canceled => "canceled"
  | unknown => "unknown"
  | invalidArgument => "invalid_argument"
  | deadlineExceeded => "deadline_exceeded"
  | notFound => "not_found"
  | alreadyExists => "already_exists"
  | permissionDenied => "permission_denied"
  | resourceExhausted => "resource_exhausted"
  | failedPrecondition => "failed_precondition"
  | aborted => "aborted"
  | outOfRange => "out_of_range"
  | unimplemented => "unimplemented"
  | internal => "internal"
  | unavailable => "unavailable"
  | dataLoss => "data_loss"
  | unauthenticated => "unauthenticated"

/-- Read a code from its text. -/
def fromStr : String → Option ErrorCode
  | "canceled" => some canceled
  | "unknown" => some unknown
  | "invalid_argument" => some invalidArgument
  | "deadline_exceeded" => some deadlineExceeded
  | "not_found" => some notFound
  | "already_exists" => some alreadyExists
  | "permission_denied" => some permissionDenied
  | "resource_exhausted" => some resourceExhausted
  | "failed_precondition" => some failedPrecondition
  | "aborted" => some aborted
  | "out_of_range" => some outOfRange
  | "unimplemented" => some unimplemented
  | "internal" => some internal
  | "unavailable" => some unavailable
  | "data_loss" => some dataLoss
  | "unauthenticated" => some unauthenticated
  | _ => none

/-- The number of the HTTP status a Connect unary error of this code is sent
with. -/
def httpStatusNumber : ErrorCode → ℕ
  | canceled => 499
  | unknown => 500
  | invalidArgument => 400
  | deadlineExceeded => 504
  | notFound => 404
  | alreadyExists => 409
  | permissionDenied => 403
  | resourceExhausted => 429
  | failedPrecondition => 400
  | aborted => 409
  | outOfRange => 400
  | unimplemented => 501
  | internal => 500
  | unavailable => 503
  | dataLoss => 500
  | unauthenticated => 401

/-- They are all client or server error statuses. -/
theorem httpStatusNumber_range (c : ErrorCode) :
    400 ≤ c.httpStatusNumber ∧ c.httpStatusNumber ≤ 504 := by
  cases c <;> decide

/-- The HTTP status of a code. -/
def httpStatus (c : ErrorCode) : StatusCode :=
  ⟨c.httpStatusNumber, by
    have h := c.httpStatusNumber_range
    omega⟩

/-- The gRPC number of a code. -/
def grpcCode : ErrorCode → ℕ
  | canceled => 1
  | unknown => 2
  | invalidArgument => 3
  | deadlineExceeded => 4
  | notFound => 5
  | alreadyExists => 6
  | permissionDenied => 7
  | resourceExhausted => 8
  | failedPrecondition => 9
  | aborted => 10
  | outOfRange => 11
  | unimplemented => 12
  | internal => 13
  | unavailable => 14
  | dataLoss => 15
  | unauthenticated => 16

/-- Read a code from its gRPC number. -/
def fromGrpcCode : ℕ → Option ErrorCode
  | 1 => some canceled
  | 2 => some unknown
  | 3 => some invalidArgument
  | 4 => some deadlineExceeded
  | 5 => some notFound
  | 6 => some alreadyExists
  | 7 => some permissionDenied
  | 8 => some resourceExhausted
  | 9 => some failedPrecondition
  | 10 => some aborted
  | 11 => some outOfRange
  | 12 => some unimplemented
  | 13 => some internal
  | 14 => some unavailable
  | 15 => some dataLoss
  | 16 => some unauthenticated
  | _ => none

@[simp] theorem fromStr_asStr (c : ErrorCode) : fromStr c.asStr = some c := by
  cases c <;> rfl

@[simp] theorem fromGrpcCode_grpcCode (c : ErrorCode) : fromGrpcCode c.grpcCode = some c := by
  cases c <;> rfl

theorem grpcCode_range (c : ErrorCode) : 1 ≤ c.grpcCode ∧ c.grpcCode ≤ 16 := by
  cases c <;> decide

/-- No code maps to a success status. -/
theorem httpStatus_not_success (c : ErrorCode) : c.httpStatus.isSuccess = false := by
  cases c <;> rfl

end ErrorCode

/-- A detail attached to an error. -/
structure ErrorDetail where
  /-- the type of the detail, `type` in JSON -/
  typeUrl : String
  /-- the base64 of the encoded message -/
  value : Option String
  /-- debug information -/
  debug : Option Json

/-- An error. The headers and trailers are empty when none are attached. The
retained cause is left out: nothing renders it. -/
structure ConnectError where
  /-- the code -/
  code : ErrorCode
  /-- the message -/
  message : Option String
  /-- the details -/
  details : List ErrorDetail
  /-- replaces the HTTP status of the code -/
  httpStatusOverride : Option StatusCode
  /-- headers of the error response -/
  responseHeaders : HeaderMap
  /-- trailers of the error response -/
  trailers : HeaderMap

namespace ConnectError

/-- An error with a code and a message. -/
def new (code : ErrorCode) (message : String) : ConnectError :=
  ⟨code, some message, [], none, .empty, .empty⟩

/-- A `resource_exhausted` error. -/
def resourceExhausted (message : String) : ConnectError := new .resourceExhausted message

/-- An `invalid_argument` error. -/
def invalidArgument (message : String) : ConnectError := new .invalidArgument message

/-- A `deadline_exceeded` error. -/
def deadlineExceeded (message : String) : ConnectError := new .deadlineExceeded message

/-- An `unimplemented` error. -/
def unimplemented (message : String) : ConnectError := new .unimplemented message

/-- An `internal` error. -/
def internal (message : String) : ConnectError := new .internal message

/-- An `unavailable` error. -/
def unavailable (message : String) : ConnectError := new .unavailable message

/-- `ConnectError::set_response_headers`. -/
def setResponseHeaders (e : ConnectError) (h : HeaderMap) : ConnectError :=
  { e with responseHeaders := h }

/-- `ConnectError::set_trailers`. -/
def setTrailers (e : ConnectError) (t : HeaderMap) : ConnectError :=
  { e with trailers := t }

/-- The HTTP status of the error. -/
def httpStatus (e : ConnectError) : StatusCode :=
  e.httpStatusOverride.getD e.code.httpStatus

@[simp] theorem code_new (c : ErrorCode) (m : String) : (new c m).code = c := rfl

@[simp] theorem message_new (c : ErrorCode) (m : String) : (new c m).message = some m := rfl

@[simp] theorem details_new (c : ErrorCode) (m : String) : (new c m).details = [] := rfl

@[simp] theorem code_setTrailers (e : ConnectError) (t : HeaderMap) :
    (e.setTrailers t).code = e.code := rfl

@[simp] theorem message_setTrailers (e : ConnectError) (t : HeaderMap) :
    (e.setTrailers t).message = e.message := rfl

@[simp] theorem details_setTrailers (e : ConnectError) (t : HeaderMap) :
    (e.setTrailers t).details = e.details := rfl

@[simp] theorem code_setResponseHeaders (e : ConnectError) (h : HeaderMap) :
    (e.setResponseHeaders h).code = e.code := rfl

@[simp] theorem message_setResponseHeaders (e : ConnectError) (h : HeaderMap) :
    (e.setResponseHeaders h).message = e.message := rfl

@[simp] theorem details_setResponseHeaders (e : ConnectError) (h : HeaderMap) :
    (e.setResponseHeaders h).details = e.details := rfl

end ConnectError

/-- Two errors that say the same: code, message, details and trailing metadata. -/
structure SameError (e e' : ConnectError) : Prop where
  /-- the code -/
  code : e.code = e'.code
  /-- the message -/
  message : e.message = e'.message
  /-- the details -/
  details : e.details = e'.details
  /-- the trailing metadata -/
  trailers : e.trailers = e'.trailers

end ConnectRpc
