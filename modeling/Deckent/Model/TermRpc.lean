import Deckent.Model.CanonicalJson

/-!
# The terminal RPC

A request is dispatched to the handler of its method, and everything that goes wrong is to become an error of the
response. Every response is checked against its schema before it is returned, the errors too.

The schemas of the methods are checked by a library, which is a parameter, and so is the type of the values that
handlers take and return. A handler that fails may do so with any value.
-/

namespace Deckent.TermRpc

def termRpcVersion : String := "1.0"

inductive TermRpcMethod where
  | sessionList
  | sessionResume
  | runStatus
  | runStartDetached
  | approvalList
  | approvalDecide
  | limitsGet
  deriving DecidableEq

def TermRpcMethod.text : TermRpcMethod → String
  | sessionList => "session.list"
  | sessionResume => "session.resume"
  | runStatus => "run.status"
  | runStartDetached => "run.start-detached"
  | approvalList => "approval.list"
  | approvalDecide => "approval.decide"
  | limitsGet => "limits.get"

def termRpcMethods : List TermRpcMethod :=
  [.sessionList, .sessionResume, .runStatus, .runStartDetached, .approvalList, .approvalDecide, .limitsGet]

def termRpcMethod? (text : String) : Option TermRpcMethod := termRpcMethods.find? (·.text = text)

/-! ### Requests and responses -/

structure RpcRequest (Value : Type*) where
  id : String
  version : String
  method : String
  params : Option Value
  id_ne : id ≠ ""
  version_ne : version ≠ ""
  method_ne : method ≠ ""

inductive RpcErrorCode where
  | versionMismatch
  | unknownMethod
  | methodNotImplemented
  | invalidParams
  | internalError
  deriving DecidableEq

inductive Message where
  | text (content : String)
  | other
  deriving DecidableEq

structure RpcError where
  code : RpcErrorCode
  message : Message
  data : Option Json

structure RpcResponse (Value : Type*) where
  id : String
  version : String
  result : Option Value
  error : Option RpcError

def Message.isNonEmpty : Message → Bool
  | text content => content ≠ ""
  | other => false

def RpcError.isValid (error : RpcError) : Bool := error.message.isNonEmpty

def RpcResponse.isValid {Value : Type*} (response : RpcResponse Value) : Bool :=
  response.id ≠ "" && response.version ≠ "" && response.error.all (·.isValid)
    && (response.result.isSome != response.error.isSome)

/-! ### Failures -/

inductive Thrown where
  | error (message : Option Message)
  | value (text : Option String)

def Thrown.message? : Thrown → Option Message
  | error message => message
  | value text => text.map .text

structure Issue where
  path : List String
  message : String

structure SchemaLibrary (Value : Type*) where
  safeParse : TermRpcMethod → Option Value → Except (List Issue) Value
  errorMessage : String
  errorMessage_ne : errorMessage ≠ ""

def zodIssuesToStrings (issues : List Issue) : List String :=
  issues.map fun issue =>
    (if issue.path.length > 0 then ".".intercalate issue.path else "(root)") ++ ": " ++ issue.message

/-! ### Dispatch -/

inductive HandlerOutcome (Value : Type*) where
  | returns (result : Option Value)
  | throws (thrown : Thrown)
  | pending

abbrev RpcHandlerMap (Value : Type*) := TermRpcMethod → Option (Value → HandlerOutcome Value)

inductive Dispatch (Value : Type*) where
  | resolves (response : RpcResponse Value)
  | rejects
  | pending

section Dispatch

variable {Value : Type*} (schemas : SchemaLibrary Value)

def buildResponse (raw : RpcResponse Value) : Except Thrown (RpcResponse Value) :=
  if raw.isValid then .ok raw else .error (.error (some (.text schemas.errorMessage)))

def errorResponse (id : String) (code : RpcErrorCode) (message : Message) (data : Option Json) :
    Except Thrown (RpcResponse Value) :=
  buildResponse schemas ⟨id, termRpcVersion, none, some ⟨code, message, data⟩⟩

def settle : Except Thrown (RpcResponse Value) → Dispatch Value
  | .ok response => .resolves response
  | .error _ => .rejects

def catchFailure (id : String) (thrown : Thrown) : Dispatch Value :=
  match thrown.message? with
  | none => .rejects
  | some message => settle (errorResponse schemas id .internalError message none)

def resultResponse (id : String) (result : Option Value) : Dispatch Value :=
  match buildResponse schemas ⟨id, termRpcVersion, result, none⟩ with
  | .ok response => .resolves response
  | .error thrown => catchFailure schemas id thrown

def dispatchRpcRequest (request : RpcRequest Value) (handlers : RpcHandlerMap Value) : Dispatch Value :=
  if request.version ≠ termRpcVersion then
    settle (errorResponse schemas request.id .versionMismatch
      (.text (s!"unsupported RPC version \"{request.version}\" (expected \"{termRpcVersion}\")"))
      (some (.object [("requestVersion", .string request.version), ("expectedVersion", .string termRpcVersion)])))
  else match termRpcMethod? request.method with
  | none => settle (errorResponse schemas request.id .unknownMethod
      (.text (s!"unknown RPC method \"{request.method}\""))
      (some (.object [("method", .string request.method),
        ("knownMethods", .array (termRpcMethods.map fun method => .string method.text))])))
  | some method =>
      match schemas.safeParse method request.params with
      | .error issues => settle (errorResponse schemas request.id .invalidParams
          (.text (s!"invalid params for method \"{method.text}\""))
          (some (.object [("errors", .array ((zodIssuesToStrings issues).map .string))])))
      | .ok params =>
          match handlers method with
          | none => settle (errorResponse schemas request.id .methodNotImplemented
              (.text (s!"no handler registered for method \"{method.text}\""))
              (some (.object [("method", .string method.text)])))
          | some handler =>
              match handler params with
              | .pending => .pending
              | .throws thrown => catchFailure schemas request.id thrown
              | .returns result => resultResponse schemas request.id result

end Dispatch

end Deckent.TermRpc
