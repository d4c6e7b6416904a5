import Deckent.Model.TermRpc

/-!
# Responses to requests

The checks before a handler is called have messages of their own. A failure of the handler brings its message
along, and a message that is empty, or no text, makes the error itself invalid: it is thrown where nothing catches
it.
-/

namespace Deckent.TermRpc

variable {Value : Type*} {schemas : SchemaLibrary Value} {id : String}

def Answers (dispatch : Dispatch Value) (id : String) : Prop :=
  ∃ response, dispatch = .resolves response ∧ response.isValid = true ∧ response.id = id
    ∧ (response.result.isSome = true ↔ response.error.isSome = false)

theorem append_ne_empty {left : String} (hleft : left ≠ "") (right : String) : left ++ right ≠ "" := by
  intro hempty
  exact hleft (String.append_eq_empty_iff.mp hempty).1

theorem isValid_error (hid : id ≠ "") (code : RpcErrorCode) (message : Message) (data : Option Json) :
    (RpcResponse.mk id termRpcVersion (none : Option Value) (some ⟨code, message, data⟩)).isValid
      = message.isNonEmpty := by
  simp [RpcResponse.isValid, RpcError.isValid, hid, termRpcVersion]

theorem answers_errorResponse (hid : id ≠ "") {code : RpcErrorCode} {message : Message} {data : Option Json} :
    Answers (settle (errorResponse schemas id code message data)) id ↔ message.isNonEmpty = true := by
  unfold errorResponse buildResponse
  rw [isValid_error hid]
  constructor
  · intro hanswers
    by_contra hempty
    rw [if_neg hempty] at hanswers
    obtain ⟨response, hresolves, -⟩ := hanswers
    cases hresolves
  · intro hmessage
    rw [if_pos hmessage]
    exact ⟨_, rfl, (isValid_error hid code message data).trans hmessage, rfl, by simp⟩

theorem answers_error_text (hid : id ≠ "") (code : RpcErrorCode) {text : String} (htext : text ≠ "")
    (data : Option Json) : Answers (settle (errorResponse schemas id code (.text text) data)) id :=
  (answers_errorResponse hid).mpr (by simpa [Message.isNonEmpty] using htext)

def Thrown.Tells (thrown : Thrown) : Prop := ∃ text, text ≠ "" ∧ thrown.message? = some (.text text)

theorem answers_catchFailure (hid : id ≠ "") {thrown : Thrown} :
    Answers (catchFailure schemas id thrown) id ↔ thrown.Tells := by
  unfold catchFailure Thrown.Tells
  cases hmessage : thrown.message? with
  | none => exact ⟨fun ⟨_, hresolves, _⟩ => (by cases hresolves), fun ⟨_, _, hsome⟩ => (by cases hsome)⟩
  | some message =>
      rw [answers_errorResponse hid]
      cases message with
      | text text => simp [Message.isNonEmpty]
      | other => simp [Message.isNonEmpty]

/-- The handler settles, and a failure of it brings a message. -/
def HandlerOutcome.Settles : HandlerOutcome Value → Prop
  | .returns _ => True
  | .throws thrown => thrown.Tells
  | .pending => False

def HandlerSettles (schemas : SchemaLibrary Value) (request : RpcRequest Value) (handlers : RpcHandlerMap Value) :
    Prop :=
  ∀ method params handler, request.version = termRpcVersion → termRpcMethod? request.method = some method →
    schemas.safeParse method request.params = .ok params → handlers method = some handler →
      (handler params).Settles

theorem answers_resultResponse (hid : id ≠ "") (result : Option Value) :
    Answers (resultResponse schemas id result) id := by
  unfold resultResponse
  cases result with
  | none =>
      have hinvalid : (RpcResponse.mk id termRpcVersion (none : Option Value) none).isValid = false := by
        simp [RpcResponse.isValid]
      unfold buildResponse
      rw [hinvalid]
      exact (answers_catchFailure hid).mpr ⟨schemas.errorMessage, schemas.errorMessage_ne, rfl⟩
  | some value =>
      have hvalid : (RpcResponse.mk id termRpcVersion (some value) none).isValid = true := by
        simp [RpcResponse.isValid, hid, termRpcVersion]
      unfold buildResponse
      rw [if_pos hvalid]
      exact ⟨_, rfl, hvalid, rfl, by simp⟩

/-- A request is answered where the handler that it is dispatched to settles. -/
theorem dispatchRpcRequest_answers_iff (schemas : SchemaLibrary Value) (request : RpcRequest Value)
    (handlers : RpcHandlerMap Value) : Answers (dispatchRpcRequest schemas request handlers) request.id
      ↔ HandlerSettles schemas request handlers := by
  unfold dispatchRpcRequest HandlerSettles
  by_cases hversion : request.version = termRpcVersion
  · rw [if_neg (not_not.mpr hversion)]
    cases hmethod : termRpcMethod? request.method with
    | none =>
        refine iff_of_true (answers_error_text request.id_ne _ ?_ _) fun _ _ _ _ hsome => ?_
        · exact append_ne_empty (append_ne_empty (by decide) _) _
        · cases hsome
    | some method =>
        dsimp only
        cases hparams : schemas.safeParse method request.params with
        | error issues =>
            refine iff_of_true (answers_error_text request.id_ne _ ?_ _) fun other _ _ _ hsome hok => ?_
            · exact append_ne_empty (append_ne_empty (by decide) _) _
            · cases hsome
              rw [hparams] at hok
              cases hok
        | ok params =>
            dsimp only
            cases hhandler : handlers method with
            | none =>
                refine iff_of_true (answers_error_text request.id_ne _ ?_ _) fun other _ _ _ hsome _ hfound => ?_
                · exact append_ne_empty (append_ne_empty (by decide) _) _
                · cases hsome
                  rw [hhandler] at hfound
                  cases hfound
            | some handler =>
                dsimp only
                have hcalled : (∀ method' params' handler', request.version = termRpcVersion →
                    some method = some method' → schemas.safeParse method' request.params = .ok params' →
                    handlers method' = some handler' → (handler' params').Settles)
                      ↔ (handler params).Settles := by
                  constructor
                  · exact fun hsettles => hsettles method params handler hversion rfl hparams hhandler
                  · rintro hsettles _ params' handler' - ⟨⟩ hok hfound
                    rw [hparams] at hok
                    rw [hhandler] at hfound
                    cases hok
                    cases hfound
                    exact hsettles
                rw [hcalled]
                cases houtcome : handler params with
                | returns result => exact iff_of_true (answers_resultResponse request.id_ne result) trivial
                | throws thrown => exact answers_catchFailure request.id_ne
                | pending => exact iff_of_false (fun ⟨_, hresolves, _⟩ => (by cases hresolves)) id
  · rw [if_pos hversion]
    refine iff_of_true (answers_error_text request.id_ne _ ?_ _) fun _ _ _ hsame => absurd hsame hversion
    exact append_ne_empty (append_ne_empty (append_ne_empty (append_ne_empty (by decide) _) _) _) _

def lenientSchemas : SchemaLibrary Unit where
  safeParse _ params := .ok (params.getD ())
  errorMessage := "[]"
  errorMessage_ne := by decide

def listRequest : RpcRequest Unit where
  id := "1"
  version := "1.0"
  method := "session.list"
  params := none
  id_ne := by decide
  version_ne := by decide
  method_ne := by decide

def failingHandlers (message : String) : RpcHandlerMap Unit :=
  fun _ => some fun _ => .throws (.error (some (.text message)))

theorem dispatchRpcRequest_answers_iff_failing :
    Answers (dispatchRpcRequest lenientSchemas listRequest (failingHandlers "offline")) "1" := by
  refine (dispatchRpcRequest_answers_iff lenientSchemas listRequest (failingHandlers "offline")).mpr ?_
  rintro method params handler - - - ⟨⟩
  exact ⟨"offline", by decide, rfl⟩

/-- An error without a message is not answered. -/
theorem not_answers_emptyMessage :
    ¬ Answers (dispatchRpcRequest lenientSchemas listRequest (failingHandlers "")) "1" := by
  rintro ⟨response, hresolves, -⟩
  have hrejects : dispatchRpcRequest lenientSchemas listRequest (failingHandlers "") = .rejects := rfl
  cases hrejects.symm.trans hresolves

end Deckent.TermRpc
