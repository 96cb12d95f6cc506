import Dcp.Compat.Replies

/-!
Every text that the complete adapter is given is answered as JSON-RPC demands: a notification
with nothing, a text that is no request with one error for the id null, and a request with one
response that carries its id.
-/

namespace Dcp
open Library

namespace CompleteMcpAdapter

/-- The answer to a text: an error for the id null when it is no request, nothing when it is a
notification, and one response with the id of the request otherwise. -/
def Disciplined (codec : JsonCodec) (maxDepth : Nat) (adapter : CompleteMcpAdapter)
    (json : String) (answer : Option String) : Prop :=
  match adapter.parseRequest codec json with
  | .error _ => ∃ text response, answer = some text ∧ ReadsAs codec maxDepth text response ∧
      response.id = .null ∧ response.result = none ∧ response.error.isSome
  | .ok request =>
      if request.isNotification then answer = none
      else ∃ text, answer = some text ∧ Answers codec maxDepth request.id text

section
variable {codec : JsonCodec} {maxDepth : Nat} (hcodec : codec.Lawful maxDepth)
include hcodec

theorem Answered.answers {id : RequestId} (hvalid : id.Valid)
    {result : Except CompleteAdapterError (Option String)} {events : List AdapterEvent}
    (h : Answered codec id result events) :
    ∃ text, result = .ok (some text) ∧ Answers codec maxDepth id text := by
  cases h with
  | success hplain htext _ =>
      have hformat : JsonRpcParser.formatResponse codec (.success id _) = .ok _ :=
        mapError_eq_ok_iff.mp htext
      exact ⟨_, rfl, (OwnResponse.success hplain).answers hcodec hvalid hformat⟩
  | rejected hdata htext _ =>
      have hformat : JsonRpcParser.formatResponse codec (.failure id _) = .ok _ :=
        mapError_eq_ok_iff.mp htext
      exact ⟨_, rfl, (OwnResponse.failure hdata).answers hcodec hvalid hformat⟩

omit hcodec in
/-- A notification is never answered. -/
theorem unanswered_handleParsed (adapter : CompleteMcpAdapter) (order : MapOrder)
    (router : BinaryTrieRouter) {request : JsonRpcRequest} (h : request.isNotification = true) :
    (adapter.handleParsed codec order router request).Yields fun result _ =>
      result = .ok none := by
  unfold handleParsed
  simp only [h]
  split
  · exact fun _ => rfl
  split
  · exact fun _ => rfl
  split
  · next hid => simp at hid
  apply (Prog.yields_any _).andThen
  intro result _ _
  cases result with
  | ok answer =>
      simp only [answerErrors, h]
      exact rfl
  | error e =>
      simp only [answerErrors, h]
      exact (Prog.yields_any _).andThen fun _ _ _ => rfl

/-- Whatever the other requests do in the meantime, a text is answered as JSON-RPC demands. -/
theorem disciplined_of_mayReturn (adapter : CompleteMcpAdapter) (order : MapOrder)
    (router : BinaryTrieRouter) (json : String)
    {result : Except CompleteAdapterError (Option String)}
    (hresult : (adapter.handleRequest codec order router json).MayReturn result) :
    ∃ answer, result = .ok answer ∧ adapter.Disciplined codec maxDepth json answer := by
  cases hparse : adapter.parseRequest codec json with
  | error e =>
      simp only [handleRequest, hparse] at hresult
      obtain ⟨events, error, text, rfl, hdata, htext, -⟩ :=
        (answered_parse_failure hcodec e).of_mayReturn hresult
      have hreads := (OwnResponse.failure hdata).readsAs hcodec RequestId.valid_null
        (mapError_eq_ok_iff.mp htext)
      simp only [Disciplined, hparse]
      exact ⟨some text, rfl, text, _, rfl, hreads, rfl, rfl, rfl⟩
  | ok request =>
      simp only [handleRequest, hparse] at hresult
      simp only [Disciplined, hparse]
      by_cases hid : request.isNotification
      · obtain ⟨_, hnone⟩ := (unanswered_handleParsed adapter order router hid).of_mayReturn hresult
        exact ⟨none, hnone, by simp [hid]⟩
      · have hpresent : request.isNotification = false := by simpa using hid
        have hvalid := JsonRpcParser.valid_of_parseRequest (mapError_eq_ok_iff.mp hparse) hpresent
        obtain ⟨events, hanswered⟩ := (answered_handleParsed hcodec hpresent hvalid adapter order
          router).of_mayReturn hresult
        obtain ⟨text, hok, hanswers⟩ := hanswered.answers hcodec hvalid
        refine ⟨some text, hok, ?_⟩
        rw [if_neg hid]
        exact ⟨text, rfl, hanswers⟩

end

/-- From every state a text is handled with a result, and whether its steps are taken together
or between those of other requests, every result is the disciplined answer. -/
theorem response_discipline {codec : JsonCodec} {maxDepth : Nat} (hcodec : codec.Lawful maxDepth)
    (adapter : CompleteMcpAdapter) (order : MapOrder) (router : BinaryTrieRouter) (json : String) :
    (∀ state, ∃ answer, ((adapter.handleRequest codec order router json).run state).1 = .ok answer ∧
      adapter.Disciplined codec maxDepth json answer) ∧
    ∀ result, (adapter.handleRequest codec order router json).MayReturn result →
      ∃ answer, result = .ok answer ∧ adapter.Disciplined codec maxDepth json answer :=
  ⟨fun state => disciplined_of_mayReturn hcodec adapter order router json
      (Prog.mayReturn_run _ state),
    fun _ hresult => disciplined_of_mayReturn hcodec adapter order router json hresult⟩

/-- A ping that comes before the initialize. -/
theorem response_discipline_ping :
    ∃ answer, ((CompleteMcpAdapter.new.handleRequest .reference ⟨id, fun _ => .refl _⟩ .new
        "\x7b\"jsonrpc\":\"2.0\",\"id\":1,\"method\":\"ping\"\x7d").run
          (.new .new [] [])).1 = .ok answer ∧
      CompleteMcpAdapter.new.Disciplined .reference 127
        "\x7b\"jsonrpc\":\"2.0\",\"id\":1,\"method\":\"ping\"\x7d" answer :=
  (response_discipline (JsonCodec.reference_lawful 127) CompleteMcpAdapter.new
    ⟨id, fun _ => .refl _⟩ .new "\x7b\"jsonrpc\":\"2.0\",\"id\":1,\"method\":\"ping\"\x7d").1 _

end CompleteMcpAdapter
end Dcp
