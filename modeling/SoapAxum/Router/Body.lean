import SoapAxum.Router.Dispatch

/-! What is read of a request body: only its bytes and the way it ends count, not the chunks it
arrives in or the time they take. -/
namespace SoapAxum.Router
open SoapAxum.Http SoapAxum.Text SoapAxum.Data SoapAxum.Semantics SoapAxum.Request SoapAxum.Endpoint

inductive BodyEnd where
  | complete
  | failed (error : BodyError)
  | never

namespace Body

/-- All bytes of a body up to its end. -/
def bytes : Body → Bytes
  | done => []
  | data chunk rest => chunk ++ rest.bytes
  | failed _ => []
  | pending rest => rest.bytes
  | stalled => []

def ending : Body → BodyEnd
  | done => .complete
  | data _ rest => rest.ending
  | failed error => .failed error
  | pending rest => rest.ending
  | stalled => .never

/-- The bodies differ at most in their chunks and in the time these take. -/
structure SameContent (body body' : Body) : Prop where
  bytes : body.bytes = body'.bytes
  ending : body.ending = body'.ending

end Body

/-- What collecting a body gives when all of its bytes are within the limit. -/
def BodyEnd.collected (bytes : Bytes) : BodyEnd → Option (Except BodyError Bytes)
  | complete => some (.ok bytes)
  | failed error => some (.error error)
  | never => none

/-- Collecting a body fails for its length as soon as the limit is exceeded, and otherwise gives all
of its bytes if it ends. -/
theorem value_toBytes (limit : ℕ) (body : Body) :
    (toBytes limit body).value =
      if limit < body.bytes.length then some (.error .lengthLimit)
      else body.ending.collected body.bytes := by
  induction body generalizing limit with
  | done => simp [toBytes,Body.bytes,Body.ending,BodyEnd.collected]
  | data chunk rest ih =>
    rw [toBytes,Body.bytes,Body.ending,List.length_append]
    by_cases hchunk : limit < chunk.length
    · have hlong : limit < chunk.length+rest.bytes.length := by omega
      rw [if_pos hchunk,if_pos hlong]
      rfl
    · have hle : chunk.length ≤ limit := Nat.le_of_not_lt hchunk
      have hrest : limit-chunk.length < rest.bytes.length ↔
          limit < chunk.length+rest.bytes.length := by omega
      rw [if_neg hchunk,Coroutine.value_bind,ih]
      simp only [hrest]
      split
      · rfl
      · cases rest.ending <;> rfl
  | failed error => simp [toBytes,Body.bytes,Body.ending,BodyEnd.collected]
  | pending rest ih => exact ih limit
  | stalled => simp [toBytes,Coroutine.value,Body.bytes,Body.ending,BodyEnd.collected]

section
variable [Platform]

namespace EndpointRuntime

/-- The rejection of a body that is too long. -/
def tooLong (runtime : EndpointRuntime) : SoapError :=
  ((HttpRejection.payloadTooLarge
    ("request body exceeds the " ++ toString runtime.bodyLimit ++ "-byte limit")).withSource
    [.technical "length limit exceeded",.technical "length limit exceeded"]).intoError

def unreadable (source : List ErrorLink) : SoapError :=
  (SoapError.infrastructure "failed to read HTTP request body").withSource source

/-- The rejection of a body that fails by itself. -/
def bodyFailure (runtime : EndpointRuntime) : BodyError → SoapError
  | .lengthLimit => runtime.tooLong
  | .other source => unreadable source

theorem value_readBody (runtime : EndpointRuntime) (body : Body) :
    (runtime.readBody body).value =
      if runtime.bodyLimit < body.bytes.length then some (.error runtime.tooLong)
      else match body.ending with
        | .complete => some (.ok body.bytes)
        | .failed error => some (.error (runtime.bodyFailure error))
        | .never => none := by
  rw [readBody,Coroutine.value_bind,value_toBytes]
  split
  · rfl
  · cases body.ending with
    | complete => rfl
    | failed error => cases error <;> rfl
    | never => rfl

theorem readBody_eq_ok {runtime : EndpointRuntime} {body : Body} {bytes : Bytes} :
    (runtime.readBody body).value = some (.ok bytes) ↔
      body.ending = .complete ∧ body.bytes.length ≤ runtime.bodyLimit ∧ bytes = body.bytes := by
  rw [value_readBody]
  split
  · next hlong => exact iff_of_false (by simp) fun h => absurd h.2.1 (by omega)
  · next hle =>
    have hle : body.bytes.length ≤ runtime.bodyLimit := Nat.le_of_not_lt hle
    cases body.ending with
    | complete => simp [hle,eq_comm]
    | failed error => simp
    | never => simp

end EndpointRuntime

/-- A body is handed on exactly if it is complete and within the limit, and then as its bytes. One
that exceeds the limit is too large, however it would have ended, and one that fails within the limit
is rejected for that. So the chunks of a body and their delays change nothing. -/
theorem read_body_by_content (runtime : EndpointRuntime) (body : Body) :
    (∀ bytes, (runtime.readBody body).value = some (.ok bytes) ↔
        body.ending = .complete ∧ body.bytes.length ≤ runtime.bodyLimit ∧ bytes = body.bytes) ∧
      (runtime.bodyLimit < body.bytes.length →
        (runtime.readBody body).value = some (.error runtime.tooLong)) ∧
      (∀ error, body.ending = .failed error → body.bytes.length ≤ runtime.bodyLimit →
        (runtime.readBody body).value = some (.error (runtime.bodyFailure error))) ∧
      ((runtime.readBody body).value = none ↔
        body.ending = .never ∧ body.bytes.length ≤ runtime.bodyLimit) ∧
      ∀ body', body.SameContent body' →
        (runtime.readBody body').value = (runtime.readBody body).value := by
  have hvalue := runtime.value_readBody body
  refine ⟨fun bytes => EndpointRuntime.readBody_eq_ok,?_,?_,?_,?_⟩
  · intro hlong
    rw [hvalue,if_pos hlong]
  · intro error he hle
    rw [hvalue,if_neg (Nat.not_lt_of_le hle),he]
  · rw [hvalue]
    split
    · next hlong => exact iff_of_false (by simp) fun h => absurd h.2 (by omega)
    · next hle =>
      have hle : body.bytes.length ≤ runtime.bodyLimit := Nat.le_of_not_lt hle
      cases body.ending with
      | complete => simp
      | failed error => simp
      | never => simp [hle]
  · intro body' hsame
    rw [hvalue,runtime.value_readBody body',hsame.bytes,hsame.ending]

end
end SoapAxum.Router
