import Mathlib.Data.Nat.Notation
import Mathlib.Tactic.Lemma

/-! Errors with their chain of sources, and the protocol rejections that travel inside such a
chain. An error has at most one source, so a chain is a list, the nearest source first. -/
namespace SoapAxum.Http

abbrev StatusCode := ℕ

inductive SoapErrorKind where
  | validation
  | notFound
  | conflict
  | infrastructure
  | unsupported
  | timeout
  | other (name : String)
  deriving DecidableEq,Repr

/-- One error of a source chain, as `downcast_ref` tells the kinds apart. -/
inductive ErrorLink where
  | rejection (status : StatusCode) (code message : String)
  | soap (kind : SoapErrorKind) (message : String) (diagnosticId : Option String)
  | technical (text : String)
  deriving DecidableEq,Repr

/-- A `SoapError` through its accessors, with the links below it. -/
structure SoapError where
  kind : SoapErrorKind
  message : String
  diagnosticId : Option String
  source : List ErrorLink
  deriving DecidableEq,Repr

abbrev SoapResult (α : Type) := Except SoapError α

namespace SoapError

def new (kind : SoapErrorKind) (message : String) : SoapError := ⟨kind,message,none,[]⟩

def validation (message : String) : SoapError := new .validation message
def notFound (message : String) : SoapError := new .notFound message
def conflict (message : String) : SoapError := new .conflict message
def infrastructure (message : String) : SoapError := new .infrastructure message
def unsupported (message : String) : SoapError := new .unsupported message
def timeout (message : String) : SoapError := new .timeout message

/-- Attach an error together with its own sources. -/
def withSource (error : SoapError) (source : List ErrorLink) : SoapError := { error with source }

end SoapError

structure HttpRejection where
  status : StatusCode
  code : String
  message : String
  source : List ErrorLink
  deriving DecidableEq,Repr

namespace HttpRejection

def new (status : StatusCode) (code message : String) : HttpRejection := ⟨status,code,message,[]⟩

def badRequest (message : String) : HttpRejection := new 400 "bad_request" message
def notAcceptable (message : String) : HttpRejection := new 406 "not_acceptable" message
def payloadTooLarge (message : String) : HttpRejection := new 413 "payload_too_large" message
def unsupportedMediaType (message : String) : HttpRejection :=
  new 415 "unsupported_media_type" message

def withSource (rejection : HttpRejection) (source : List ErrorLink) : HttpRejection :=
  { rejection with source }

def intoError (rejection : HttpRejection) : SoapError :=
  (SoapError.validation rejection.message).withSource
    (.rejection rejection.status rejection.code rejection.message :: rejection.source)

/-- The first rejection of a source chain. -/
def findLink : List ErrorLink → Option HttpRejection
  | [] => none
  | .rejection status code message :: rest => some ⟨status,code,message,rest⟩
  | .soap _ _ _ :: rest => findLink rest
  | .technical _ :: rest => findLink rest

def find (error : SoapError) : Option HttpRejection := findLink error.source

@[simp] theorem find_intoError (rejection : HttpRejection) : find rejection.intoError = some rejection := rfl

@[simp] theorem intoError_diagnosticId (rejection : HttpRejection) :
    rejection.intoError.diagnosticId = none := rfl

end HttpRejection

/-- A rejection with status 400 and code `bad_request`, whatever its message and source. -/
def SoapError.IsBadRequest (error : SoapError) : Prop :=
  ∃ message source, error = ((HttpRejection.badRequest message).withSource source).intoError

lemma isBadRequest_intoError (message : String) :
    (HttpRejection.badRequest message).intoError.IsBadRequest := ⟨message,[],rfl⟩

lemma isBadRequest_withSource (message : String) (source : List ErrorLink) :
    ((HttpRejection.badRequest message).withSource source).intoError.IsBadRequest :=
  ⟨message,source,rfl⟩

end SoapAxum.Http
