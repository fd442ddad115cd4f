import SoapAxum.Request.Form
import SoapAxum.Request.Head

/-! Typed path and query parameters. A transport object is read from the form encoding of the
parameters, by the deserializer `deserialize` of its type. -/
namespace SoapAxum.Request
open SoapAxum.Http SoapAxum.Text SoapAxum.Data SoapAxum.Semantics

/-- `serde_urlencoded::to_string` on a map of texts, which has no way to fail. -/
def urlencodedToString (parameters : BTreeMap Str Str) : Except (List ErrorLink) Str :=
  .ok (serializePairs parameters.toList)

/-- `serde_urlencoded::from_str`. -/
def urlencodedFromStr {T : Type} (deserialize : List (Str × Str) → Except (List ErrorLink) T)
    (input : Str) : Except (List ErrorLink) T := deserialize (formPairs (utf8 input))

def pathNormalizationError (source : List ErrorLink) : SoapError :=
  ((HttpRejection.badRequest "failed to normalize path parameters").withSource source).intoError

def pathShapeError (source : List ErrorLink) : SoapError :=
  ((HttpRejection.badRequest "path parameters do not match the expected shape").withSource
    source).intoError

def queryShapeError (source : List ErrorLink) : SoapError :=
  ((HttpRejection.badRequest "query parameters do not match the expected shape").withSource
    source).intoError

/-- The loops of `decode_query` over names and values. -/
def encodeQuery (parameters : BTreeMap Str (List Str)) : Str :=
  parameters.toList.foldl (fun target entry =>
    entry.2.foldl (fun target value => appendPair target (entry.1,value)) target) []

section
variable [Platform] {T : Type} (deserialize : List (Str × Str) → Except (List ErrorLink) T)

def decodePath (request : RouteRequest) : SoapResult T := do
  let encoded ← (urlencodedToString request.normalized.head.pathParameters).mapError
    pathNormalizationError
  (urlencodedFromStr deserialize encoded).mapError pathShapeError

def decodeQuery (request : RouteRequest) : SoapResult T :=
  (urlencodedFromStr deserialize (encodeQuery request.normalized.head.queryParameters)).mapError
    queryShapeError

end

lemma encodeQuery_eq (parameters : BTreeMap Str (List Str)) :
    encodeQuery parameters = serializePairs (flattenParameters parameters) := by
  unfold encodeQuery serializePairs flattenParameters
  rw [List.foldl_flatMap]
  simp only [List.foldl_map]

/-- The object is read from exactly the pairs of the parameters. -/
theorem decodeQuery_eq [Platform] {T : Type}
    (deserialize : List (Str × Str) → Except (List ErrorLink) T) (request : RouteRequest) :
    decodeQuery deserialize request =
      (deserialize (flattenParameters request.normalized.head.queryParameters)).mapError
        queryShapeError := by
  unfold decodeQuery urlencodedFromStr
  rw [encodeQuery_eq,formPairs_serializePairs]

lemma decodePath_eq [Platform] {T : Type}
    (deserialize : List (Str × Str) → Except (List ErrorLink) T) (request : RouteRequest) :
    decodePath deserialize request =
      (deserialize request.normalized.head.pathParameters.toList).mapError pathShapeError := by
  have hpairs := formPairs_serializePairs request.normalized.head.pathParameters.toList
  unfold decodePath urlencodedFromStr urlencodedToString
  change (deserialize _).mapError _ = _
  rw [hpairs]

/-- Typed decoding is handed every pair of the query, grouped by ascending name and with the values
of a name in their order, in a form that parses to the same parameters, and every pair of the path. -/
theorem typed_decoding_keeps_pairs [Platform] :
    (∀ query parameters, parseQuery (some query) = .ok parameters →
      ∃ handed, formPairs (utf8 (encodeQuery parameters)) = handed ∧
        (∀ (T : Type) (deserialize : List (Str × Str) → Except (List ErrorLink) T)
          (request : RouteRequest), request.normalized.head.queryParameters = parameters →
          decodeQuery deserialize request = (deserialize handed).mapError queryShapeError) ∧
        handed.Perm (formPairs (utf8 query)) ∧
        (handed.Pairwise fun a b => (compare a.1 b.1).isLE) ∧
        (∀ name, valuesOf name handed = valuesOf name (formPairs (utf8 query))) ∧
        parseQuery (some (encodeQuery parameters)) = .ok parameters) ∧
      ∀ parameters : BTreeMap Str Str,
        ∃ encoded, urlencodedToString parameters = .ok encoded ∧
          formPairs (utf8 encoded) = parameters.toList ∧
          ∀ (T : Type) (deserialize : List (Str × Str) → Except (List ErrorLink) T)
            (request : RouteRequest), request.normalized.head.pathParameters = parameters →
            decodePath deserialize request =
              (deserialize parameters.toList).mapError pathShapeError := by
  constructor
  · intro query parameters h
    obtain ⟨-,-,rfl⟩ := parseQuery_eq_ok.mp h
    have hvalues := valuesOf_flattenParameters (formPairs (utf8 query))
    refine ⟨flattenParameters _,?_,?_,perm_of_valuesOf hvalues,pairwise_flattenParameters _,hvalues,?_⟩
    · rw [encodeQuery_eq,formPairs_serializePairs]
    · intro T deserialize request hrequest
      rw [decodeQuery_eq,hrequest]
    · rw [encodeQuery_eq,parseQuery_serializePairs,foldl_pushParameter_congr hvalues]
  · intro parameters
    refine ⟨_,rfl,formPairs_serializePairs _,?_⟩
    intro T deserialize request hrequest
    rw [decodePath_eq,hrequest]

end SoapAxum.Request
