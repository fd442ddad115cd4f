import SoapAxum.Router.Reach

/-! One more guard. It can keep requests away from the rest of the pipeline, and there it changes
nothing. The parts answer as functions of what they are given, so none of this is about guards that
share their state with another part, as two rate limit guards with one limiter do. -/
namespace SoapAxum.Router
open SoapAxum.Http SoapAxum.Text SoapAxum.Data SoapAxum.Semantics SoapAxum.Request SoapAxum.Endpoint

section
variable [Platform]

/-- The guard decides on a head that it leaves as it is. -/
def OnlyDecides (guard : EndpointGuard) : Prop :=
  ∀ head left result, (guard.check head).value = some (left,result) → left = head

namespace EndpointRuntime

/-- What follows the guards. -/
def conclude (runtime : EndpointRuntime) (body : Body) :
    RouteRequestHead × Option EndpointGuardRejection → Coroutine Event Response
  | (head,some rejection) => runtime.guardRejectionResponse head rejection
  | (head,none) => runtime.readAndRespond head body

lemma returns_guardRejectionResponse {runtime : EndpointRuntime} {seen : RouteRequestHead}
    {rejection : EndpointGuardRejection} {trace : List Event} {response : Response} :
    Coroutine.Returns (runtime.guardRejectionResponse seen rejection) trace response ↔
      response = (Exit.guardRejection seen rejection).final runtime ∧
        trace = runtime.tail (.guardRejection seen rejection) := by
  refine returns_finish.trans (and_congr_right ?_)
  rintro rfl
  rfl

theorem checkGuards_append (before after : List EndpointGuard) (head : RouteRequestHead) :
    checkGuards (before ++ after) head = checkGuards before head >>= fun checked =>
      match checked.2 with
      | some _ => pure checked
      | none => checkGuards after checked.1 := by
  induction before generalizing head with
  | nil => rfl
  | cons first before ih =>
    rw [List.cons_append,checkGuards,checkGuards,Coroutine.bind_assoc]
    refine congrArg _ (funext fun checked => ?_)
    obtain ⟨left,result⟩ := checked
    cases result with
    | error rejection => rfl
    | ok u =>
      change (Coroutine.report _ >>= fun _ => checkGuards (before ++ after) left) =
        (Coroutine.report _ >>= fun _ => checkGuards before left) >>= _
      rw [Coroutine.bind_assoc]
      exact congrArg _ (funext fun _ => ih left)

/-- Guards that are split in two are checked one part after the other. -/
theorem returns_dispatchPipeline_append {runtime : EndpointRuntime} {params : List (Str × Str)}
    {request : IncomingRequest} {head : RouteRequestHead} {body : Body}
    {before after : List EndpointGuard} {trace : List Event} {response : Response}
    (hn : runtime.normalizeHead params request = .ok (head,body)) :
    Coroutine.Returns
      ({ runtime with guards := before ++ after }.dispatchPipeline params request) trace response ↔
    (∃ seen rejection front rest,
      Coroutine.Returns (checkGuards before head) front (seen,some rejection) ∧
      Coroutine.Returns (runtime.guardRejectionResponse seen rejection) rest response ∧
      trace = runtime.hookEvents (.requestHead head) ++ (front ++ rest)) ∨
    ∃ checked rest, Accepts before head checked ∧
      Coroutine.Returns (checkGuards after checked >>= runtime.conclude body) rest response ∧
      trace = runtime.hookEvents (.requestHead head) ++ (before.map .guardAccepted ++ rest) := by
  have hpipeline : { runtime with guards := before ++ after }.dispatchPipeline params request =
      runtime.notify (.requestHead head) >>= fun _ =>
        checkGuards before head >>= fun checked => (match checked.2 with
          | some _ => pure checked
          | none => checkGuards after checked.1) >>= runtime.conclude body := by
    rw [← Coroutine.bind_assoc (checkGuards before head),← checkGuards_append]
    have hsame : { runtime with guards := before ++ after }.normalizeHead params request =
        .ok (head,body) := hn
    rw [dispatchPipeline,hsame]
    rfl
  rw [hpipeline,returns_notify_bind]
  constructor
  · rintro ⟨_,rfl,h⟩
    obtain ⟨⟨mid,rejected⟩,front,rest,hfront,hrest,rfl⟩ := Coroutine.returns_bind.mp h
    cases rejected with
    | some rejection => exact Or.inl ⟨mid,rejection,front,rest,hfront,hrest,rfl⟩
    | none =>
      rcases returns_checkGuards hfront with ⟨-,ha,rfl⟩ | ⟨_,_,_,_,_,-,hsome,-⟩
      · exact Or.inr ⟨mid,rest,ha,hrest,rfl⟩
      · cases hsome
  · rintro (⟨seen,rejection,front,rest,hfront,hrest,rfl⟩ | ⟨checked,rest,ha,hrest,rfl⟩)
    · exact ⟨_,rfl,Coroutine.returns_bind.mpr ⟨_,_,_,hfront,hrest,rfl⟩⟩
    · have hfront := returns_checkGuards_of_accepts ha
      exact ⟨_,rfl,Coroutine.returns_bind.mpr ⟨_,_,_,hfront,hrest,rfl⟩⟩

/-- A guard is asked with the head that those in front of it have left, after they have reported. -/
def Asks (runtime : EndpointRuntime) (params : List (Str × Str)) (request : IncomingRequest)
    (before : List EndpointGuard) (front : List Event) (checked : RouteRequestHead) : Prop :=
  ∃ head body, runtime.normalizeHead params request = .ok (head,body) ∧ Accepts before head checked ∧
    front = runtime.hookEvents (.requestHead head) ++ before.map .guardAccepted

lemma accepts_unique {before : List EndpointGuard} {head checked checked' : RouteRequestHead}
    (h : Accepts before head checked) (h' : Accepts before head checked') : checked = checked' := by
  have hsame := (returns_checkGuards_of_accepts h).2.symm.trans (returns_checkGuards_of_accepts h').2
  exact (Prod.mk.inj (Option.some.inj hsame)).1

/-- Behind guards that accept, the rest of the guards decides. -/
theorem returns_of_accepts {runtime : EndpointRuntime} {params : List (Str × Str)}
    {request : IncomingRequest} {head checked : RouteRequestHead} {body : Body}
    {before after : List EndpointGuard} {trace : List Event} {response : Response}
    (hn : runtime.normalizeHead params request = .ok (head,body)) (ha : Accepts before head checked) :
    Coroutine.Returns
      ({ runtime with guards := before ++ after }.dispatchPipeline params request) trace response ↔
    ∃ rest, trace = runtime.hookEvents (.requestHead head) ++ before.map .guardAccepted ++ rest ∧
      Coroutine.Returns (checkGuards after checked >>= runtime.conclude body) rest response := by
  rw [returns_dispatchPipeline_append hn]
  constructor
  · rintro (⟨seen,rejection,front,rest,hfront,-,-⟩ | ⟨checked',rest,ha',hrest,rfl⟩)
    · cases hfront.2.symm.trans (returns_checkGuards_of_accepts ha).2
    · obtain rfl := accepts_unique ha ha'
      exact ⟨rest,(List.append_assoc _ _ _).symm,hrest⟩
  · rintro ⟨rest,rfl,hrest⟩
    exact Or.inr ⟨checked,rest,ha,hrest,List.append_assoc _ _ _⟩

/-- Guards that are not asked do not matter. -/
theorem returns_of_not_asks {runtime : EndpointRuntime} {params : List (Str × Str)}
    {request : IncomingRequest} {before after after' : List EndpointGuard} {trace : List Event}
    {response : Response}
    (hnone : ∀ front checked, ¬ runtime.Asks params request before front checked)
    (h : Coroutine.Returns
      ({ runtime with guards := before ++ after }.dispatchPipeline params request) trace response) :
    Coroutine.Returns
      ({ runtime with guards := before ++ after' }.dispatchPipeline params request) trace response := by
  cases hn : runtime.normalizeHead params request with
  | error error =>
    have hsame : ∀ guards, { runtime with guards }.normalizeHead params request = .error error :=
      fun _ => hn
    rw [dispatchPipeline,hsame] at h ⊢
    exact h
  | ok normalized =>
    obtain ⟨head,body⟩ := normalized
    rcases (returns_dispatchPipeline_append hn).mp h with hearly | ⟨checked,rest,ha,-⟩
    · exact (returns_dispatchPipeline_append hn).mpr (Or.inl hearly)
    · exact absurd ⟨head,body,hn,ha,rfl⟩ (hnone _ checked)

theorem returns_checkGuards_cons {guard : EndpointGuard} {after : List EndpointGuard}
    {checked : RouteRequestHead} {body : Body} {runtime : EndpointRuntime} {rest : List Event}
    {response : Response} (honly : OnlyDecides guard) :
    Coroutine.Returns (checkGuards (guard :: after) checked >>= runtime.conclude body) rest response ↔
      ((guard.check checked).value = some (checked,.ok ()) ∧ ∃ rest', rest = .guardAccepted guard :: rest' ∧
        Coroutine.Returns (checkGuards after checked >>= runtime.conclude body) rest' response) ∨
      ∃ rejection, (guard.check checked).value = some (checked,.error rejection) ∧
        response = (Exit.guardRejection checked rejection).final runtime ∧
        rest = .guardRejected guard :: runtime.tail (.guardRejection checked rejection) := by
  rw [checkGuards,Coroutine.bind_assoc,Coroutine.returns_await_bind]
  constructor
  · rintro ⟨⟨left,result⟩,hcheck,h⟩
    obtain rfl := honly _ _ _ hcheck
    cases result with
    | ok u =>
      refine Or.inl ⟨hcheck,?_⟩
      have h : Coroutine.Returns ((Coroutine.report _ >>= fun _ => checkGuards after left) >>=
        runtime.conclude body) rest response := h
      rw [Coroutine.bind_assoc] at h
      exact Coroutine.returns_report_bind.mp h
    | error rejection =>
      have h : Coroutine.Returns ((Coroutine.report _ >>= fun _ => pure (left,some rejection)) >>=
        runtime.conclude body) rest response := h
      rw [Coroutine.bind_assoc] at h
      obtain ⟨rest',rfl,hrest⟩ := Coroutine.returns_report_bind.mp h
      obtain ⟨rfl,rfl⟩ := returns_guardRejectionResponse.mp hrest
      exact Or.inr ⟨rejection,hcheck,rfl,rfl⟩
  · rintro (⟨hcheck,rest',rfl,h⟩ | ⟨rejection,hcheck,rfl,rfl⟩)
    · refine ⟨_,hcheck,?_⟩
      change Coroutine.Returns ((Coroutine.report _ >>= fun _ => checkGuards after checked) >>=
        runtime.conclude body) _ response
      rw [Coroutine.bind_assoc]
      exact Coroutine.returns_report_bind.mpr ⟨_,rfl,h⟩
    · refine ⟨_,hcheck,?_⟩
      change Coroutine.Returns ((Coroutine.report _ >>= fun _ => pure (checked,some rejection)) >>=
        runtime.conclude body) _ _
      rw [Coroutine.bind_assoc]
      exact Coroutine.returns_report_bind.mpr ⟨_,rfl,returns_guardRejectionResponse.mpr ⟨rfl,rfl⟩⟩

end EndpointRuntime

/-- A guard that only decides, put anywhere among the others: where it is not asked, the pipeline does
what it does without the guard, where it accepts, the pipeline also does that, with its acceptance
reported in between, and where it rejects, that is the answer. Nothing else returns. -/
theorem guard_only_restricts (runtime : EndpointRuntime) (params : List (Str × Str))
    (request : IncomingRequest) (guard : EndpointGuard) (before after : List EndpointGuard)
    (honly : OnlyDecides guard) (trace : List Event) (response : Response) :
    let bare := { runtime with guards := before ++ after }
    let guarded := { runtime with guards := before ++ guard :: after }
    Coroutine.Returns (guarded.dispatchPipeline params request) trace response ↔
      ((∀ front checked, ¬ runtime.Asks params request before front checked) ∧
        Coroutine.Returns (bare.dispatchPipeline params request) trace response) ∨
      ∃ front checked, runtime.Asks params request before front checked ∧
        (((guard.check checked).value = some (checked,.ok ()) ∧ ∃ rest,
          trace = front ++ .guardAccepted guard :: rest ∧
          Coroutine.Returns (bare.dispatchPipeline params request) (front ++ rest) response) ∨
        ∃ rejection, (guard.check checked).value = some (checked,.error rejection) ∧
          trace = front ++ .guardRejected guard :: runtime.tail (.guardRejection checked rejection) ∧
          response = (Exit.guardRejection checked rejection).final runtime) := by
  intro bare guarded
  by_cases hasks : ∃ front checked, runtime.Asks params request before front checked
  · obtain ⟨_,checked,head,body,hn,ha,rfl⟩ := hasks
    have hguarded : ∀ t r, Coroutine.Returns (guarded.dispatchPipeline params request) t r ↔ _ :=
      fun _ _ => EndpointRuntime.returns_of_accepts hn ha
    have hbare : ∀ t r, Coroutine.Returns (bare.dispatchPipeline params request) t r ↔ _ :=
      fun _ _ => EndpointRuntime.returns_of_accepts hn ha
    constructor
    · intro h
      obtain ⟨_,rfl,hasked⟩ := (hguarded _ _).mp h
      refine Or.inr ⟨_,checked,⟨head,body,hn,ha,rfl⟩,?_⟩
      rcases (EndpointRuntime.returns_checkGuards_cons honly).mp hasked with
        ⟨hok,rest,rfl,hrest⟩ | ⟨rejection,hbad,rfl,rfl⟩
      · exact Or.inl ⟨hok,rest,rfl,(hbare _ _).mpr ⟨rest,rfl,hrest⟩⟩
      · exact Or.inr ⟨rejection,hbad,rfl,rfl⟩
    · rintro (⟨hnone,-⟩ | ⟨_,checked',⟨_,_,hn',ha',rfl⟩,hasked⟩)
      · exact absurd ⟨head,body,hn,ha,rfl⟩ (hnone _ checked)
      · obtain ⟨rfl,rfl⟩ := Prod.mk.inj (Except.ok.inj (hn.symm.trans hn'))
        obtain rfl := EndpointRuntime.accepts_unique ha ha'
        rcases hasked with ⟨hok,rest,rfl,h⟩ | ⟨rejection,hbad,rfl,rfl⟩
        · obtain ⟨_,hsame,hrest⟩ := (hbare _ _).mp h
          obtain rfl := List.append_cancel_left hsame
          refine (hguarded _ _).mpr ⟨_,rfl,?_⟩
          exact (EndpointRuntime.returns_checkGuards_cons honly).mpr (Or.inl ⟨hok,rest,rfl,hrest⟩)
        · refine (hguarded _ _).mpr ⟨_,rfl,?_⟩
          exact (EndpointRuntime.returns_checkGuards_cons honly).mpr (Or.inr ⟨rejection,hbad,rfl,rfl⟩)
  · have hnone : ∀ front checked, ¬ runtime.Asks params request before front checked :=
      fun front checked h => hasks ⟨front,checked,h⟩
    constructor
    · exact fun h => Or.inl ⟨hnone,EndpointRuntime.returns_of_not_asks hnone h⟩
    · rintro (⟨-,h⟩ | ⟨front,checked,h,-⟩)
      · exact EndpointRuntime.returns_of_not_asks hnone h
      · exact absurd h (hnone front checked)

end

section
local instance restrictionPlatform : Platform := referencePlatform

/-- Only requests that say what they accept. -/
def acceptGuard : EndpointGuard := ⟨[],fun head => pure (head,
  if (head.normalized.headers.getAll .accept).isEmpty then
    .error (.new (.validation "no accept header")) else .ok ())⟩

lemma onlyDecides_acceptGuard : OnlyDecides acceptGuard := fun _ _ _ h =>
  (Prod.mk.inj (Option.some.inj h)).1.symm

def acceptingRequest : IncomingRequest :=
  { articleRequest with headers := Multimap.empty.insert .accept applicationJson }

/-- Between two other guards, the third does not show where it accepts. -/
theorem guard_only_restricts_article :
    let runtime := articleRuntime cachedEndpoint (varyOutcome [])
    ∃ front rest response, Coroutine.Returns
      ({ runtime with guards := [patientGuard,acceptGuard,patientGuard] }.dispatchPipeline articleParams
        acceptingRequest) (front ++ .guardAccepted acceptGuard :: rest) response ∧
      Coroutine.Returns ({ runtime with guards := [patientGuard,patientGuard] }.dispatchPipeline
        articleParams acceptingRequest) (front ++ rest) response := by
  intro runtime
  obtain ⟨trace,response,h⟩ : ∃ trace response, Coroutine.Returns
      ({ runtime with guards := [patientGuard,acceptGuard,patientGuard] }.dispatchPipeline articleParams
        acceptingRequest) trace response := ⟨_,_,rfl,rfl⟩
  rcases (guard_only_restricts runtime articleParams acceptingRequest acceptGuard [patientGuard]
      [patientGuard] onlyDecides_acceptGuard trace response).mp h with
    ⟨hnone,-⟩ | ⟨front,checked,⟨head,body,hn,ha,-⟩,⟨-,rest,rfl,hbare⟩ | ⟨rejection,hbad,-⟩⟩
  · exact absurd ⟨_,_,rfl,.cons _ _ _ _ _ rfl (.nil _),rfl⟩ (hnone _ _)
  · exact ⟨front,rest,response,h,hbare⟩
  · obtain ⟨rfl,-⟩ := Prod.mk.inj (Except.ok.inj hn)
    rcases ha with _ | ⟨_,_,_,left,_,accepted,⟨⟩⟩
    obtain ⟨rfl,-⟩ := Prod.mk.inj (Option.some.inj accepted)
    cases hbad

end
end SoapAxum.Router
