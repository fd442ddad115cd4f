import SoapAxum.Builder.History

/-! Which chains of calls on the builder succeed. It is a matter of what is called, not of the order,
and the first call that does not fit those before it is the one that fails. -/
namespace SoapAxum.Builder
open SoapAxum.Http SoapAxum.Data SoapAxum.Semantics SoapAxum.Endpoint SoapAxum.Router

section
variable [Platform] [Axum]

/-- What the plugin returns. Its calls fail for want of an endpoint only, and so the catalog is all
that this depends on. -/
def Installation.result (catalog : EndpointCatalog) : Installation → SoapResult Unit
  | .finish result => result
  | .call request next => match request.registration catalog with
    | .ok _ => (next (.ok ())).result catalog
    | .error error => (next (.error error)).result catalog

def pluginNames (calls : List BuilderCall) : List String := calls.filterMap fun
  | .plugin plugin => some plugin.name
  | _ => none

def History.boundIds (history : History) : List EndpointId := history.filterMap fun
  | .bind id _ => some id
  | _ => none

/-- The endpoint that a call names. -/
def BuilderCall.endpointId : BuilderCall → Option String
  | .bind endpointId _ => some endpointId
  | .allowUnenforced endpointId _ => some endpointId
  | _ => none

/-- The calls fit together: the endpoints they name are declared, none is bound twice, no plugin is
installed twice, and each installs. -/
structure Consistent (catalog : EndpointCatalog) (calls : List BuilderCall) : Prop where
  declared : ∀ call ∈ calls, ∀ endpointId, call.endpointId = some endpointId →
    ∃ id, requireEndpoint catalog endpointId = .ok id
  bindings : (registered catalog calls).boundIds.Nodup
  plugins : (pluginNames calls).Nodup
  installs : ∀ plugin, .plugin plugin ∈ calls → (plugin.install catalog).result catalog = .ok ()
  body : .maxBodyBytes 0 ∉ calls

/-- Why a call fails after those before it. -/
inductive Refused (catalog : EndpointCatalog) (past : List BuilderCall) :
    BuilderCall → SoapError → Prop
  | undeclared (call : BuilderCall) (endpointId : String) (error : SoapError)
      (named : call.endpointId = some endpointId)
      (refused : requireEndpoint catalog endpointId = .error error) : Refused catalog past call error
  | bound (endpointId : String) (binding : EndpointBinding) (id : EndpointId)
      (declared : requireEndpoint catalog endpointId = .ok id)
      (member : id ∈ (registered catalog past).boundIds) :
      Refused catalog past (.bind endpointId binding)
        (.conflict ("endpoint `" ++ endpointId ++ "` already has a binding"))
  | installed (plugin : RouterPlugin) (member : plugin.name ∈ pluginNames past) :
      Refused catalog past (.plugin plugin)
        (.conflict ("router plugin `" ++ plugin.name ++ "` is already installed"))
  | failed (plugin : RouterPlugin) (error : SoapError) (fresh : plugin.name ∉ pluginNames past)
      (result : (plugin.install catalog).result catalog = .error error) :
      Refused catalog past (.plugin plugin) error
  | noBody : Refused catalog past (.maxBodyBytes 0)
      (.validation "Axum maximum request body size must be greater than zero")

theorem fst_run {catalog : EndpointCatalog} {installation : Installation}
    {builder : SoapRouterBuilder} (h : builder.catalog = catalog) :
    (installation.run builder.toPluginContext).1 = installation.result catalog := by
  induction installation generalizing builder with
  | finish result => rfl
  | call request next ih =>
    rw [Installation.run,Installation.result,perform_pluginCall,h]
    cases hr : request.registration catalog with
    | error error => exact ih _ h
    | ok registration =>
      have hcatalog : (builder.record registration).catalog = catalog := by
        rw [← h]
        cases registration <;> rfl
      exact ih _ hcatalog

lemma mem_boundIds {history : History} {id : EndpointId} :
    id ∈ history.boundIds ↔ history.bindings id ≠ [] := by
  rw [History.boundIds,History.bindings,Ne,List.filterMap_eq_nil_iff,not_forall,List.mem_filterMap]
  refine exists_congr fun registration => ?_
  cases registration with
  | bind j binding => by_cases hj : j = id <;> simp [hj]
  | _ => simp

/-- What has been called so far, as far as it decides about the calls to come. -/
structure Called (catalog : EndpointCatalog) (past : List BuilderCall)
    (builder : SoapRouterBuilder) : Prop where
  records : Records catalog (registered catalog past) builder
  plugins : ∀ name, name ∈ builder.plugins ↔ name ∈ pluginNames past

lemma called_new (catalog : EndpointCatalog) : Called catalog [] (.new catalog) :=
  ⟨records_new catalog,by simp [SoapRouterBuilder.new,pluginNames]⟩

variable {catalog : EndpointCatalog} {past : List BuilderCall} {builder builder' : SoapRouterBuilder}
variable {call : BuilderCall} {error : SoapError}

lemma registered_concat (catalog : EndpointCatalog) (past : List BuilderCall)
    (call : BuilderCall) : registered catalog (past ++ [call]) =
      registered catalog past ++ call.registrations catalog := by
  rw [registered,List.flatMap_append,List.flatMap_singleton,registered]

/-- A bind fails if its endpoint is not declared or has a binding. -/
theorem bind_eq_error (h : Called catalog past builder) {endpointId : String}
    {binding : EndpointBinding} :
    builder.bind endpointId binding = .error error ↔
      Refused catalog past (.bind endpointId binding) error := by
  rw [SoapRouterBuilder.bind,h.records.catalog]
  cases hid : requireEndpoint catalog endpointId with
  | error error' =>
    change Except.error error' = Except.error error ↔ _
    constructor
    · intro he
      exact .undeclared _ endpointId error rfl (hid.trans (congrArg _ (Except.error.inj he)))
    · intro hr
      cases hr with
      | undeclared _ _ _ hnamed hrefused =>
        obtain rfl := Option.some.inj hnamed
        exact congrArg _ (Except.error.inj (hid.symm.trans hrefused))
      | bound _ _ id hdeclared => cases hid.symm.trans hdeclared
  | ok id =>
    have hbound : (builder.bindings.get id).isSome ↔ id ∈ (registered catalog past).boundIds := by
      rw [mem_boundIds,← h.records.bindings]
      cases builder.bindings.get id <;> simp
    rw [Fallible.ok_bind]
    constructor
    · intro he
      split_ifs at he with hsome
      exact Except.error.inj he ▸ .bound endpointId binding id hid (hbound.mp hsome)
    · intro hr
      cases hr with
      | undeclared _ _ _ hnamed hrefused =>
        obtain rfl := Option.some.inj hnamed
        cases hid.symm.trans hrefused
      | bound _ _ id' hdeclared hmember =>
        obtain rfl := Except.ok.inj (hid.symm.trans hdeclared)
        rw [if_pos (hbound.mpr hmember)]

theorem plugin_eq_error (h : Called catalog past builder) {plugin : RouterPlugin} :
    builder.plugin plugin = .error error ↔ Refused catalog past (.plugin plugin) error := by
  rw [SoapRouterBuilder.plugin,h.records.catalog]
  by_cases hname : plugin.name ∈ builder.plugins
  · rw [if_pos hname]
    have hmember := (h.plugins plugin.name).mp hname
    constructor
    · intro he
      exact Except.error.inj he ▸ .installed plugin hmember
    · intro hr
      cases hr with
      | undeclared _ _ _ hnamed => cases hnamed
      | installed => rfl
      | failed _ _ hfresh => exact absurd hmember hfresh
  · rw [if_neg hname]
    have hfresh := mt (h.plugins plugin.name).mpr hname
    have hresult : ((plugin.install catalog).run builder.toPluginContext).1 =
        (plugin.install catalog).result catalog := fst_run h.records.catalog
    cases hrun : (plugin.install catalog).run builder.toPluginContext with
    | mk result context =>
      rw [hrun] at hresult
      cases result with
      | error error' =>
        change Except.error error' = Except.error error ↔ _
        constructor
        · intro he
          exact .failed plugin error hfresh (hresult.symm.trans (congrArg _ (Except.error.inj he)))
        · intro hr
          cases hr with
          | undeclared _ _ _ hnamed => cases hnamed
          | installed _ hmember => exact absurd hmember hfresh
          | failed _ _ _ hfailed => exact congrArg _ (Except.error.inj (hresult.trans hfailed))
      | ok u =>
        refine iff_of_false Fallible.ok_ne_error fun hr => ?_
        cases hr with
        | undeclared _ _ _ hnamed => cases hnamed
        | installed _ hmember => exact hfresh hmember
        | failed _ _ _ hfailed => cases hresult.trans hfailed

/-- A call fails exactly if it is refused in view of the calls before it. -/
theorem perform_eq_error (h : Called catalog past builder) :
    builder.perform call = .error error ↔ Refused catalog past call error := by
  have hnever : ∀ quiet : BuilderCall, quiet.endpointId = none →
      (∀ plugin, quiet ≠ .plugin plugin) → quiet ≠ .maxBodyBytes 0 →
      ¬ Refused catalog past quiet error := by
    rintro _ hnone hplugin hbody (⟨_,_,_,hnamed⟩ | _ | _ | _ | _)
    · rw [hnone] at hnamed
      cases hnamed
    · cases hnone
    · exact hplugin _ rfl
    · exact hplugin _ rfl
    · exact hbody rfl
  cases call with
  | guard g => exact iff_of_false Fallible.ok_ne_error (hnever _ rfl (by simp) (by simp))
  | middleware m => exact iff_of_false Fallible.ok_ne_error (hnever _ rfl (by simp) (by simp))
  | hook hook => exact iff_of_false Fallible.ok_ne_error (hnever _ rfl (by simp) (by simp))
  | errorMapper mapper => exact iff_of_false Fallible.ok_ne_error (hnever _ rfl (by simp) (by simp))
  | bind endpointId binding => exact bind_eq_error h
  | plugin p => exact plugin_eq_error h
  | maxBodyBytes bytes =>
    rw [SoapRouterBuilder.perform,SoapRouterBuilder.setMaxBodyBytes]
    by_cases hzero : bytes = 0
    · subst hzero
      rw [if_pos rfl]
      constructor
      · intro he
        exact Except.error.inj he ▸ .noBody
      · intro hr
        cases hr with
        | undeclared _ _ _ hnamed => cases hnamed
        | noBody => rfl
    · rw [if_neg hzero]
      refine iff_of_false Fallible.ok_ne_error (hnever _ rfl (by simp) fun he => ?_)
      exact hzero (BuilderCall.maxBodyBytes.inj he)
  | allowUnenforced endpointId capability =>
    rw [SoapRouterBuilder.perform,SoapRouterBuilder.allowUnenforced,h.records.catalog]
    cases hid : requireEndpoint catalog endpointId with
    | error error' =>
      change Except.error error' = Except.error error ↔ _
      constructor
      · intro he
        exact .undeclared _ endpointId error rfl (hid.trans (congrArg _ (Except.error.inj he)))
      · intro hr
        cases hr with
        | undeclared _ _ _ hnamed hrefused =>
          obtain rfl := Option.some.inj hnamed
          exact congrArg _ (Except.error.inj (hid.symm.trans hrefused))
    | ok id =>
      refine iff_of_false Fallible.ok_ne_error fun hr => ?_
      cases hr with
      | undeclared _ _ _ hnamed hrefused =>
        obtain rfl := Option.some.inj hnamed
        cases hid.symm.trans hrefused

theorem Called.perform (h : Called catalog past builder) (hcall : builder.perform call = .ok builder') :
    Called catalog (past ++ [call]) builder' := by
  have hrecords := h.records.perform hcall
  rw [← registered_concat] at hrecords
  refine ⟨hrecords,fun name => ?_⟩
  rw [pluginNames,List.filterMap_append,List.mem_append,← pluginNames,← h.plugins]
  cases call with
  | guard g => exact Except.ok.inj hcall ▸ (or_iff_left List.not_mem_nil).symm
  | middleware m => exact Except.ok.inj hcall ▸ (or_iff_left List.not_mem_nil).symm
  | hook hook => exact Except.ok.inj hcall ▸ (or_iff_left List.not_mem_nil).symm
  | errorMapper mapper => exact Except.ok.inj hcall ▸ (or_iff_left List.not_mem_nil).symm
  | maxBodyBytes bytes =>
    rw [SoapRouterBuilder.perform,SoapRouterBuilder.setMaxBodyBytes] at hcall
    split_ifs at hcall
    exact Except.ok.inj hcall ▸ (or_iff_left List.not_mem_nil).symm
  | allowUnenforced endpointId capability =>
    obtain ⟨id,-,hcall⟩ := Fallible.bind_eq_ok.mp hcall
    exact Except.ok.inj hcall ▸ (or_iff_left List.not_mem_nil).symm
  | bind endpointId binding =>
    obtain ⟨id,-,hcall⟩ := Fallible.bind_eq_ok.mp hcall
    split_ifs at hcall
    exact Except.ok.inj hcall ▸ (or_iff_left List.not_mem_nil).symm
  | plugin p =>
    rw [SoapRouterBuilder.perform,SoapRouterBuilder.plugin] at hcall
    split_ifs at hcall
    cases hrun : (p.install builder.catalog).run builder.toPluginContext with
    | mk result context =>
      rw [hrun] at hcall
      cases result with
      | error error => contradiction
      | ok u =>
        obtain rfl := Except.ok.inj hcall
        simp [or_comm]

lemma called_configure {calls : List BuilderCall}
    (h : configure catalog calls = .ok builder) : Called catalog calls builder := by
  have hstep : ∀ past built call built', Called catalog past built →
      built.perform call = .ok built' → Called catalog (past ++ [call]) built' :=
    fun _ _ _ _ hb hp => hb.perform hp
  have hlog := Fallible.foldlM_log hstep (called_new catalog) h
  simpa using hlog

lemma boundIds_append (history history' : History) :
    (history ++ history').boundIds = history.boundIds ++ history'.boundIds := List.filterMap_append

lemma pluginNames_concat (past : List BuilderCall) (call : BuilderCall) :
    pluginNames (past ++ [call]) = pluginNames past ++ pluginNames [call] := List.filterMap_append

/-- No plugin binds an endpoint. -/
theorem boundIds_registrations (catalog : EndpointCatalog) (installation : Installation) :
    (installation.registrations catalog).boundIds = [] := by
  induction installation with
  | finish result => rfl
  | call request next ih =>
    rw [Installation.registrations]
    cases hr : request.registration catalog with
    | error error => exact ih _
    | ok registration =>
      have hbind : ∀ id binding, registration ≠ .bind id binding :=
        (record_of_pluginCall (.new catalog) hr).2
      cases registration with
      | bind id binding => exact absurd rfl (hbind id binding)
      | _ => exact ih _

lemma consistent_nil (catalog : EndpointCatalog) : Consistent catalog [] :=
  ⟨nofun,List.nodup_nil,List.nodup_nil,nofun,nofun⟩

theorem Consistent.of_concat (h : Consistent catalog (past ++ [call])) : Consistent catalog past where
  declared c hc := h.declared c (List.mem_append_left _ hc)
  bindings := by
    have hbindings := h.bindings
    rw [registered_concat,boundIds_append] at hbindings
    exact hbindings.of_append_left
  plugins := by
    have hplugins := h.plugins
    rw [pluginNames_concat] at hplugins
    exact hplugins.of_append_left
  installs plugin hp := h.installs plugin (List.mem_append_left _ hp)
  body hb := h.body (List.mem_append_left _ hb)

/-- A chain stays consistent with one more call exactly if the call is not refused. -/
theorem consistent_concat (h : Consistent catalog past) :
    Consistent catalog (past ++ [call]) ↔ ¬ ∃ error, Refused catalog past call error := by
  constructor
  · rintro hc ⟨error,hr⟩
    have hlast : call ∈ past ++ [call] := List.mem_append_right _ (List.mem_singleton_self _)
    cases hr with
    | undeclared _ endpointId _ hnamed hrefused =>
      obtain ⟨id,hid⟩ := hc.declared call hlast endpointId hnamed
      cases hrefused.symm.trans hid
    | bound endpointId binding id hdeclared hmember =>
      have hbindings := hc.bindings
      rw [registered_concat,boundIds_append,BuilderCall.registrations,hdeclared] at hbindings
      exact (List.nodup_append.mp hbindings).2.2 id hmember id (List.mem_singleton_self id) rfl
    | installed plugin hmember =>
      have hplugins := hc.plugins
      rw [pluginNames_concat] at hplugins
      exact (List.nodup_append.mp hplugins).2.2 _ hmember _ (List.mem_singleton_self _) rfl
    | failed plugin _ _ hresult => cases hresult.symm.trans (hc.installs plugin hlast)
    | noBody => exact hc.body hlast
  · intro hr
    have hdeclared : ∀ endpointId, call.endpointId = some endpointId →
        ∃ id, requireEndpoint catalog endpointId = .ok id := by
      intro endpointId hnamed
      cases hid : requireEndpoint catalog endpointId with
      | error error => exact absurd ⟨error,.undeclared call endpointId error hnamed hid⟩ hr
      | ok id => exact ⟨id,rfl⟩
    constructor
    · intro c hc endpointId hnamed
      rcases List.mem_append.mp hc with hc | hc
      · exact h.declared c hc endpointId hnamed
      · obtain rfl := List.mem_singleton.mp hc
        exact hdeclared endpointId hnamed
    · rw [registered_concat,boundIds_append]
      cases call with
      | bind endpointId binding =>
        obtain ⟨id,hid⟩ := hdeclared endpointId rfl
        rw [BuilderCall.registrations,hid]
        refine List.nodup_append.mpr ⟨h.bindings,List.nodup_singleton id,?_⟩
        rintro _ hmember _ hnew rfl
        obtain rfl := List.mem_singleton.mp hnew
        exact hr ⟨_,.bound endpointId binding _ hid hmember⟩
      | plugin p =>
        rw [BuilderCall.registrations,boundIds_registrations,List.append_nil]
        exact h.bindings
      | allowUnenforced endpointId capability =>
        obtain ⟨id,hid⟩ := hdeclared endpointId rfl
        rw [BuilderCall.registrations,hid]
        exact (List.append_nil _).symm ▸ h.bindings
      | _ => exact (List.append_nil _).symm ▸ h.bindings
    · rw [pluginNames_concat]
      cases call with
      | plugin p =>
        refine List.nodup_append.mpr ⟨h.plugins,List.nodup_singleton p.name,?_⟩
        rintro _ hmember _ hnew rfl
        obtain rfl := List.mem_singleton.mp hnew
        exact hr ⟨_,.installed p hmember⟩
      | _ => exact (List.append_nil _).symm ▸ h.plugins
    · intro plugin hp
      rcases List.mem_append.mp hp with hp | hp
      · exact h.installs plugin hp
      · obtain rfl := List.mem_singleton.mp hp
        cases hresult : (plugin.install catalog).result catalog with
        | ok u => rfl
        | error error =>
          refine absurd ⟨error,?_⟩ hr
          refine .failed plugin error (fun hmember => ?_) hresult
          exact hr ⟨_,.installed plugin hmember⟩
    · intro hb
      rcases List.mem_append.mp hb with hb | hb
      · exact h.body hb
      · obtain rfl := List.mem_singleton.mp hb
        exact hr ⟨_,.noBody⟩

lemma configure_concat (catalog : EndpointCatalog) (past : List BuilderCall) (call : BuilderCall) :
    configure catalog (past ++ [call]) =
      configure catalog past >>= fun builder => builder.perform call := by
  rw [configure,List.foldlM_append,configure]
  refine congrArg _ (funext fun builder => ?_)
  rw [List.foldlM_cons]
  exact bind_pure _

theorem exists_configure_iff {catalog : EndpointCatalog} {calls : List BuilderCall} :
    (∃ builder, configure catalog calls = .ok builder) ↔ Consistent catalog calls := by
  induction calls using List.reverseRecOn with
  | nil => exact iff_of_true ⟨_,rfl⟩ (consistent_nil catalog)
  | append_singleton past call ih =>
    rw [configure_concat]
    constructor
    · rintro ⟨built,hbuilt⟩
      obtain ⟨builder,hpast,hcall⟩ := Fallible.bind_eq_ok.mp hbuilt
      refine (consistent_concat (ih.mp ⟨builder,hpast⟩)).mpr ?_
      rintro ⟨error,hr⟩
      cases hcall.symm.trans ((perform_eq_error (called_configure hpast)).mpr hr)
    · intro hc
      obtain ⟨builder,hpast⟩ := ih.mpr hc.of_concat
      cases hcall : builder.perform call with
      | ok built => exact ⟨built,Fallible.bind_eq_ok.mpr ⟨builder,hpast,hcall⟩⟩
      | error error =>
        have hr := (perform_eq_error (called_configure hpast)).mp hcall
        exact absurd ⟨error,hr⟩ ((consistent_concat hc.of_concat).mp hc)

/-- A chain of calls succeeds exactly if its calls fit together, and otherwise it ends at the first
call that is refused in view of those before it, with the reason for that. -/
theorem configure_outcome (catalog : EndpointCatalog) (calls : List BuilderCall) :
    ((∃ builder, configure catalog calls = .ok builder) ↔ Consistent catalog calls) ∧
      ∀ error, configure catalog calls = .error error ↔ ∃ before call after,
        calls = before ++ call :: after ∧ Consistent catalog before ∧
          Refused catalog before call error := by
  refine ⟨exists_configure_iff,fun error => ?_⟩
  rw [configure,Fallible.foldlM_eq_error]
  constructor
  · rintro ⟨before,call,after,mid,rfl,hmid,herror⟩
    exact ⟨before,call,after,rfl,exists_configure_iff.mp ⟨mid,hmid⟩,
      (perform_eq_error (called_configure hmid)).mp herror⟩
  · rintro ⟨before,call,after,rfl,hc,hr⟩
    obtain ⟨mid,hmid⟩ := exists_configure_iff.mpr hc
    exact ⟨before,call,after,mid,rfl,hmid,(perform_eq_error (called_configure hmid)).mpr hr⟩

/-- The order of the calls does not matter for that. -/
theorem Consistent.perm {calls calls' : List BuilderCall} (hp : calls.Perm calls')
    (h : Consistent catalog calls) : Consistent catalog calls' where
  declared call hc := h.declared call (hp.mem_iff.mpr hc)
  bindings := ((hp.flatMap_right _).filterMap _).nodup_iff.mp h.bindings
  plugins := (hp.filterMap _).nodup_iff.mp h.plugins
  installs plugin hc := h.installs plugin (hp.mem_iff.mpr hc)
  body hb := h.body (hp.mem_iff.mpr hb)

end
end SoapAxum.Builder
