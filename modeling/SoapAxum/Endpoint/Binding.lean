import SoapAxum.Endpoint.Pipeline

/-! A binding as the application puts it together: a target with its route mapping, and then guards,
middleware and hooks in call order. -/
namespace SoapAxum.Endpoint
open SoapAxum.Http

section
variable [Platform]

/-- A call on a binding. -/
inductive BindingCall where
  | guard (guard : EndpointGuard)
  | middleware (middleware : EndpointMiddleware)
  | hook (hook : Platform.EndpointHook)

namespace EndpointBinding

def routeIo (target : EndpointTarget) : EndpointBinding :=
  { target
    guards := []
    middleware := []
    hooks := [] }

def addGuard (binding : EndpointBinding) (guard : EndpointGuard) : EndpointBinding :=
  { binding with guards := binding.guards ++ [guard] }

def addMiddleware (binding : EndpointBinding) (middleware : EndpointMiddleware) : EndpointBinding :=
  { binding with middleware := binding.middleware ++ [middleware] }

def addHook (binding : EndpointBinding) (hook : Platform.EndpointHook) : EndpointBinding :=
  { binding with hooks := binding.hooks ++ [hook] }

def perform (binding : EndpointBinding) : BindingCall → EndpointBinding
  | .guard guard => binding.addGuard guard
  | .middleware middleware => binding.addMiddleware middleware
  | .hook hook => binding.addHook hook

/-- The binding of a target after a chain of calls. -/
def assemble (target : EndpointTarget) (calls : List BindingCall) : EndpointBinding :=
  calls.foldl perform (routeIo target)

end EndpointBinding

def BindingCall.guards (calls : List BindingCall) : List EndpointGuard := calls.filterMap fun
  | .guard g => some g
  | _ => none

def BindingCall.middlewares (calls : List BindingCall) : List EndpointMiddleware :=
  calls.filterMap fun
    | .middleware m => some m
    | _ => none

def BindingCall.hooks (calls : List BindingCall) : List Platform.EndpointHook := calls.filterMap fun
  | .hook h => some h
  | _ => none

theorem foldl_perform (binding : EndpointBinding) (calls : List BindingCall) :
    calls.foldl EndpointBinding.perform binding =
      { target := binding.target
        guards := binding.guards ++ BindingCall.guards calls
        middleware := binding.middleware ++ BindingCall.middlewares calls
        hooks := binding.hooks ++ BindingCall.hooks calls } := by
  induction calls generalizing binding with
  | nil => simp [BindingCall.guards,BindingCall.middlewares,BindingCall.hooks]
  | cons call calls ih =>
    rw [List.foldl_cons,ih]
    cases call <;> simp [EndpointBinding.perform,EndpointBinding.addGuard,
      EndpointBinding.addMiddleware,EndpointBinding.addHook,BindingCall.guards,
      BindingCall.middlewares,BindingCall.hooks]

/-- A binding has its target and the parts of its calls, each kind in call order. -/
theorem EndpointBinding.assemble_eq (target : EndpointTarget) (calls : List BindingCall) :
    EndpointBinding.assemble target calls =
      ⟨target,BindingCall.guards calls,BindingCall.middlewares calls,BindingCall.hooks calls⟩ :=
  foldl_perform (routeIo target) calls

end
end SoapAxum.Endpoint
