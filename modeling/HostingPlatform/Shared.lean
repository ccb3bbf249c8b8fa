/-! What several services of the platform share: the error of a request and the status of
a tenant. -/
namespace HostingPlatform

structure ApiError where
  (code message : String)
  status : Nat
  deriving DecidableEq

inductive TenantStatus where
  | active | suspended | archived | pending
  deriving DecidableEq

end HostingPlatform
