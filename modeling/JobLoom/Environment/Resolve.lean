import JobLoom.Container.Decoding
import JobLoom.Environment.Warning
import JobLoom.Store.Basic

/-!
# The environment of a job

The runner label of a job leads to an entry of the label store, which describes the container. Where
it does not, the descriptor is empty and there is a warning; resolving a label never fails.
-/

namespace JobLoom

/-- The key of the entry for a label. -/
def storeKey (label : String) : String := label ++ ".yaml"

/-- What a label leads to. -/
structure Resolution where
  /-- the descriptor -/
  descriptor : ContainerDescriptor
  /-- why it is empty, if the label is to blame -/
  warning : Option Warning
  deriving DecidableEq

namespace Resolution

/-- No descriptor, for a reason. -/
def fallback (w : Warning) : Resolution := ⟨.empty, some w⟩

/-- What a payload leads to. -/
def ofPayload (job key : String) (payload : List UInt8) : Resolution :=
  match ContainerDescriptor.ofPayload payload with
  | .ok d => ⟨d, none⟩
  | .error r => fallback (.malformed job key (ConvertError.parse r.message).message)

/-- What the answer of the store leads to. -/
def ofAnswer (job key : String) : Answer → Resolution
  | .found payload => ofPayload job key payload
  | .missing => fallback (.missing job key)
  | .failed e => fallback (.lookupFailed job key e.message)

/-- What the label of a job leads to, given the answer for its key; a job without a label needs
none. -/
def of (job : String) (label : Option String) (answer : Option Answer) : Resolution :=
  match label, answer with
  | some l, some a => ofAnswer job (storeKey l) a
  | _, _ => fallback (.noLabel job)

end Resolution

end JobLoom
