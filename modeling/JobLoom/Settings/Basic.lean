import JobLoom.Conversion
import JobLoom.Pool.Size

/-!
# Settings

What a conversion service runs with: the size of its pool, where labels are looked up, and what all
containers have in common. Settings are checked once, when all layers are in place; blank values of
a lower layer do no harm when a higher one replaces them.
-/

namespace JobLoom

/-- The settings of a conversion service. -/
structure Settings where
  /-- the size of the worker pool -/
  pool : PoolSize
  /-- the namespace of the entries in the store -/
  space : String
  /-- the directory of the store; without one every lookup misses -/
  storeDir : Option String
  /-- what all containers have in common -/
  defaults : ContainerDefaults
  deriving DecidableEq, Repr

namespace Settings

/-- The settings that hold where nothing else is said. -/
def standard : Settings :=
  ⟨.standard, Converter.standard.space, none, Converter.standard.defaults⟩

/-- Refuse settings that no service could run with. -/
def check (s : Settings) : Except ConvertError Unit := do
  s.pool.check
  if Text.isBlankText s.space then throw (.config "store namespace must not be empty")
  if Text.isBlankText s.defaults.image then throw (.config "default image must not be empty")

/-- The converter of a service with these settings. -/
def converter (s : Settings) (format : OutputFormat) : Converter := ⟨s.space, s.defaults, format⟩

end Settings

end JobLoom
