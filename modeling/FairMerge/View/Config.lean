import FairMerge.Error

/-! # Configuration

The one setting of a view is how many buffers it pulls ahead of its consumer. -/

namespace FairMerge

/-- The settings of a view. -/
structure Config where
  /-- The most buffers that wait for the consumer. -/
  capacity : Nat
deriving DecidableEq

namespace Config

/-- The capacity of a view for which none is given. -/
def defaultCapacity : Nat := 10

/-- The settings of a view for which none are given. -/
def default : Config := ⟨defaultCapacity⟩

instance : Inhabited Config := ⟨default⟩

/-- Settings are sound if at least one buffer may wait. -/
def validate (config : Config) : Except Error Unit :=
  if config.capacity = 0 then .error (.invalidConfig "cache_capacity must be at least 1")
  else .ok ()

end Config

end FairMerge
