/-
# The default parameters are consistent

The registry of the parameters of a run holds every name with the type that `Parameters.ofSet`
expects, and its default values are those of `Parameters.standard`.
-/

import MipShrink.Parameters.Basic

namespace MipShrink
namespace Parameters

/-- The default parameters are those of the registry before any assignment. -/
theorem ofSet_registry : ofSet registry = .ok standard := by rfl

end Parameters
end MipShrink
