/-!
# Release

The release of this software, as the shell and the store show it.
-/

namespace WideColumn

/-- The number of the release. -/
def release : String := "0.1.0"

end WideColumn
