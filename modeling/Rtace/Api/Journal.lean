import Rtace.Api.Custody

/-!
# The journal of the overrides

A record on the audit topic says which override it is for, with all of its arguments. So the topic, read back, is
the list of the overrides that were answered with a success and whose record went out, in the order in which Redis
executed them.
-/

namespace Rtace.Api

open Lib Redis Containment

section

variable {app : App} {rt : Runtime} {s t : Desk} {act : Act} {ls : List Act}

end

end Rtace.Api
