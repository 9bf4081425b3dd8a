import LiTimeGateway.Remote.StatusView
import Mathlib.Data.List.Indexes
/-!
# The gateway's own page (`firmware/data/app.js`)

What `refreshBattery` and `refreshHistory` write into the page for the replies
of `/api/battery` and `/api/history`. A reply is the body of the response, or
nothing when the request fails. The values are those of the remote dashboard;
only `value` differs, which converts nothing to a number.
-/

namespace LiTimeGateway.LocalPage

open Lib Lib.Json Lib.Binary64 JavaScript Dashboard

variable (js : Conversions)

def value (number : Option Value) (decimals : Nat) : Text :=
  match finiteNumber number with
  | some x => fixedText js x decimals
  | none => text "—"

end LiTimeGateway.LocalPage
