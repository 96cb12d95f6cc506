import Dcp.Client.Routing

/-!
When the receive loop of the Python client survives a message. Exceptions come from data that is no
object, from ids and methods that cannot be hashed, from errors that are no objects, and from
futures that are done already; any of them ends the loop.
-/

namespace Dcp
open Library
namespace Python
open DcpClient
variable {loads : String → Loaded} {client : DcpClient} {message : String} {id : Nat}

/-- The future has a result or an exception. -/
def Completed (client : DcpClient) (id : Nat) : Prop :=
  (∃ value, client.futures id = some (.result value)) ∨
    ∃ error, client.futures id = some (.exception error)

/-- The loop is not broken, and a response that comes for a request completes it. -/
def Delivers (loads : String → Loaded) (client : DcpClient) : Prop :=
  client.loop ≠ .broken ∧
    (client.loop = .receiving → ∀ message id, Reaches loads client message id →
      Completed (step loads client (.received message)) id ∧
        (step loads client (.received message)).loop = .receiving)

section Outcome

end Outcome

section Loop

end Loop

end Python
end Dcp
