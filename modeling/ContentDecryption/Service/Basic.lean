import ContentDecryption.Channel.Endpoint
import ContentDecryption.Service.Request

/-!
# Services

What a client relies on in a service, whatever the service does with its keys: that
it answers requests, and that its decryptors serve the channels it has made. The
service and its client share memory by name.
-/

namespace ContentDecryption

namespace Service

/-- What comes of a request. A service that gives up in the middle of it answers nothing. -/
structure Response (σ α : Type) where
  answer : Option α
  service : σ
  memory : SharedMemory

end Service

/-- The states of a kind of service. -/
class Service (σ : Type) where
  /-- Answers a request. -/
  respond : (r : Service.Request) → σ → SharedMemory → Service.Response σ r.Answer
  /-- Whether the requests of `Service.SystemRequest` can be made through an accessor. -/
  hasSystemRequests : σ → Service.Accessor → Bool
  /-- The client lets a session go, and all that was kept for it with it. -/
  release : Nat → σ → SharedMemory → σ × SharedMemory
  /-- The connection comes up or goes down. -/
  setConnected : Bool → σ → σ
  /-- The sinks to which notices may still be sent. -/
  sinks : σ → List Service.SinkRef
  /-- The decryptor that serves the channel at an object of shared memory. -/
  decryptor? : σ → Nat → Option (Channel.Server × Channel.Handler)
  /-- Whether a journal is kept of the requests. -/
  recorded : σ → Bool

end ContentDecryption
