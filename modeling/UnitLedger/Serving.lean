import UnitLedger.Gateway.Document
import UnitLedger.Gateway.Endpoint
import UnitLedger.Simulation

/-!
  UnitLedger.Serving — the gateway over an in-memory store, one request after another.

  Each request is worked on alone, so it never waits for a row lock, and its transaction is closed
  when it is answered. New ids come from a supply that starts at a chosen point: two ids of one
  supply differ as long as fewer than `2^122` are taken.
-/

namespace UnitLedger.Serving

/-! ## New ids -/

/-- The random form of an identifier: six bits are fixed, the other 122 are those of `n`. -/
def randomForm (n : Nat) : Uuid :=
  ⟨BitVec.ofNat 48 (n >>> 74) ++ 4#4 ++ BitVec.ofNat 12 (n >>> 62) ++ 2#2 ++ BitVec.ofNat 62 n⟩

/-- An odd number near the golden section of `2^122`: its multiples lie far apart. -/
def stride : Nat := 0x278dde6e5fd29e534b3f3a5d8f7a1c5

def supply (start n : Nat) : Uuid := randomForm (start + n * stride)

/-! ## Answering -/

abbrev State : Type := Simulation.State Gateway.Response

/-- An empty store with this supply of ids. -/
def opened (start patienceMs : Nat) (now : Instant) : State :=
  { world := { fresh := supply start }, now, patience := patienceMs }

/-- What a request finds beside itself at this time. -/
def surroundings (s : State) (version : String) : State × Gateway.Surroundings :=
  let (s, firstId) := s.draw
  let (s, secondId) := s.draw
  (s, { firstId, secondId, now := s.now, version, document := Gateway.Document.json })

/-- The only party at work. -/
def caller : Memory.Party := 0

/-- Answers a request that arrives at this time, and tells what was reported meanwhile. -/
def answer (s : State) (version : String) (now : Instant) (r : Http.Request) :
    State × Option Gateway.Response × List Log.Event :=
  let (s, at_) := surroundings { s with now, events := [] } version
  let (s, response) := s.perform caller true false (Gateway.respond at_ r)
  (s, response, s.events)

end UnitLedger.Serving
