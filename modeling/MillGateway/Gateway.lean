import MillGateway.Job.Basic
import MillGateway.Subscription

/-! The gateway's own state, and the answers that jobs get from it at once. -/

namespace MillGateway

open Machine Subscription

/-- How observers react to deliveries. What an observer leaves behind is kept for the next one. -/
structure Observers (ω ε : Type) where
  onStatus : Status → ω → ε → Callback ω ε
  onEvent : Event → ω → ε → Callback ω ε

structure Gateway (ω ε : Type) where
  cache : Cache := {}
  channel : Option Link.ChannelId := none
  nextEvent : UInt64 := 0
  registry : Registry ω := {}
  left : ε

namespace Gateway

variable [DecidableEq ω]

def announce (g : Gateway ω ε) (c : Channel) (react : ω → ε → Callback ω ε) :
    Nat × Gateway ω ε :=
  let (n, left, registry) := g.registry.notify react c g.left
  (n, { g with registry := registry, left := left })

def answer (obs : Observers ω ε) (g : Gateway ω ε) : (i : Inside) → i.Answer × Gateway ω ε
  | .cache => (g.cache, g)
  | .store s => (!g.cache.alive, { g with cache := g.cache.store s })
  | .markDown => (g.cache.alive, { g with cache := g.cache.markDown })
  | .channel => (g.channel, g)
  | .setChannel c? => ((), { g with channel := c? })
  | .nextEventId => (g.nextEvent, { g with nextEvent := g.nextEvent + 1 })
  | .announceStatus s => g.announce .status (obs.onStatus s)
  | .announceEvent e => g.announce .errors (obs.onEvent e)

end Gateway

end MillGateway
