import MillGateway.Job.Basic

/-! Looking at the controller: status polls, which fill the cache and go to the status observers,
and reads of the error channel, which go to the error observers as numbered events. -/

namespace MillGateway.Job

open Machine

/-! ### The cache -/

def isAlive : Job Bool :=
  locked .cache do return (← inside .cache).alive

def snapshot : Job (Option Status) :=
  locked .cache do return (← inside .cache).snapshot

def storeStatus (s : Status) : Job Bool :=
  locked .cache (inside (.store s))

def markDown : Job Bool :=
  locked .cache (inside .markDown)

/-! ### Status polls -/

/-- Polls the status. The lock is held throughout, so that outcomes reach the cache and the
observers in the order in which the controller gave them. -/
def pollStatus : Job (Option Status) :=
  locked .polling do
    match ← link .pollStatus with
    | .ok s =>
      discard (storeStatus s)
      discard (inside (.announceStatus s))
      return some s
    | .error _ =>
      discard markDown
      return none

/-! ### The error channel -/

def openedChannel : Job (Option Link.ChannelId) := do
  match ← inside .channel with
  | some c => return some c
  | none =>
    match ← link .openChannel with
    | .ok c =>
      inside (.setChannel (some c))
      return some c
    | .error _ => return none

def takeMessage : Job (Option Message) :=
  locked .channel do
    match ← openedChannel with
    | none => return none
    | some c =>
      match ← link (.pollChannel c) with
      | .ok m? => return m?
      | .error _ =>
        inside (.setChannel none)
        return none

def pollErrors : Job (Option Event) := do
  if !(← isAlive) then return none
  match ← takeMessage with
  | none => return none
  | some m =>
    let id ← inside .nextEventId
    let e := Event.ofMessage id m (← outside .localTime)
    discard (inside (.announceEvent e))
    return some e

def resetChannel : Job Unit :=
  locked .channel (inside (.setChannel none))

end MillGateway.Job
