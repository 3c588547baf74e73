/-! Periods and limits of the gateway, in milliseconds. -/

namespace MillGateway.Timing

def statusPoll : Nat := 100

def errorPoll : Nat := 25

def startPoll : Nat := 300

def startTimeout : Nat := 30000

def state : Nat := 3000

/-- Changes of the task mode at a client's request. -/
def modeSwitch : Nat := 5000

/-- Changes of the task mode on the way to something else. -/
def programMode : Nat := 3000

def programOpen : Nat := 5000

def home : Nat := 3000

def noWait : Nat := 0

end MillGateway.Timing
